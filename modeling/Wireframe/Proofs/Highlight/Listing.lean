import Wireframe.Proofs.Decimal.Numerals
import Wireframe.Proofs.Highlight.Returns
import Wireframe.Proofs.Store.Pages
import Wireframe.Proofs.Text.Lines

/-!
# What is listed for a page

The listing of a page can be read back: on each of its lines stands the number and the category of
one line of the page (`Listing.entries_categories`). Highlighting counts rows instead of lines, so
it has one entry more for a text that is empty or ends in a line feed, and it takes all carriage
returns off the end of a row, while a line loses one at most. For a page the listing has the entries
of highlighting exactly if no line of it is a lone `*` with carriage returns behind it
(`Command.listsCategories_iff`).
-/

namespace Wireframe

/-! ### Reading a listing -/

namespace Category

/-- The categories. -/
def all : List Category := [metadata, structural, layout, interaction, plain]

theorem mem_all (category : Category) : category ∈ all := by cases category <;> decide

/-- Categories can be told by their names, which are single words. -/
theorem name_readable : ∀ category ∈ all, category.name.toList ≠ [] ∧
    (' ' ∉ category.name.toList ∧ '\n' ∉ category.name.toList ∧ '\r' ∉ category.name.toList) ∧
      all.find? (·.name.toList == category.name.toList) = some category := by decide

end Category

namespace Listing

/-- The number and the category that stand on a line of a listing: digits behind spaces, and a name
behind more of them. -/
def listed? (cs : List Char) : Option (Nat × Category) :=
  let columns := (cs.dropWhile (· == ' ')).span Char.isDigit
  let name := (columns.2.dropWhile (· == ' ')).takeWhile (· != ' ')
  (Category.all.find? (·.name.toList == name)).map (Numeral.valueOfDigits columns.1, ·)

/-- What stands in front of a line of a page in its listing. -/
def columns (number : Nat) (category : Category) : List Char :=
  (padStart 4 (toString number) ++ "  " ++ padEnd 11 category.name ++ " ").toList

variable {number : Nat} {category : Category}

theorem toList_categoryLine (content : List Char) (number : Nat) :
    (categoryLine content number).toList =
      columns number (Category.ofLine content) ++ content ++ ['\n'] := by
  simp [categoryLine, columns, line]

/-- The columns are the number and the name of the category, filled up with blanks. -/
theorem exists_columns_eq (number : Nat) (category : Category) : ∃ indent gap,
    columns number category = List.replicate indent ' ' ++ (Numeral.digits number ++
      ' ' :: ' ' :: (category.name.toList ++ ' ' :: List.replicate gap ' ')) := by
  have hdigits : (toString number).toList = Numeral.digits number := Nat.toList_repr
  refine ⟨4 - (toString number).length, 11 - category.name.length, ?_⟩
  simp only [columns, padStart, padEnd, String.toList_append, Text.toList_pushn, hdigits,
    List.append_assoc]
  rw [← List.replicate_succ, List.replicate_succ']
  rfl

/-- The columns end no line. -/
theorem not_mem_columns : '\n' ∉ columns number category ∧ '\r' ∉ columns number category := by
  obtain ⟨indent, gap, heq⟩ := exists_columns_eq number category
  obtain ⟨-, hname, -⟩ := Category.name_readable category (Category.mem_all category)
  have hdigits : ∀ c, c.isDigit = false → c ∉ Numeral.digits number := fun c hc hmem =>
    absurd (Numeral.isDigit_of_mem_digits hmem) (by simp [hc])
  simp [heq, hname, hdigits]

/-- The blanks in front of a word are dropped, and nothing of it. -/
theorem dropWhile_spaces {word : List Char} (hne : word ≠ []) (hspace : ' ' ∉ word) (count : ℕ)
    (rest : List Char) :
    (List.replicate count ' ' ++ (word ++ rest)).dropWhile (· == ' ') = word ++ rest := by
  obtain ⟨c, cs, rfl⟩ := List.exists_cons_of_ne_nil hne
  have hc : c ≠ ' ' := fun heq => hspace (heq ▸ List.mem_cons_self ..)
  rw [List.dropWhile_append_of_pos (by simp)]
  exact List.dropWhile_cons_of_neg (by simpa using hc)

/-- The columns of a line can be read, whatever stands behind them. -/
theorem listed?_columns (number : Nat) (category : Category) (rest : List Char) :
    listed? (columns number category ++ rest) = some (number, category) := by
  obtain ⟨indent, gap, heq⟩ := exists_columns_eq number category
  obtain ⟨hne, ⟨hspace, -⟩, hfind⟩ := Category.name_readable category (Category.mem_all category)
  have hdigit : ∀ c ∈ Numeral.digits number, c.isDigit = true := fun _ =>
    Numeral.isDigit_of_mem_digits
  have hdigits : ' ' ∉ Numeral.digits number := fun hmem => absurd (hdigit _ hmem) (by decide)
  simp only [heq, List.append_assoc, List.cons_append]
  generalize List.replicate gap ' ' ++ rest = after
  have hname : (List.dropWhile (· == ' ') (' ' :: ' ' ::
      (category.name.toList ++ ' ' :: after))).takeWhile (· != ' ') = category.name.toList := by
    have hdrop := dropWhile_spaces hne hspace 2 (' ' :: after)
    have hspan := Text.span_ne_append hspace after
    rw [List.span_eq_takeWhile_dropWhile] at hspan
    exact (congrArg (List.takeWhile (· != ' ')) hdrop).trans (Prod.mk.inj hspan).1
  rw [listed?, dropWhile_spaces (Numeral.digits_ne_nil number) hdigits,
    Text.span_append_cons hdigit (by decide)]
  dsimp only
  rw [hname, hfind, Numeral.valueOfDigits_digits, Option.map_some]

/-- The lines of a page with their numbers, counted from one, and their categories. -/
def entries (text : String) : List (Nat × Category) :=
  ((Text.lines text.toList).zipIdx 1).map fun item => (item.2, Category.ofLine item.1)

/-- A listing can be read back: its lines give the numbers and the categories of those of the
page. -/
theorem entries_categories (text : String) :
    (Text.lines (categories text).toList).map listed? = (entries text).map some := by
  have hprinted : ∀ item ∈ (Text.lines text.toList).zipIdx 1,
      (categoryLine item.1 item.2).toList =
        columns item.2 (Category.ofLine item.1) ++ item.1 ++ ['\n'] ∧
      '\n' ∉ columns item.2 (Category.ofLine item.1) ++ item.1 := by
    intro item hitem
    have hline : item.1 ∈ Text.lines text.toList := List.fst_mem_of_mem_zipIdx hitem
    refine ⟨toList_categoryLine item.1 item.2, ?_⟩
    rw [List.mem_append, not_or]
    exact ⟨not_mem_columns.1, Text.newline_not_mem_of_mem_lines hline⟩
  rw [categories, Text.lines_join hprinted, entries, List.map_map, List.map_map]
  refine List.map_congr_left fun item _ => ?_
  rw [Function.comp_apply, Text.dropReturn_append not_mem_columns.2, listed?_columns,
    Function.comp_apply]

end Listing

/-! ### Entries of highlighting -/

namespace Highlight

/-- The entry for the empty row at the end of a text, which is there if the text is empty or ends in
a line feed. -/
def finalEntry (text : String) : List (Nat × Category) :=
  if text.toList = [] ∨ text.toList.getLast? = some '\n' then
    [((Text.lines text.toList).length + 1, .plain)]
  else []

/-- The document has the categories of its lines without returns, and one for what comes behind the
last line end. -/
theorem categories_eq (text : String) : categories text =
    ((Text.lines text.toList).zipIdx 1).map
      (fun item => (item.2, Category.ofLine (Text.dropReturns item.1))) ++ finalEntry text := by
  have hlast := Text.getLast?_rows_eq_nil_iff text.toList
  rw [categories, displayLines, Text.map_dropReturns_rows, List.zipIdx_append, List.map_append,
    List.zipIdx_map, List.map_map, List.length_map, finalEntry, Nat.add_comm]
  simp only [hlast]
  split <;> rfl

/-- A listing has the entries of highlighting, but for the final one, exactly if no line is a lone
`*` with carriage returns behind it. -/
theorem categories_eq_entries_iff (text : String) :
    categories text = Listing.entries text ++ finalEntry text ↔
      ∀ line ∈ Text.lines text.toList, ¬ Category.IsReturnBullet line := by
  rw [categories_eq, Listing.entries, List.append_cancel_right_eq, List.map_inj_left]
  constructor
  · intro hsame line hline
    rw [← List.zipIdx_map_fst 1 (Text.lines text.toList)] at hline
    obtain ⟨item, hitem, rfl⟩ := List.mem_map.mp hline
    exact (Category.ofLine_dropReturns_eq_iff item.1).mp (Prod.mk.inj (hsame item hitem)).2
  · intro hlines item hitem
    have hline := hlines item.1 (List.fst_mem_of_mem_zipIdx hitem)
    exact Prod.ext rfl ((Category.ofLine_dropReturns_eq_iff item.1).mpr hline)

end Highlight

/-! ### The command -/

namespace Command

open FileSystem (bind_apply readText_apply)

variable {fs : FileSystem} {input : Path} {text : String}

/-- To list the categories of a page is to change nothing. -/
theorem perform_highlight (today : Naming.Day) (hread : fs.readBytes input = .ok text.toUTF8) :
    perform today fs (.highlight input false) = (.success (Listing.categories text), fs) := by
  rw [perform, run, runHighlight, withPage]
  simp only [bind_apply, readText_apply, hread, Except.bind, Disk.textOfBytes_toUTF8]
  rfl

/-- Whether the categories of a page are listed as highlighting gives them: the command ends well,
its lines can be read, and they have all entries of highlighting but the one for an empty row at the
end of the text. -/
structure ListsCategories (today : Naming.Day) (fs : FileSystem) (input : Path) (text : String) :
    Prop where
  /-- The command ends well. -/
  succeeds : (perform today fs (.highlight input false)).1.exitCode = 0
  /-- The lines that it prints are the entries of highlighting. -/
  entries : ∃ listed, (Text.lines (perform today fs (.highlight input false)).1.printed.toList).map
      Listing.listed? = listed.map some ∧
    Highlight.categories text = listed ++ Highlight.finalEntry text

/-- The list is the one of the document exactly if line by line both name one category. -/
theorem listsCategories_iff_eq (today : Naming.Day) (hread : fs.readBytes input = .ok text.toUTF8) :
    ListsCategories today fs input text ↔
      Highlight.categories text = Listing.entries text ++ Highlight.finalEntry text := by
  have hperform := perform_highlight today hread
  have hprinted : (perform today fs (.highlight input false)).1.printed =
      Listing.categories text := by
    rw [hperform]
    rfl
  have hentries := Listing.entries_categories text
  constructor
  · rintro ⟨-, listed, hlisted, heq⟩
    rw [hprinted, hentries] at hlisted
    rwa [← List.map_injective_iff.mpr (Option.some_injective _) hlisted] at heq
  · intro heq
    refine ⟨?_, Listing.entries text, ?_, heq⟩
    · rw [hperform]
      rfl
    · rw [hprinted, hentries]

/-- **When the listing of a page agrees with its highlighting**: exactly if no line of the page is a
lone `*` with carriage returns behind it. -/
theorem listsCategories_iff (today : Naming.Day) (hread : fs.readBytes input = .ok text.toUTF8) :
    ListsCategories today fs input text ↔
      ∀ line ∈ Text.lines text.toList, ¬ Category.IsReturnBullet line :=
  (listsCategories_iff_eq today hread).trans (Highlight.categories_eq_entries_iff text)

open Batch (onePage)

/-- A lone `*` in front of a line end, carriage return included, is no such line. -/
theorem listsCategories_returns :
    (onePage "page.txt" "* Item\r\n*\r\n").readBytes ⟨"page.txt"⟩ =
      .ok "* Item\r\n*\r\n".toUTF8 ∧
    ListsCategories ⟨2024, 3, 7⟩ (onePage "page.txt" "* Item\r\n*\r\n") ⟨"page.txt"⟩
      "* Item\r\n*\r\n" := by
  have hread := Batch.readBytes_onePage (by decide : Path.IsName "page.txt") "* Item\r\n*\r\n"
  have hsame : ∀ line ∈ Text.lines "* Item\r\n*\r\n".toList,
      Category.ofLine (Text.dropReturns line) = Category.ofLine line := by decide
  exact ⟨hread, (listsCategories_iff ⟨2024, 3, 7⟩ hread).mpr fun line hline =>
    (Category.ofLine_dropReturns_eq_iff line).mp (hsame line hline)⟩

/-- At the end of a text, a carriage return makes a bullet of a `*` in the listing only. -/
theorem not_listsCategories_return :
    (onePage "page.txt" "*\r").readBytes ⟨"page.txt"⟩ = .ok "*\r".toUTF8 ∧
      Listing.entries "*\r" = [(1, .interaction)] ∧ Highlight.categories "*\r" = [(1, .plain)] ∧
      ¬ ListsCategories ⟨2024, 3, 7⟩ (onePage "page.txt" "*\r") ⟨"page.txt"⟩ "*\r" := by
  have hread := Batch.readBytes_onePage (by decide : Path.IsName "page.txt") "*\r"
  refine ⟨hread, by decide, by decide, fun hlists => ?_⟩
  exact absurd ((listsCategories_iff_eq ⟨2024, 3, 7⟩ hread).mp hlists) (by decide)

end Command

end Wireframe
