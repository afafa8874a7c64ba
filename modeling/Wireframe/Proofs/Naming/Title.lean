import Wireframe.Naming
import Wireframe.Proofs.Document.Entries
import Wireframe.Proofs.Text.Lines

/-!
# The title that a page is named after

Naming looks for the title in the text as a whole: it finds the first line that starts with the
title opening and takes the first filled line from there on, what follows the opening included
(`titleChars?_eq`). Reading takes what follows the opening on this line and nothing else
(`title?_ofText`), if no line of the text is indented.

The two agree exactly if the opening is followed by a title, or by nothing but blank lines to the
end of the text (`title_eq_title_ofText_iff`). A blank title with a line below it is where they
differ: the page is named after that line (`title_ne_title_ofText_below`).
-/

namespace Wireframe

/-! ### Filled lines -/

namespace Text

/-- The trimmed form of a line that is not blank. -/
def filled? (line : List Char) : Option (List Char) := (some (trim line)).filter (!·.isEmpty)

theorem filled?_eq_none_iff {line : List Char} : filled? line = none ↔ allBlank line = true := by
  rw [← trim_eq_nil_iff, filled?, Option.filter_eq_none_iff]
  simp

theorem filled?_of_not_allBlank {line : List Char} (h : allBlank line = false) :
    filled? line = some (trim line) := by
  have hne : trim line ≠ [] := fun hnil => by simp [trim_eq_nil_iff.mp hnil] at h
  simp [filled?, hne]

theorem filled?_dropReturn (row : List Char) : filled? (dropReturn row) = filled? row := by
  rw [filled?, trim_dropReturn, filled?]

/-- The first filled line is the first filled row. -/
theorem findSome?_filled?_linesOfRows (rows : List (List Char)) :
    (linesOfRows rows).findSome? filled? = rows.findSome? filled? := by
  fun_induction linesOfRows rows with
  | case1 => rfl
  | case2 last hlast =>
    rw [List.isEmpty_iff.mp hlast]
    rfl
  | case3 last _ => rfl
  | case4 row rest _ ih => rw [List.findSome?_cons, List.findSome?_cons, filled?_dropReturn, ih]

end Text

namespace Naming

/-- What follows the title opening on the first line that starts with it, and the lines below. -/
def titleBlock? : List (List Char) → Option (List Char × List (List Char))
  | [] => none
  | line :: below =>
    match Metadata.afterOpening? titleOpening line with
    | some value => some (value, below)
    | none => titleBlock? below

/-- The first filled line from a title opening on. -/
def titleBelow? (block : List Char × List (List Char)) : Option (List Char) :=
  (block.1 :: block.2).findSome? Text.filled?

/-! ### Finding the opening -/

theorem newline_not_mem_titleOpening : '\n' ∉ titleOpening := by decide

/-- A line behind whose opening nothing is found does not begin with it. -/
theorem not_prefix_of_afterOpening? {opening line : List Char}
    (h : Metadata.afterOpening? opening line = none) : ¬ opening <+: line := by
  rintro ⟨value, hvalue⟩
  rw [Metadata.afterOpening?_eq_some_iff.mpr hvalue.symm] at h
  exact Option.some_ne_none _ h

/-- What comes behind the opening of a title is found. -/
theorem afterTitle?_opening (value : List Char) :
    afterTitle? true (titleOpening ++ value) = some value := by
  have hstart : titleOpening.isPrefixOf (titleOpening ++ value) = true :=
    List.isPrefixOf_iff_prefix.mpr (List.prefix_append _ _)
  cases hline : titleOpening ++ value with
  | nil => exact absurd hline (List.append_ne_nil_of_left_ne_nil (by decide) _)
  | cons c cs =>
    rw [afterTitle?, ← hline, hstart, List.drop_left]
    rfl

/-- In the middle of a line, the search passes over the rest of it. -/
theorem afterTitle?_false_append {line : List Char} (h : '\n' ∉ line) (cs : List Char) :
    afterTitle? false (line ++ cs) = afterTitle? false cs := by
  induction line with
  | nil => rfl
  | cons c line ih =>
    rw [List.mem_cons, not_or] at h
    have hc : (c == '\n') = false := beq_eq_false_iff_ne.mpr (Ne.symm h.1)
    rw [List.cons_append, afterTitle?, hc, ih h.2]
    rfl

/-- A line that does not start with the opening is like the middle of a line. -/
theorem afterTitle?_of_no_opening {cs : List Char} (h : ¬ titleOpening <+: cs) :
    afterTitle? true cs = afterTitle? false cs := by
  have hopening : titleOpening.isPrefixOf cs = false := by
    rwa [← Bool.not_eq_true, List.isPrefixOf_iff_prefix]
  cases cs with
  | nil => rfl
  | cons c cs =>
    rw [afterTitle?, hopening]
    rfl

/-- What follows the first opening in a text is what follows it on its row, and the rows below. -/
theorem afterTitle?_joinWith {rows : List (List Char)} (h : ∀ row ∈ rows, '\n' ∉ row) :
    afterTitle? true (Text.joinWith '\n' rows) =
      (titleBlock? rows).map fun block => Text.joinWith '\n' (block.1 :: block.2) := by
  induction rows with
  | nil => rfl
  | cons row rest ih =>
    obtain ⟨hrow, hrest⟩ := List.forall_mem_cons.mp h
    rw [titleBlock?]
    cases hvalue : Metadata.afterOpening? titleOpening row with
    | some value =>
      rw [Metadata.afterOpening?_eq_some_iff.mp hvalue]
      cases rest with
      | nil => exact afterTitle?_opening value
      | cons next rest =>
        rw [Text.joinWith_cons (List.cons_ne_nil _ _), List.append_assoc, afterTitle?_opening]
        rfl
    | none =>
      -- the search goes through the row as if in the middle of a line, up to the line feed behind
      -- it, and starts anew on the next row
      have hno := not_prefix_of_afterOpening? hvalue
      cases rest with
      | nil =>
        have hlast := afterTitle?_false_append hrow []
        rw [List.append_nil] at hlast
        exact (afterTitle?_of_no_opening hno).trans hlast
      | cons next rest =>
        rw [← Text.prefix_append_cons_iff newline_not_mem_titleOpening row
          (Text.joinWith '\n' (next :: rest))] at hno
        rw [Text.joinWith_cons (List.cons_ne_nil _ _), afterTitle?_of_no_opening hno,
          afterTitle?_false_append hrow, afterTitle?]
        exact ih hrest

/-- The block of a title consists of rows of the page. -/
theorem mem_of_titleBlock? {rows : List (List Char)} {block : List Char × List (List Char)}
    (h : titleBlock? rows = some block) (hrows : ∀ row ∈ rows, '\n' ∉ row) :
    ∀ row ∈ block.1 :: block.2, '\n' ∉ row := by
  induction rows with
  | nil => exact absurd h.symm (Option.some_ne_none _)
  | cons row rest ih =>
    obtain ⟨hrow, hrest⟩ := List.forall_mem_cons.mp hrows
    rw [titleBlock?] at h
    cases hvalue : Metadata.afterOpening? titleOpening row with
    | some value =>
      rw [hvalue] at h
      rw [← Option.some_inj.mp h, List.forall_mem_cons]
      refine ⟨fun hmem => hrow ?_, hrest⟩
      rw [Metadata.afterOpening?_eq_some_iff.mp hvalue]
      exact List.mem_append_right _ hmem
    | none =>
      rw [hvalue] at h
      exact ih h hrest

/-! ### The title in a text -/

/-- The rest of the line on which the first character stands that is not blank. -/
def titleIn? (cs : List Char) : Option (List Char) :=
  match Text.trimStart cs with
  | [] => none
  | title => some (Text.trim (title.takeWhile (· != '\n')))

/-- A title is looked for behind its opening. -/
theorem titleChars?_eq_bind (text : List Char) :
    titleChars? text = (afterTitle? true text).bind titleIn? := by
  rw [titleChars?]
  cases afterTitle? true text with
  | none => rfl
  | some cs =>
    rw [Option.map_some, Option.bind_some, titleIn?]
    cases Text.trimStart cs <;> rfl

theorem titleIn?_of_allBlank {line : List Char} (h : Text.allBlank line = true) (cs : List Char) :
    titleIn? (line ++ cs) = titleIn? cs := by
  rw [titleIn?, Text.trimStart_append_of_allBlank h, titleIn?]

/-- A line that is not blank holds the title, whatever is below it. -/
theorem titleIn?_append {line cs : List Char} (h : '\n' ∉ line)
    (hline : Text.allBlank line = false) (hcs : cs.takeWhile (· != '\n') = []) :
    titleIn? (line ++ cs) = some (Text.trim line) := by
  have hmem : ∀ c ∈ Text.trimStart line, (c != '\n') = true := fun c hc =>
    bne_iff_ne.mpr fun heq => h (heq ▸ (List.dropWhile_sublist _).subset hc)
  have hne : Text.trimStart line ≠ [] := fun hnil => by
    simp [Text.trimStart_eq_nil_iff.mp hnil] at hline
  rw [titleIn?, Text.trimStart_append hline]
  split
  · next heq => exact absurd (List.append_eq_nil_iff.mp heq).1 hne
  · rw [List.takeWhile_append_of_pos hmem, hcs, List.append_nil, Text.trim_trimStart]

/-- The title is the first filled row. -/
theorem titleIn?_joinWith {rows : List (List Char)} (h : ∀ row ∈ rows, '\n' ∉ row) :
    titleIn? (Text.joinWith '\n' rows) = rows.findSome? Text.filled? := by
  induction rows with
  | nil => rfl
  | cons row rest ih =>
    obtain ⟨hrow, hrest⟩ := List.forall_mem_cons.mp h
    rw [List.findSome?_cons]
    cases hblank : Text.allBlank row with
    | true =>
      -- the line feed behind a blank row is blank itself, so the search runs on into the next row
      rw [Text.filled?_eq_none_iff.mpr hblank, ← ih hrest]
      cases rest with
      | nil =>
        have := titleIn?_of_allBlank hblank []
        rwa [List.append_nil] at this
      | cons next rest =>
        rw [Text.joinWith_cons (List.cons_ne_nil _ _), titleIn?_of_allBlank hblank]
        exact titleIn?_of_allBlank (show Text.allBlank ['\n'] = true by decide) _
    | false =>
      rw [Text.filled?_of_not_allBlank hblank]
      cases rest with
      | nil =>
        have := titleIn?_append hrow hblank List.takeWhile_nil
        rwa [List.append_nil] at this
      | cons next rest =>
        rw [Text.joinWith_cons (List.cons_ne_nil _ _)]
        exact titleIn?_append hrow hblank (by simp)

/-- A return at the end of a row stays behind the opening. -/
theorem afterOpening?_dropReturn {opening : List Char} (h : '\r' ∉ opening) (row : List Char) :
    Metadata.afterOpening? opening (Text.dropReturn row) =
      (Metadata.afterOpening? opening row).map Text.dropReturn := by
  cases hvalue : Metadata.afterOpening? opening row with
  | some value =>
    rw [Metadata.afterOpening?_eq_some_iff.mp hvalue, Text.dropReturn_append h]
    exact Metadata.afterOpening?_eq_some_iff.mpr rfl
  | none =>
    cases hline : Metadata.afterOpening? opening (Text.dropReturn row) with
    | none => rfl
    | some value =>
      have hstart : opening <+: Text.dropReturn row :=
        ⟨value, (Metadata.afterOpening?_eq_some_iff.mp hline).symm⟩
      exact absurd (hstart.trans (Text.dropReturn_prefix row)) (not_prefix_of_afterOpening? hvalue)

/-- The title among the lines is the title among the rows. -/
theorem titleBelow?_linesOfRows (rows : List (List Char)) :
    (titleBlock? (Text.linesOfRows rows)).bind titleBelow? =
      (titleBlock? rows).bind titleBelow? := by
  fun_induction Text.linesOfRows rows with
  | case1 => rfl
  | case2 last hlast =>
    rw [List.isEmpty_iff.mp hlast]
    rfl
  | case3 last _ => rfl
  | case4 row rest _ ih =>
    rw [titleBlock?, titleBlock?, afterOpening?_dropReturn (by decide)]
    cases Metadata.afterOpening? titleOpening row with
    | none => exact ih
    | some value =>
      simp only [Option.map_some, Option.bind_some, titleBelow?, List.findSome?_cons,
        Text.filled?_dropReturn, Text.findSome?_filled?_linesOfRows]

/-- **What a page is named after**: the first filled line from the first title opening on. -/
theorem titleChars?_eq (text : List Char) :
    titleChars? text = (titleBlock? (Text.lines text)).bind titleBelow? := by
  have hrows : ∀ row ∈ Text.rows text, '\n' ∉ row := fun _ => Text.not_mem_of_mem_splitOn
  have hjoin : Text.joinWith '\n' (Text.rows text) = text := Text.joinWith_splitOn _ _
  rw [Text.lines, titleBelow?_linesOfRows, titleChars?_eq_bind]
  conv_lhs => rw [← hjoin]
  rw [afterTitle?_joinWith hrows]
  cases hblock : titleBlock? (Text.rows text) with
  | none => rfl
  | some block => exact titleIn?_joinWith (mem_of_titleBlock? hblock hrows)

/-! ### The title of a document -/

/-- Whether a line starts with a blank. -/
def isIndented (line : List Char) : Bool := line.head?.any Text.isBlank

/-- Whether no line of a text is indented. -/
def Unindented (text : String) : Prop :=
  ∀ line ∈ Text.lines text.toList, isIndented line = false

/-- A line that is not indented is trimmed at its end only. -/
theorem trim_eq_trimEnd {line : List Char} (h : isIndented line = false) :
    Text.trim line = Text.trimEnd line := by
  cases line with
  | nil => rfl
  | cons c cs =>
    have hc : ¬ Text.isBlank c = true := Bool.eq_false_iff.mp h
    rw [Text.trim, Text.trimStart, List.dropWhile_cons_of_neg hc]

/-- A line gives the title if it begins with its opening. -/
theorem entry?_title_iff {line value : List Char} :
    Metadata.entry? line = some (.title, value) ↔
      ∃ rest, line = titleOpening ++ rest ∧ value = Text.trim rest := by
  rw [Metadata.entry?_eq_some_iff]
  constructor
  · rintro ⟨opening, rest, hmem, hline, hvalue⟩
    have hopening : opening = "Title:" := by simpa [Metadata.Key.openings] using hmem
    exact ⟨rest, by rw [hline, hopening]; rfl, hvalue⟩
  · rintro ⟨rest, hline, hvalue⟩
    exact ⟨"Title:", rest, by simp [Metadata.Key.openings], hline, hvalue⟩

/-- A line that starts with the title opening gives the title that follows it. -/
theorem keyValue?_of_afterOpening? {line value : List Char}
    (h : Metadata.afterOpening? titleOpening line = some value) :
    Line.keyValue? line = some (.title, String.ofList (Text.trim value)) := by
  have hline := Metadata.afterOpening?_eq_some_iff.mp h
  have htrim : Text.trim line = titleOpening ++ Text.trimEnd value := by
    rw [hline, trim_eq_trimEnd rfl]
    exact Text.trimEnd_append "Title".toList (by decide) value
  rw [Line.keyValue?, htrim, entry?_title_iff.mpr ⟨_, rfl, rfl⟩, Text.trim_trimEnd]
  rfl

/-- A line that neither starts with the title opening nor is indented gives no title. -/
theorem keyValue?_ne_title {line : List Char} (h : Metadata.afterOpening? titleOpening line = none)
    (hline : isIndented line = false) (value : String) :
    Line.keyValue? line ≠ some (.title, value) := by
  intro hentry
  obtain ⟨⟨key, chars⟩, hfound, heq⟩ := Option.map_eq_some_iff.mp hentry
  obtain ⟨rfl, -⟩ := Prod.mk.inj heq
  obtain ⟨rest, hrest, -⟩ := entry?_title_iff.mp hfound
  -- blanks are taken off the end of the line only, so the line itself starts with the opening
  rw [trim_eq_trimEnd hline] at hrest
  obtain ⟨blanks, hblanks, -⟩ := Text.exists_trimEnd_append line
  refine not_prefix_of_afterOpening? h ⟨rest ++ blanks, ?_⟩
  rw [← List.append_assoc, ← hrest, ← hblanks]

/-- The metadata have the title of the first line that gives one. -/
theorem lookup_title {lines : List (List Char)}
    (h : ∀ line ∈ lines, isIndented line = false) :
    (Line.entries lines).lookup .title =
      (titleBlock? lines).map fun block => String.ofList (Text.trim block.1) := by
  induction lines with
  | nil => rfl
  | cons line below ih =>
    obtain ⟨hline, hbelow⟩ := List.forall_mem_cons.mp h
    rw [titleBlock?, Line.entries, List.filterMap_cons, ← Line.entries]
    cases hvalue : Metadata.afterOpening? titleOpening line with
    | some value =>
      rw [keyValue?_of_afterOpening? hvalue]
      rfl
    | none =>
      cases hentry : Line.keyValue? line with
      | none => exact ih hbelow
      | some entry =>
        have hkey : (Metadata.Key.title == entry.1) = false := beq_eq_false_iff_ne.mpr fun heq =>
          keyValue?_ne_title hvalue hline entry.2 (by rw [hentry, heq])
        rw [List.lookup_cons, hkey]
        exact ih hbelow

/-- An empty value is none. -/
theorem nonempty?_ofList (line : List Char) :
    Metadata.nonempty? (some (String.ofList (Text.trim line))) =
      (Text.filled? line).map String.ofList := by
  cases hblank : Text.allBlank line with
  | true =>
    rw [Text.filled?_eq_none_iff.mpr hblank, Text.trim_eq_nil_iff.mpr hblank]
    rfl
  | false =>
    have hne : Text.trim line ≠ [] := fun hnil => by simp [Text.trim_eq_nil_iff.mp hnil] at hblank
    rw [Text.filled?_of_not_allBlank hblank]
    simp [Metadata.nonempty?, hne]

/-- **What a document is called**: what follows the first title opening on its line. -/
theorem title?_ofText {text : String} (h : Unindented text) :
    (Document.ofText text).metadata.title? =
      ((titleBlock? (Text.lines text.toList)).bind fun block => Text.filled? block.1).map
        String.ofList := by
  rw [Metadata.title?, Document.get?_ofText, lookup_title h]
  cases titleBlock? (Text.lines text.toList) with
  | none => rfl
  | some block => exact nonempty?_ofList block.1

/-- The title is that of its own line exactly if this is not blank, or no later line of the block is
filled either. -/
theorem titleBelow?_eq_filled?_iff {block : List Char × List (List Char)} :
    titleBelow? block = Text.filled? block.1 ↔
      (Text.allBlank block.1 = true → ∀ line ∈ block.2, Text.allBlank line = true) := by
  rw [titleBelow?, List.findSome?_cons]
  cases hblank : Text.allBlank block.1 with
  | true =>
    rw [Text.filled?_eq_none_iff.mpr hblank]
    simp [List.findSome?_eq_none_iff, Text.filled?_eq_none_iff]
  | false =>
    rw [Text.filled?_of_not_allBlank hblank]
    simp

/-- **A page is named after its document's title exactly if** what follows the first title opening
is a title, or all lines below it are blank as well. -/
theorem title_eq_title_ofText_iff {text : String} (h : Unindented text) :
    title? text = (Document.ofText text).metadata.title? ↔
      ∀ value below, titleBlock? (Text.lines text.toList) = some (value, below) →
        Text.allBlank value = true → ∀ line ∈ below, Text.allBlank line = true := by
  have hinj : Function.Injective (Option.map String.ofList) :=
    Option.map_injective fun _ _ => String.ofList_injective
  rw [title?, titleChars?_eq, title?_ofText h, hinj.eq_iff]
  cases titleBlock? (Text.lines text.toList) with
  | none => simp
  | some block =>
    rw [Option.bind_some, Option.bind_some, titleBelow?_eq_filled?_iff]
    constructor
    · rintro hbelow value below heq
      rw [Option.some_inj.mp heq] at hbelow
      exact hbelow
    · exact fun hbelow => hbelow block.1 block.2 rfl

/-- A title below a heading, with a second title and more lines below it. -/
theorem title_eq_title_ofText_signIn :
    Unindented "# Sign in\nTitle: Sign in \n\nTitle:\nEmail: [__]" ∧
      title? "# Sign in\nTitle: Sign in \n\nTitle:\nEmail: [__]" =
        (Document.ofText "# Sign in\nTitle: Sign in \n\nTitle:\nEmail: [__]").metadata.title? := by
  have hunindented : Unindented "# Sign in\nTitle: Sign in \n\nTitle:\nEmail: [__]" := by
    unfold Unindented
    decide
  refine ⟨hunindented, (title_eq_title_ofText_iff hunindented).mpr ?_⟩
  rintro value below heq hblank
  have hvalue : value = " Sign in ".toList := congrArg (·.1) (Option.some_inj.mp heq.symm)
  rw [hvalue] at hblank
  exact absurd hblank (by decide)

/-- A blank title with a heading below it: the page is named after the heading. -/
theorem title_ne_title_ofText_below :
    Unindented "Title:\n# Home" ∧
      title? "Title:\n# Home" ≠ (Document.ofText "Title:\n# Home").metadata.title? := by
  unfold Unindented
  decide

end Naming

end Wireframe
