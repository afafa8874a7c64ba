import Wireframe.Proofs.Decimal.Numerals
import Wireframe.Proofs.Naming.Slugs
import Wireframe.Proofs.Store.Pages
import Wireframe.Proofs.Text.Runs

/-!
# Names of saved pages

A page is saved under the slug of its title without hyphens at the ends, if the title has a letter
or digit for it, and under the day otherwise (`Naming.wellNamed`). Either way the name is that of a
file in a directory: no part of it leads anywhere else. So saving a page writes one file right in
the given directory, and changes nothing else but that the directory and what it lies in are made as
far as they are missing (`Command.saveOutcome_of_readBytes`).
-/

namespace Wireframe

namespace Text

variable {cs : List Char}

/-! ### Letters of lower-case forms -/

theorem isUpper_iff {c : Char} : c.isUpper = true ↔ 65 ≤ c.toNat ∧ c.toNat ≤ 90 :=
  decide_eq_true_iff

/-- No run of the table leads to a capital letter of ASCII. -/
theorem not_upper_of_mem_lowerRuns : ∀ run ∈ lowerRuns,
    90 < (run.1 : ℤ) + run.2.2.2 ∨ run.2.1 + run.2.2.2 < 65 := by decide +kernel

/-- A number stands for its character, or for none. -/
theorem toNat_ofNat_eq_or (n : ℕ) : (Char.ofNat n).toNat = n ∨ (Char.ofNat n).toNat = 0 := by
  by_cases h : n.isValidChar
  · exact .inl (congrArg Char.toNat (dif_pos h))
  · exact .inr (congrArg Char.toNat (dif_neg h))

/-- There are no capital letters of ASCII in lower-case forms. -/
theorem isUpper_of_mem_lowerChar {c d : Char} (h : d ∈ lowerChar c) : d.isUpper = false := by
  rw [lowerChar] at h
  split at h
  · next hascii =>
    have hcodes : ∀ n < 128, (Char.ofNat n).toLower.isUpper = false := by decide
    have hlower := hcodes c.toNat hascii
    rwa [Char.ofNat_toNat, ← List.mem_singleton.mp h] at hlower
  · next hascii =>
    split at h
    · have hdotted : ∀ d ∈ ['i', '\u0307'], d.isUpper = false :=
        List.forall_mem_cons.mpr ⟨rfl, List.forall_mem_singleton.mpr rfl⟩
      exact hdotted d h
    · split at h
      · next run hrun =>
        have hshift := not_upper_of_mem_lowerRuns run (List.mem_of_find?_eq_some hrun)
        have hin := List.find?_some hrun
        simp only [inRun, Bool.and_eq_true, decide_eq_true_eq] at hin
        rw [List.mem_singleton.mp h, ← Bool.not_eq_true, isUpper_iff]
        rcases toNat_ofNat_eq_or (c.toNat + run.2.2.2).toNat with hd | hd <;> omega
      · rw [List.mem_singleton.mp h, ← Bool.not_eq_true, isUpper_iff]
        omega

/-- Of a lower-case form, a slug keeps the letters and digits of ASCII. -/
theorem isAlphanum_of_mem_lowerChar {c d : Char} (h : d ∈ lowerChar c) :
    d.isAlphanum = isSlugChar d := by
  rw [isAlphanum_eq, isUpper_of_mem_lowerChar h, Bool.false_or]
  rfl

/-! ### Hyphens at the ends -/

theorem trimHyphens_eq (cs : List Char) :
    trimHyphens cs = (cs.dropWhile (· == '-')).rdropWhile (· == '-') := rfl

/-- What is taken off the ends of a text are hyphens. -/
theorem exists_eq_trimHyphens (cs : List Char) :
    ∃ front back, cs = front ++ trimHyphens cs ++ back ∧ ∀ c ∈ front ++ back, c = '-' := by
  refine ⟨cs.takeWhile (· == '-'), (cs.dropWhile (· == '-')).rtakeWhile (· == '-'), ?_, ?_⟩
  · rw [trimHyphens_eq, List.append_assoc, List.rdropWhile_append_rtakeWhile,
      List.takeWhile_append_dropWhile]
  · intro c hc
    rcases List.mem_append.mp hc with hc | hc
    · simpa using List.mem_takeWhile_imp hc
    · simpa using List.mem_rtakeWhile_imp hc

/-- What is trimmed does not begin with a hyphen. -/
theorem head?_trimHyphens_ne (cs : List Char) : (trimHyphens cs).head? ≠ some '-' := by
  intro hhead
  have hdrop := List.head?_dropWhile_not (· == '-') cs
  obtain ⟨rest, hrest⟩ := List.head?_eq_some_iff.mp hhead
  obtain ⟨back, hback⟩ := List.rdropWhile_prefix (· == '-') (cs.dropWhile (· == '-'))
  rw [← trimHyphens_eq, hrest, List.cons_append] at hback
  rw [← hback] at hdrop
  simp at hdrop

/-- What is trimmed does not end with a hyphen. -/
theorem getLast?_trimHyphens_ne (cs : List Char) : (trimHyphens cs).getLast? ≠ some '-' := by
  intro hlast
  obtain ⟨init, hinit⟩ := List.getLast?_eq_some_iff.mp hlast
  have hne : (cs.dropWhile (· == '-')).rdropWhile (· == '-') ≠ [] := by
    rw [← trimHyphens_eq, hinit]
    exact List.concat_ne_nil _ _
  have hkept := List.rdropWhile_last_not (· == '-') _ hne
  simp [← trimHyphens_eq, hinit] at hkept

/-- Nothing is left exactly where there were hyphens alone. -/
theorem trimHyphens_eq_nil_iff : trimHyphens cs = [] ↔ ∀ c ∈ cs, c = '-' := by
  obtain ⟨front, back, hcs, hhyphens⟩ := exists_eq_trimHyphens cs
  constructor
  · intro hnil
    rw [hcs, hnil, List.append_nil]
    exact hhyphens
  · intro hall
    by_contra hne
    obtain ⟨c, rest, hrest⟩ := List.exists_cons_of_ne_nil hne
    refine head?_trimHyphens_ne cs ?_
    rw [hrest, List.head?_cons, hall c]
    rw [hcs, hrest]
    simp

theorem eq_hyphen_iff_of_mem_slug {name : List Char} {c : Char} (h : c ∈ slug name) :
    c = '-' ↔ ¬ isSlugChar c = true :=
  ⟨fun heq hc => ne_hyphen_of_isSlugChar hc heq, (mem_hyphenate h).resolve_left⟩

/-- Nothing is left of a slug exactly if no character of its name has a letter or digit of ASCII in
its lower-case form. -/
theorem trimHyphens_slug_eq_nil_iff (name : List Char) : trimHyphens (slug name) = [] ↔
    ∀ c ∈ name, ∀ d ∈ lowerChar c, d.isAlphanum = false := by
  have hhyphens : (∀ c ∈ slug name, c = '-') ↔ (slug name).filter isSlugChar = [] := by
    rw [List.filter_eq_nil_iff]
    exact forall₂_congr fun c hc => eq_hyphen_iff_of_mem_slug hc
  have hletter {c d : Char} (hd : d ∈ lowerChar c) :
      ¬ isSlugChar d = true ↔ d.isAlphanum = false := by
    rw [← isAlphanum_of_mem_lowerChar hd, Bool.not_eq_true]
  rw [trimHyphens_eq_nil_iff, hhyphens, filter_slug (lowerForm_lowerCase name),
    List.filter_eq_nil_iff, lowerCase]
  constructor
  · exact fun h c hc d hd => (hletter hd).mp (h d (List.mem_flatMap_of_mem hc hd))
  · intro h d hd
    obtain ⟨c, hc, hd⟩ := List.mem_flatMap.mp hd
    exact (hletter hd).mpr (h c hc d hd)

end Text

namespace Naming

open Text

variable {text : String} {today : Day}

/-! ### Slugs that name files -/

/-- Whether a text can name a file: it is not empty, it is made of small letters, digits and
hyphens, and the hyphens stand alone and not at its ends. -/
structure IsFileSlug (name : List Char) : Prop where
  ne_nil : name ≠ []
  made : ∀ c ∈ name, isSlugChar c = true ∨ c = '-'
  first : name.head? ≠ some '-'
  last : name.getLast? ≠ some '-'
  not_double : ¬ ['-', '-'] <:+: name

/-- A slug is fit for a file name without the hyphens at its ends. -/
theorem isFileSlug_trimHyphens {name : List Char} (h : trimHyphens (Text.slug name) ≠ []) :
    IsFileSlug (trimHyphens (Text.slug name)) := by
  obtain ⟨front, back, hslug, -⟩ := exists_eq_trimHyphens (Text.slug name)
  have hpart : trimHyphens (Text.slug name) <:+: Text.slug name := ⟨front, back, hslug.symm⟩
  exact ⟨h, fun c hc => mem_hyphenate (hpart.subset hc), head?_trimHyphens_ne _,
    getLast?_trimHyphens_ne _, fun hdouble => not_double_hyphenate false _ (hdouble.trans hpart)⟩

/-- Whether a page has no title that a file can be named after: it has none at all, or one without a
character that has a letter or digit of ASCII in its lower-case form. -/
def Nameless (text : String) : Prop :=
  ∀ title, title? text = some title →
    ∀ c ∈ title.toList, ∀ d ∈ lowerChar c, d.isAlphanum = false

/-- A page has no slug exactly if it has no title with a letter or digit of ASCII. -/
theorem fileSlug?_eq_none_iff : fileSlug? text = none ↔ Nameless text := by
  rw [Nameless, fileSlug?]
  cases title? text with
  | none => simp
  | some title =>
    simp only [Option.some.injEq, forall_eq', ← trimHyphens_slug_eq_nil_iff]
    split <;> simp_all

/-- A slug comes from the title, and lost hyphens at its ends only. -/
theorem exists_of_fileSlug? {name : String} (h : fileSlug? text = some name) :
    ∃ title, title? text = some title ∧ IsFileSlug name.toList ∧
      ∃ front back, (slug title).toList = front ++ name.toList ++ back ∧
        ∀ c ∈ front ++ back, c = '-' := by
  rw [fileSlug?] at h
  split at h
  · cases h
  · next title htitle =>
    split at h
    · cases h
    · next hne =>
      cases h
      refine ⟨title, htitle, ?_⟩
      rw [slug, String.toList_ofList, String.toList_ofList]
      exact ⟨isFileSlug_trimHyphens hne, exists_eq_trimHyphens _⟩

/-! ### Names in a directory -/

/-- A padded number has digits only. -/
theorem isDigit_of_mem_padded {width n : ℕ} {c : Char} (h : c ∈ (padded width n).toList) :
    c.isDigit = true := by
  have hdigits : (toString n).toList = Numeral.digits n := Nat.toList_repr
  rw [padded, String.toList_append, toList_pushn, hdigits] at h
  rcases List.mem_append.mp h with hzero | hdigit
  · rw [(List.mem_replicate.mp hzero).2]
    rfl
  · exact Numeral.isDigit_of_mem_digits hdigit

/-- A day is written with digits, hyphens and perhaps a sign. -/
theorem mem_dayText {c : Char} (h : c ∈ today.text.toList) :
    c.isDigit = true ∨ c ∈ ['-', '+'] := by
  have hpadded {width n : ℕ} (hc : c ∈ (padded width n).toList) :
      c.isDigit = true ∨ c ∈ ['-', '+'] := .inl (isDigit_of_mem_padded hc)
  have hmark {mark : String} (hmark : mark = "-" ∨ mark = "+") (hc : c ∈ mark.toList) :
      c.isDigit = true ∨ c ∈ ['-', '+'] := by
    rcases hmark with rfl | rfl <;> exact .inr (by simp_all)
  have hyear (hc : c ∈ today.yearText.toList) : c.isDigit = true ∨ c ∈ ['-', '+'] := by
    simp only [Day.yearText] at hc
    split at hc
    · rw [String.toList_append, List.mem_append] at hc
      exact hc.elim (hmark (.inl rfl)) hpadded
    · split at hc
      · rw [String.toList_append, List.mem_append] at hc
        exact hc.elim (hmark (.inr rfl)) hpadded
      · exact hpadded hc
  simp only [Day.text, String.toList_append, List.mem_append] at h
  rcases h with (((hc | hc) | hc) | hc) | hc
  exacts [hyear hc, hmark (.inl rfl) hc, hpadded hc, hmark (.inl rfl) hc, hpadded hc]

/-- The name of a saved page is made of letters and digits of ASCII, hyphens, points and perhaps a
sign. -/
theorem mem_fileName {c : Char} (h : c ∈ (fileName text today).toList) :
    c.isAlphanum = true ∨ c ∈ ['-', '+', '.'] := by
  have hextension : ∀ c ∈ ".txt".toList, c.isAlphanum = true ∨ c ∈ ['-', '+', '.'] := by simp
  have hword : ∀ c ∈ "wireframe-".toList, c.isAlphanum = true ∨ c ∈ ['-', '+', '.'] := by simp
  rw [fileName] at h
  split at h
  · next name hname =>
    obtain ⟨-, -, hslug, -⟩ := exists_of_fileSlug? hname
    rw [String.toList_append, List.mem_append] at h
    refine h.elim (fun hc => ?_) (hextension c)
    exact (hslug.made c hc).imp isAlphanum_of_isSlugChar (by simp_all)
  · rw [String.toList_append, String.toList_append, List.mem_append, List.mem_append] at h
    refine h.elim (fun hc => hc.elim (hword c) fun hc => ?_) (hextension c)
    rcases mem_dayText hc with hdigit | hmark
    · exact .inl (by rw [isAlphanum_eq, hdigit, Bool.or_true])
    · exact .inr (List.mem_append_left ['.'] hmark)

theorem getLast?_fileName (text : String) (today : Day) :
    (fileName text today).toList.getLast? = some 't' := by
  rw [fileName]
  split <;> rw [String.toList_append] <;> exact List.getLast?_append_of_ne_nil _ (by decide)

/-- A page is saved under a name that a place in a directory can have. -/
theorem isName_fileName (text : String) (today : Day) : Path.IsName (fileName text today) := by
  have hlast := getLast?_fileName text today
  -- all that is no name but a slash or a null character does not end in a letter
  have hne {name : String} (hname : name.toList.getLast? ≠ some 't') :
      fileName text today ≠ name := by
    rintro rfl
    exact hname hlast
  refine ⟨?_, hne (by decide), fun hslash => absurd (mem_fileName hslash) (by decide),
    fun hnull => absurd (mem_fileName hnull) (by decide)⟩
  rw [Path.isIdle, Bool.or_eq_false_iff, beq_eq_false_iff_ne, beq_eq_false_iff_ne]
  exact ⟨hne (by decide), hne (by decide)⟩

end Naming

namespace Command

open FileSystem (bind_apply readText_apply makeDirectories_apply writeText_apply)

variable {fs : FileSystem} {input : Path} {text : String}

/-- What may come of saving a text in a directory under a name: how the command ends, and the tree
afterwards. -/
inductive SaveOutcome (fs : FileSystem) (dir : Path) (name text : String) :
    Outcome → FileSystem → Prop
  /-- The directory cannot be made, or the file cannot be written. The directory and what it lies in
  may be new, where nothing was, and nothing else has changed. -/
  | unsaved (outcome : Outcome) (fs' : FileSystem) (hexit : outcome.exitCode = 1)
      (hgrows : fs.Grows (dir.ancestors.map fs.place) fs') :
      SaveOutcome fs dir name text outcome fs'
  /-- The text is in a file right in the directory. The directory and what it lies in may be new,
  where nothing was, and nothing else has changed. -/
  | saved (outcome : Outcome) (fs' : FileSystem) (hexit : outcome.exitCode = 0)
      (hfile : fs'.entry? (fs.place dir ++ [name]) = some (.file text.toUTF8))
      (hworking : fs'.workingDirectory = fs.workingDirectory)
      (hother : ∀ place ≠ fs.place dir ++ [name], fs'.entry? place = fs.entry? place ∨
        place ∈ dir.ancestors.map fs.place ∧ fs.entry? place = none ∧
          fs'.entry? place = some .directory) :
      SaveOutcome fs dir name text outcome fs'

/-- A page whose text is known is saved right in the directory, or not at all. -/
theorem saveOutcome_of_readBytes (today : Naming.Day) (dir : Path)
    (hread : fs.readBytes input = .ok text.toUTF8) :
    SaveOutcome fs dir (Naming.fileName text today) text
      (perform today fs (.save input dir)).1 (perform today fs (.save input dir)).2 := by
  have hgrows : fs.Grows (dir.ancestors.map fs.place) (fs.makeDirectories dir).2 :=
    fs.makeChain_grows dir.ancestors
  rw [perform, run, runSave, withPage]
  simp only [bind_apply, readText_apply, hread, Except.bind, Disk.textOfBytes_toUTF8,
    makeDirectories_apply]
  rcases hmake : fs.makeDirectories dir with ⟨fault | ⟨⟩, grown⟩ <;> rw [hmake] at hgrows
  · exact .unsaved _ _ rfl hgrows
  · have hplace : grown.place (dir.join ⟨Naming.fileName text today⟩) =
        fs.place dir ++ [Naming.fileName text today] := by
      rw [hgrows.place_eq, FileSystem.place_join fs dir (Naming.isName_fileName text today)]
    simp only [bind_apply, writeText_apply]
    rcases grown.writeBytes_cases (dir.join ⟨Naming.fileName text today⟩) text.toUTF8 with
      ⟨fault, hwrite⟩ | ⟨hwrite, -⟩
    · rw [Naming.download, hwrite]
      exact .unsaved _ _ rfl hgrows
    · have hput : ∀ place, FileSystem.entry?
          (grown.put (fs.place dir ++ [Naming.fileName text today]) (.file text.toUTF8)) place =
            if place = fs.place dir ++ [Naming.fileName text today] then some (.file text.toUTF8)
            else grown.entry? place :=
        FileSystem.entry?_put (List.concat_ne_nil _ _) grown _
      rw [Naming.download, hwrite, hplace]
      refine .saved _ _ rfl ((hput _).trans (if_pos rfl)) hgrows.workingDirectory
        fun place hother => ?_
      have hkept := (hput place).trans (if_neg hother)
      exact hkept ▸ hgrows.entry place

end Command

/-! ### All pages -/

namespace Naming

/-- Whether a page is saved under a name that is safe to write to. -/
structure WellNamed (text : String) (today : Day) : Prop where
  /-- A title with a letter or digit gives the name: its slug without hyphens at the ends. -/
  titled : ¬ Nameless text → ∃ title name, title? text = some title ∧ IsFileSlug name ∧
    (∃ front back, (slug title).toList = front ++ name ++ back ∧ ∀ c ∈ front ++ back, c = '-') ∧
      fileName text today = String.ofList name ++ ".txt"
  /-- Otherwise the day does. -/
  dated : Nameless text → fileName text today = "wireframe-" ++ today.text ++ ".txt"
  /-- The name holds nothing that separates the names of a path. -/
  no_separator : '/' ∉ (fileName text today).toList ∧ '\\' ∉ (fileName text today).toList
  /-- The name is neither that of the directory itself nor that of the one above. -/
  not_directory : fileName text today ≠ "." ∧ fileName text today ≠ ".."
  /-- Saving the page writes to a file of this name right in the directory, and changes nothing
  else but that the directory is made. -/
  saved : ∀ fs input dir, fs.readBytes input = .ok text.toUTF8 →
    Command.SaveOutcome fs dir (fileName text today) text
      (Command.perform today fs (.save input dir)).1 (Command.perform today fs (.save input dir)).2

/-- **Every page is well named**, on every day. -/
theorem wellNamed (text : String) (today : Day) : WellNamed text today where
  titled hname := by
    rw [← fileSlug?_eq_none_iff, ← ne_eq, Option.ne_none_iff_exists'] at hname
    obtain ⟨name, hname⟩ := hname
    obtain ⟨title, htitle, hslug, hends⟩ := exists_of_fileSlug? hname
    refine ⟨title, name.toList, htitle, hslug, hends, ?_⟩
    rw [fileName, hname, String.ofList_toList]
  dated hnameless := by rw [fileName, fileSlug?_eq_none_iff.mpr hnameless]
  no_separator := ⟨(isName_fileName text today).no_slash,
    fun hmem => absurd (mem_fileName hmem) (by decide)⟩
  not_directory := by
    have hname := isName_fileName text today
    refine ⟨fun hhere => ?_, hname.not_up⟩
    have hidle := hname.not_idle
    rw [hhere] at hidle
    cases hidle
  saved fs input dir hread := Command.saveOutcome_of_readBytes today dir hread

/-- Capital letters of other alphabets can have small letters of ASCII, such as the Kelvin sign. -/
example : fileName "Title: ../\u212A!" ⟨2024, 3, 7⟩ = "k.txt" ∧
    fileName "Title: ../ΟΔΟΣ" ⟨2024, 3, 7⟩ = "wireframe-2024-03-07.txt" := by
  decide +kernel

end Naming

end Wireframe
