import Mathlib.Data.List.Infix
import Wireframe.Text.Blank
import Wireframe.Text.Case
import Wireframe.Text.Search

/-!
# Blanks around a text

Blanks are their own lower-case forms (`lowerChar_of_isBlank`), and they add nothing to what occurs
in a text, as long as what is looked for neither begins nor ends with a blank. So it makes no
difference whether a line is trimmed before it is lower-cased and searched (`occurs_trim`).
-/

namespace Wireframe.Text

variable {cs blanks part : List Char}

/-- The code points of the blanks. -/
def blankCodes : List ℕ :=
  List.range' 0x09 5 ++ [0x20, 0x85, 0xA0, 0x1680] ++ List.range' 0x2000 11 ++
    [0x2028, 0x2029, 0x202F, 0x205F, 0x3000]

/-- The blanks by their numbers. -/
theorem toNat_mem_blankCodes {c : Char} (h : isBlank c = true) : c.toNat ∈ blankCodes := by
  simp only [isBlank, Bool.or_eq_true, Bool.and_eq_true, decide_eq_true_eq, beq_iff_eq] at h
  simp only [blankCodes, List.mem_append, List.mem_range'_1, List.mem_cons, List.not_mem_nil]
  omega

/-- A blank has no lower case. -/
theorem lowerChar_of_isBlank {c : Char} (h : isBlank c = true) : lowerChar c = [c] := by
  have hcodes : ∀ n ∈ blankCodes, lowerChar (Char.ofNat n) = [Char.ofNat n] := by decide +kernel
  have hc := hcodes c.toNat (toNat_mem_blankCodes h)
  rwa [Char.ofNat_toNat] at hc

/-- Lower-casing leaves blanks alone. -/
theorem lowerCase_of_allBlank (h : allBlank blanks = true) : lowerCase blanks = blanks := by
  induction blanks with
  | nil => rfl
  | cons b blanks ih =>
    rw [allBlank, List.all_cons, Bool.and_eq_true] at h
    rw [lowerCase_cons, lowerChar_of_isBlank h.1, ih h.2, List.singleton_append]

/-- In blanks there is nothing else. -/
theorem not_mem_of_allBlank {c : Char} (hc : isBlank c = false) (h : allBlank cs = true) :
    c ∉ cs := by
  intro hmem
  rw [List.all_eq_true.mp h c hmem] at hc
  exact Bool.noConfusion hc

/-! ### Searching between blanks -/

/-- What begins with something else does not begin in the blanks in front. -/
theorem occurs_of_allBlank_append (h : allBlank blanks = true) {c : Char}
    (hc : isBlank c = false) : occurs (c :: part) (blanks ++ cs) = occurs (c :: part) cs := by
  induction blanks with
  | nil => rfl
  | cons b blanks ih =>
    rw [allBlank, List.all_cons, Bool.and_eq_true] at h
    have hne : (c == b) = false := beq_false_of_ne fun heq => by
      rw [heq, h.1] at hc
      exact Bool.noConfusion hc
    rw [List.cons_append, occurs, somewhere, List.isPrefixOf, hne, Bool.false_and, Bool.false_or]
    exact ih h.2

/-- What ends in something else does not end in the blanks behind. -/
theorem occurs_append_of_allBlank (h : allBlank blanks = true) {c : Char}
    (hc : isBlank c = false) : occurs (part ++ [c]) (cs ++ blanks) = occurs (part ++ [c]) cs := by
  rw [Bool.eq_iff_iff, occurs_eq_true_iff, occurs_eq_true_iff]
  constructor
  · rintro ⟨before, after, heq⟩
    rcases List.append_eq_append_iff.mp heq with ⟨tail, hpart, htail⟩ | ⟨tail, rfl, -⟩
    · -- the part ends inside the blanks, so it ends right in front of them
      rcases List.eq_nil_or_concat tail with rfl | ⟨init, last, rfl⟩
      · exact ⟨before, [], by simpa using hpart.symm⟩
      · rw [List.concat_eq_append, ← List.append_assoc, ← List.append_assoc] at hpart
        obtain ⟨-, hlast⟩ := List.append_inj' hpart rfl
        obtain rfl := List.singleton_inj.mp hlast
        exact absurd (by simp [htail]) (not_mem_of_allBlank hc h)
    · exact ⟨before, tail, rfl⟩
  · rintro ⟨before, after, rfl⟩
    exact ⟨before, after ++ blanks, by simp⟩

/-- A line is its trimmed form with blanks in front of it and behind it. -/
theorem exists_append_trim (cs : List Char) : ∃ before after,
    cs = before ++ (trim cs ++ after) ∧ allBlank before = true ∧ allBlank after = true := by
  obtain ⟨after, hafter, hblank⟩ := exists_trimEnd_append (trimStart cs)
  refine ⟨cs.takeWhile isBlank, after, ?_, List.all_takeWhile, hblank⟩
  rw [trim, ← hafter, trimStart, List.takeWhile_append_dropWhile]

theorem trim_append_of_allBlank_left (h : allBlank blanks = true) (cs : List Char) :
    trim (blanks ++ cs) = trim cs := by
  rw [trim, trimStart_append_of_allBlank h, trim]

/-- A trimmed line does not end in blanks. -/
theorem eq_nil_of_trim_eq {as : List Char} (h : trim cs = as ++ blanks)
    (hblanks : allBlank blanks = true) : blanks = [] := by
  have hfixed : trimEnd (as ++ blanks) = as ++ blanks := by
    rw [← h, trim, trimEnd_trimEnd]
  rw [trimEnd_append_of_allBlank as hblanks] at hfixed
  obtain ⟨more, has, -⟩ := exists_trimEnd_append as
  have hlength := congrArg List.length hfixed
  have hshorter := congrArg List.length has
  rw [List.length_append] at hlength hshorter
  exact List.eq_nil_of_length_eq_zero (by omega)

/-- A text that is not blank has a first character that is not. -/
theorem exists_not_blank (h : allBlank cs = false) :
    ∃ run c rest, cs = run ++ c :: rest ∧ isBlank c = false := by
  obtain ⟨c, hmem, hc⟩ := List.all_eq_false.mp h
  obtain ⟨run, rest, rfl⟩ := List.append_of_mem hmem
  exact ⟨run, c, rest, rfl, by simpa using hc⟩

/-! ### Tight texts -/

/-- Whether a text is tight: it is not empty, and no blank stands at either of its ends. -/
structure Tight (cs : List Char) : Prop where
  ne_nil : cs ≠ []
  head : ∀ c ∈ cs.head?, isBlank c = false
  last : ∀ c ∈ cs.getLast?, isBlank c = false

theorem trim_infix (cs : List Char) : trim cs <:+: cs := by
  obtain ⟨before, after, heq, -, -⟩ := exists_append_trim cs
  exact ⟨before, after, by rw [List.append_assoc, ← heq]⟩

/-- What is left of a text once it is trimmed is tight. -/
theorem tight_trim (h : trim cs ≠ []) : Tight (trim cs) where
  ne_nil := h
  head c hc := by
    -- the first character stops the trimming at the front, and is not taken off at the back
    obtain ⟨blanks, heq, -⟩ := exists_trimEnd_append (trimStart cs)
    have hstart := List.head?_dropWhile_not isBlank cs
    rw [← trimStart, heq, ← trim, List.head?_append, Option.mem_def.mp hc] at hstart
    exact hstart
  last c hc := by
    obtain ⟨init, hinit⟩ := List.getLast?_eq_some_iff.mp hc
    rw [← Bool.not_eq_true]
    intro hblank
    have hblanks : allBlank [c] = true := by simp [allBlank, hblank]
    exact List.cons_ne_nil c [] (eq_nil_of_trim_eq hinit hblanks)

variable {line before after : List Char}

/-- A part at the end of a tight text is tight as well, if it does not begin with a blank. -/
theorem Tight.of_suffix (h : Tight line) (hsuffix : cs <:+ line) (hne : cs ≠ [])
    (hhead : ∀ c ∈ cs.head?, isBlank c = false) : Tight cs where
  ne_nil := hne
  head := hhead
  last c hc := h.last c (by
    obtain ⟨before, rfl⟩ := hsuffix
    rw [List.getLast?_append, Option.mem_def.mp hc]
    rfl)

/-- Trimming does not touch a tight text that a line begins with. -/
theorem Tight.trim_append (h : Tight part) (cs : List Char) :
    trim (part ++ cs) = part ++ trimEnd cs := by
  have hstart : trimStart (part ++ cs) = part ++ cs := by
    obtain ⟨c, rest, rfl⟩ := List.exists_cons_of_ne_nil h.ne_nil
    exact List.dropWhile_cons_of_neg (by simp [h.head c rfl])
  obtain ⟨init, last, rfl⟩ := (List.eq_nil_or_concat' part).resolve_left h.ne_nil
  have hend := trimEnd_append init (h.last last (by simp)) cs
  rw [trim, hstart, List.append_assoc, List.append_assoc]
  exact hend

/-- Something stands behind each blank of a tight text. -/
theorem Tight.ne_nil_of_blank {b : Char} (h : Tight (before ++ b :: after))
    (hb : isBlank b = true) : after ≠ [] := by
  rintro rfl
  have hlast := h.last b (by simp)
  rw [hb] at hlast
  exact Bool.noConfusion hlast

/-! ### Trimming and searching -/

/-- Trimming a line does not change whether something without blanks at its ends occurs in it, in
whatever case that is written. -/
theorem occurs_trim {first last : Char} {middle : List Char} (hfirst : isBlank first = false)
    (hlast : isBlank last = false) :
    occurs (first :: middle ++ [last]) (lowerCase (trim cs)) =
      occurs (first :: middle ++ [last]) (lowerCase cs) := by
  obtain ⟨before, after, heq, hbefore, hafter⟩ := exists_append_trim cs
  generalize trim cs = trimmed at heq ⊢
  rw [heq, lowerCase_append, lowerCase_append, lowerCase_of_allBlank hbefore,
    lowerCase_of_allBlank hafter, List.cons_append, occurs_of_allBlank_append hbefore hfirst,
    ← List.cons_append, occurs_append_of_allBlank hafter hlast]

end Wireframe.Text
