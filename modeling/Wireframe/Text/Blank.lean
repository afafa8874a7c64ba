/-!
# Blank characters

A character is *blank* when Unicode gives it the property `White_Space`. Trimming a line takes
blanks off its ends and nothing else: `trim_eq_nil_iff` says that only an all-blank line trims to
nothing.
-/

namespace Wireframe.Text

/-- The characters with the Unicode property `White_Space`. -/
def isBlank (c : Char) : Bool :=
  let n := c.toNat
  (0x09 ≤ n && n ≤ 0x0D) || n == 0x20 || n == 0x85 || n == 0xA0 || n == 0x1680 ||
    (0x2000 ≤ n && n ≤ 0x200A) || n == 0x2028 || n == 0x2029 || n == 0x202F || n == 0x205F ||
    n == 0x3000

/-- A line all of whose characters are blank. -/
def allBlank (cs : List Char) : Bool := cs.all isBlank

/-- Takes the blanks off the front. -/
def trimStart (cs : List Char) : List Char := cs.dropWhile isBlank

/-- Takes the blanks off the back. -/
def trimEnd : List Char → List Char
  | [] => []
  | c :: cs =>
    match trimEnd cs with
    | [] => if isBlank c then [] else [c]
    | kept => c :: kept

/-- Takes the blanks off both ends. -/
def trim (cs : List Char) : List Char := trimEnd (trimStart cs)

/-! ### What trimming keeps -/

theorem trimEnd_eq_nil_iff {cs : List Char} : trimEnd cs = [] ↔ allBlank cs = true := by
  induction cs with
  | nil => simp [trimEnd, allBlank]
  | cons c cs ih =>
    rw [allBlank, List.all_cons, ← allBlank, Bool.and_eq_true, ← ih, trimEnd]
    split
    · next h => by_cases hc : isBlank c <;> simp [hc, h]
    · next h => exact ⟨fun hc => by simp at hc, fun hc => absurd hc.2 h⟩

/-- Trimming the end keeps the front where something is left. -/
theorem trimEnd_cons {c : Char} {cs : List Char} (h : trimEnd cs ≠ []) :
    trimEnd (c :: cs) = c :: trimEnd cs := by
  rw [trimEnd]
  split
  · contradiction
  · rfl

/-- Trimming the end keeps a first character that is not blank. -/
theorem trimEnd_cons_of_not_blank {c : Char} {cs : List Char} (h : isBlank c = false) :
    trimEnd (c :: cs) = c :: trimEnd cs := by
  simp only [trimEnd]
  split
  · next hcs => simp [h, hcs]
  · rfl

/-- A line is its trimmed form followed by blanks. -/
theorem exists_trimEnd_append (cs : List Char) :
    ∃ bs, cs = trimEnd cs ++ bs ∧ allBlank bs = true := by
  induction cs with
  | nil => exact ⟨[], rfl, rfl⟩
  | cons c cs ih =>
    obtain ⟨bs, hcs, hbs⟩ := ih
    by_cases ht : trimEnd cs = []
    · by_cases hc : isBlank c
      · exact ⟨c :: cs, by simp [trimEnd, ht, hc],
          by simpa [allBlank, hc] using trimEnd_eq_nil_iff.1 ht⟩
      · exact ⟨cs, by simp [trimEnd, ht, hc], trimEnd_eq_nil_iff.1 ht⟩
    · refine ⟨bs, ?_, hbs⟩
      rw [trimEnd_cons ht, List.cons_append, ← hcs]

/-- Blanks behind a text are trimmed away. -/
theorem trimEnd_append_of_allBlank (cs : List Char) {bs : List Char} (h : allBlank bs = true) :
    trimEnd (cs ++ bs) = trimEnd cs := by
  induction cs with
  | nil => simpa [trimEnd] using trimEnd_eq_nil_iff.2 h
  | cons c cs ih => simp only [List.cons_append, trimEnd, ih]

/-- Trimming the end twice does no more than once. -/
theorem trimEnd_trimEnd (cs : List Char) : trimEnd (trimEnd cs) = trimEnd cs := by
  obtain ⟨bs, hcs, hbs⟩ := exists_trimEnd_append cs
  have h := trimEnd_append_of_allBlank (trimEnd cs) hbs
  rw [← hcs] at h
  exact h.symm

theorem trimStart_eq_nil_iff {cs : List Char} : trimStart cs = [] ↔ allBlank cs = true := by
  induction cs with
  | nil => simp [trimStart, allBlank]
  | cons c cs ih =>
    by_cases hc : isBlank c
    · rw [trimStart, List.dropWhile_cons_of_pos hc, allBlank, List.all_cons, hc, Bool.true_and]
      exact ih
    · simp [trimStart, hc, allBlank]

theorem trim_eq_nil_iff {cs : List Char} : trim cs = [] ↔ allBlank cs = true := by
  induction cs with
  | nil => simp [trim, trimStart, trimEnd, allBlank]
  | cons c cs ih =>
    by_cases hc : isBlank c
    · simpa [trim, trimStart, hc, allBlank] using ih
    · simp only [Bool.not_eq_true] at hc
      simp [trim, trimStart, hc, allBlank, trimEnd_cons_of_not_blank]

/-! ### Blanks around a line -/

theorem allBlank_append {as bs : List Char} :
    allBlank (as ++ bs) = true ↔ allBlank as = true ∧ allBlank bs = true := by
  rw [allBlank, List.all_append, Bool.and_eq_true]
  rfl

theorem trimStart_append_of_allBlank {as : List Char} (h : allBlank as = true) (bs : List Char) :
    trimStart (as ++ bs) = trimStart bs :=
  List.dropWhile_append_of_pos (List.all_eq_true.1 h)

/-- Blanks are taken off the first of two parts only, unless it is all blank. -/
theorem trimStart_append {as : List Char} (h : allBlank as = false) (bs : List Char) :
    trimStart (as ++ bs) = trimStart as ++ bs := by
  have hne : ¬ (as.dropWhile isBlank).isEmpty = true := fun hnil => by
    simp [trimStart_eq_nil_iff.1 (List.isEmpty_iff.1 hnil)] at h
  rw [trimStart, List.dropWhile_append, if_neg hne, trimStart]

/-- Trimming the front twice does no more than once. -/
theorem trimStart_trimStart (cs : List Char) : trimStart (trimStart cs) = trimStart cs := by
  induction cs with
  | nil => rfl
  | cons c cs ih =>
    by_cases hc : isBlank c
    · simpa [trimStart, hc] using ih
    · simp [trimStart, hc]

theorem trim_trimStart (cs : List Char) : trim (trimStart cs) = trim cs := by
  rw [trim, trimStart_trimStart, trim]

/-- Blanks behind a text do not change what is left of it trimmed. -/
theorem trim_append_of_allBlank (cs : List Char) {bs : List Char} (h : allBlank bs = true) :
    trim (cs ++ bs) = trim cs := by
  cases hcs : allBlank cs with
  | true => rw [trim_eq_nil_iff.2 hcs, trim_eq_nil_iff.2 (allBlank_append.2 ⟨hcs, h⟩)]
  | false => rw [trim, trimStart_append hcs, trimEnd_append_of_allBlank _ h, trim]

theorem trim_trimEnd (cs : List Char) : trim (trimEnd cs) = trim cs := by
  obtain ⟨bs, hcs, hbs⟩ := exists_trimEnd_append cs
  have h := trim_append_of_allBlank (trimEnd cs) hbs
  rw [← hcs] at h
  exact h.symm

/-- A part that does not end in a blank stops the trimming at the back. -/
theorem trimEnd_append (as : List Char) {c : Char} (h : isBlank c = false) (bs : List Char) :
    trimEnd (as ++ c :: bs) = as ++ c :: trimEnd bs := by
  induction as with
  | nil => exact trimEnd_cons_of_not_blank h
  | cons a as ih => rw [List.cons_append, trimEnd_cons (by simp [ih]), ih, List.cons_append]

end Wireframe.Text
