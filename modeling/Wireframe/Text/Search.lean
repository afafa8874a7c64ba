/-!
# Searching in a text

Two ways to look for something inside a list of characters: whether some position satisfies a test
on what follows it (`somewhere`), and all matches from left to right (`matches`), where each match
is taken at the first position that has one and the search goes on right after it.
-/

namespace Wireframe.Text

/-- Whether some tail of the list, the whole list and the empty one included, passes the test. -/
def somewhere (test : List Char → Bool) : List Char → Bool
  | [] => test []
  | c :: cs => test (c :: cs) || somewhere test cs

/-- Whether `part` occurs in the list. -/
def occurs (part : List Char) (cs : List Char) : Bool := somewhere part.isPrefixOf cs

/-- The matches of `find?` from left to right, after leaving out the next characters. A match at the
head of a list comes with the number of characters it takes up, at least one. -/
def matchesAfter {α : Type} (find? : List Char → Option (α × Nat)) : Nat → List Char → List α
  | _, [] => []
  | skip + 1, _ :: cs => matchesAfter find? skip cs
  | 0, c :: cs =>
    match find? (c :: cs) with
    | some (a, width) => a :: matchesAfter find? (width - 1) cs
    | none => matchesAfter find? 0 cs

/-- The matches of `find?` from left to right: each starts at the first position after the one
before at which there is a match, so no two overlap. -/
def allMatches {α : Type} (find? : List Char → Option (α × Nat)) (cs : List Char) : List α :=
  matchesAfter find? 0 cs

/-! ### What a search says -/

/-- A test holds somewhere if it holds of a rest of the text. -/
theorem somewhere_eq_true_iff {test : List Char → Bool} {cs : List Char} :
    somewhere test cs = true ↔ ∃ before after, cs = before ++ after ∧ test after = true := by
  induction cs with
  | nil =>
    rw [somewhere]
    constructor
    · exact fun h => ⟨[], [], rfl, h⟩
    · rintro ⟨before, after, hcs, h⟩
      rw [(List.append_eq_nil_iff.1 hcs.symm).2] at h
      exact h
  | cons c cs ih =>
    rw [somewhere, Bool.or_eq_true, ih]
    constructor
    · rintro (h | ⟨before, after, rfl, h⟩)
      · exact ⟨[], c :: cs, rfl, h⟩
      · exact ⟨c :: before, after, rfl, h⟩
    · rintro ⟨before, after, hcs, h⟩
      cases before with
      | nil => exact .inl (by rw [hcs]; exact h)
      | cons b before =>
        injection hcs with _ hcs
        exact .inr ⟨before, after, hcs, h⟩

/-- A part occurs if it stands somewhere in the text. -/
theorem occurs_eq_true_iff {part cs : List Char} :
    occurs part cs = true ↔ ∃ before after, cs = before ++ part ++ after := by
  simp only [occurs, somewhere_eq_true_iff, List.isPrefixOf_iff_prefix]
  constructor
  · rintro ⟨before, _, rfl, after, rfl⟩
    exact ⟨before, after, by simp⟩
  · rintro ⟨before, after, rfl⟩
    exact ⟨before, part ++ after, by simp, after, rfl⟩

theorem matchesAfter_eq_drop {α : Type} (find? : List Char → Option (α × Nat)) (skip : Nat)
    (cs : List Char) : matchesAfter find? skip cs = allMatches find? (cs.drop skip) := by
  induction skip generalizing cs with
  | zero => rfl
  | succ skip ih =>
    cases cs with
    | nil => rfl
    | cons c cs => exact ih cs

/-- A match is taken, and the search goes on behind it. -/
theorem allMatches_cons_some {α : Type} {find? : List Char → Option (α × Nat)} {a : α}
    {width : Nat} {c : Char} {cs : List Char} (h : find? (c :: cs) = some (a, width)) :
    allMatches find? (c :: cs) = a :: allMatches find? (cs.drop (width - 1)) := by
  rw [← matchesAfter_eq_drop, allMatches, matchesAfter, h]

/-- Where nothing matches the search goes on at the next character. -/
theorem allMatches_cons_none {α : Type} {find? : List Char → Option (α × Nat)} {c : Char}
    {cs : List Char} (h : find? (c :: cs) = none) :
    allMatches find? (c :: cs) = allMatches find? cs := by
  rw [allMatches, matchesAfter, h, allMatches]

end Wireframe.Text
