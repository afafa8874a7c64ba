import Wireframe.Text.CaseTable

/-!
# Lower case

Lower-casing goes character by character. Inside ASCII it turns `A`–`Z` into `a`–`z`; outside, the
table of runs decides, and `İ` (U+0130) becomes `i` followed by a combining dot. Greek `Σ` always
becomes `σ`, also at the end of a word: nothing in this library looks at Greek letters after
lower-casing, only at ASCII ones.
-/

namespace Wireframe.Text

/-- Whether a run of the table holds the code point `n`. -/
def inRun (n : Nat) (run : Nat × Nat × Nat × Int) : Bool :=
  run.1 ≤ n && n ≤ run.2.1 && (n - run.1) % run.2.2.1 == 0

/-- The lower-case form of one character. -/
def lowerChar (c : Char) : List Char :=
  if c.toNat < 128 then [c.toLower]
  else if c = 'İ' then ['i', '\u0307']
  else
    match lowerRuns.find? (inRun c.toNat) with
    | some run => [Char.ofNat (c.toNat + run.2.2.2).toNat]
    | none => [c]

/-- The lower-case form of a text. -/
def lowerCase (cs : List Char) : List Char := cs.flatMap lowerChar

@[simp]
theorem lowerCase_nil : lowerCase [] = [] := rfl

theorem lowerCase_cons (c : Char) (cs : List Char) :
    lowerCase (c :: cs) = lowerChar c ++ lowerCase cs := rfl

theorem lowerCase_append (as bs : List Char) :
    lowerCase (as ++ bs) = lowerCase as ++ lowerCase bs := by
  simp [lowerCase]

end Wireframe.Text
