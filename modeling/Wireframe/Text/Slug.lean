import Wireframe.Text.Case

/-!
# Slugs

A slug is a name made fit for a file name or an identifier: its lower-case form, in which every run
of characters other than `a`–`z` and `0`–`9` has become one hyphen.
-/

namespace Wireframe.Text

/-- The characters that a slug keeps. -/
def isSlugChar (c : Char) : Bool := ('a' ≤ c && c ≤ 'z') || ('0' ≤ c && c ≤ '9')

/-- Every run of other characters becomes one hyphen. `inGap` says that the run at hand already has
its hyphen. -/
def hyphenate (inGap : Bool) : List Char → List Char
  | [] => []
  | c :: cs =>
    if isSlugChar c then c :: hyphenate false cs
    else if inGap then hyphenate true cs
    else '-' :: hyphenate true cs

/-- The slug of a name. -/
def slug (name : List Char) : List Char := hyphenate false (lowerCase name)

/-- Takes the hyphens off both ends. -/
def trimHyphens (cs : List Char) : List Char :=
  ((cs.dropWhile (· == '-')).reverse.dropWhile (· == '-')).reverse

/-! ### The characters of a slug -/

theorem mem_hyphenate {inGap : Bool} {cs : List Char} {c : Char} (h : c ∈ hyphenate inGap cs) :
    isSlugChar c = true ∨ c = '-' := by
  fun_induction hyphenate inGap cs with
  | case1 => simp at h
  | case2 _ d cs hd ih =>
    rcases List.mem_cons.1 h with rfl | h
    · exact .inl hd
    · exact ih h
  | case3 d cs _ ih => exact ih h
  | case4 _ d cs _ _ ih =>
    rcases List.mem_cons.1 h with rfl | h
    · exact .inr rfl
    · exact ih h

/-- The kept characters of a slug are those of the lower-cased name, in order. -/
theorem filter_hyphenate (inGap : Bool) (cs : List Char) :
    (hyphenate inGap cs).filter isSlugChar = cs.filter isSlugChar := by
  fun_induction hyphenate inGap cs with
  | case1 => rfl
  | case2 _ d cs hd ih => simp [hd, ih]
  | case3 d cs hd ih => simp [hd, ih]
  | case4 _ d cs hd _ ih => simp [hd, ih, show isSlugChar '-' = false by decide]

end Wireframe.Text
