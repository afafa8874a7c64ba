import Wireframe.Text.Search

/-!
# Text in XML

How arbitrary text is written where markup is read. The five characters that markup is made of are
written as entities; characters that XML cannot hold at all are left out. In a comment, hyphens that
stand side by side are moved apart as well, because two hyphens would end it: the first two of every
run are separated again and again until no two are left together.
-/

namespace Wireframe.Xml

/-- Whether XML can hold a character: no control character other than tab, line feed and carriage
return, and neither of the two non-characters at the end of the first plane. -/
def isLegal (c : Char) : Bool :=
  c == '\t' || c == '\n' || c == '\r' ||
    (0x20 ≤ c.toNat && c.toNat != 0xFFFE && c.toNat != 0xFFFF)

/-- The name of the entity that a character is written as. -/
def entity? : Char → Option (List Char)
  | '&' => some "amp".toList
  | '<' => some "lt".toList
  | '>' => some "gt".toList
  | '"' => some "quot".toList
  | '\'' => some "apos".toList
  | _ => none

/-- How one character is written. -/
def escapeChar (c : Char) : List Char :=
  match entity? c with
  | some name => '&' :: name ++ [';']
  | none => if isLegal c then [c] else []

/-- How a text is written. -/
def escape (cs : List Char) : List Char := cs.flatMap escapeChar

/-! ### Comments -/

/-- Moves the hyphens of each pair apart, taking the pairs from left to right without overlap. -/
def separateOnce : List Char → List Char
  | '-' :: '-' :: cs => '-' :: ' ' :: '-' :: separateOnce cs
  | c :: cs => c :: separateOnce cs
  | [] => []

/-- Whether two hyphens stand side by side. -/
def hasDoubleHyphen (cs : List Char) : Bool := Text.occurs ['-', '-'] cs

/-- The number of places at which a hyphen follows a hyphen. -/
def hyphenPairs : List Char → Nat
  | c :: d :: cs => (if c = '-' ∧ d = '-' then 1 else 0) + hyphenPairs (d :: cs)
  | _ => 0

theorem head?_separateOnce (cs : List Char) : (separateOnce cs).head? = cs.head? := by
  fun_cases separateOnce cs <;> simp

/-- A pair of hyphens is counted at its first one. -/
theorem hyphenPairs_cons (c : Char) (cs : List Char) :
    hyphenPairs (c :: cs) = (if c = '-' ∧ cs.head? = some '-' then 1 else 0) + hyphenPairs cs := by
  cases cs with
  | nil => simp [hyphenPairs]
  | cons d cs => simp [hyphenPairs]

/-- Hyphens with a space between them are no pair. -/
theorem hyphenPairs_separated (cs : List Char) :
    hyphenPairs ('-' :: ' ' :: '-' :: cs) = hyphenPairs ('-' :: cs) := by
  rw [hyphenPairs_cons, hyphenPairs_cons, if_neg (by simp), if_neg (by simp), Nat.zero_add,
    Nat.zero_add]

theorem hyphenPairs_separateOnce_le (cs : List Char) :
    hyphenPairs (separateOnce cs) ≤ hyphenPairs cs := by
  fun_induction separateOnce cs with
  | case1 cs ih =>
    rw [hyphenPairs_separated]
    simp only [hyphenPairs_cons, head?_separateOnce, List.head?_cons, true_and, if_true]
    omega
  | case2 c cs h ih =>
    simp only [hyphenPairs_cons, head?_separateOnce]
    omega
  | case3 => exact Nat.le_refl _

/-- A round that finds a pair leaves fewer of them, so the loop ends. -/
theorem hyphenPairs_separateOnce_lt {cs : List Char} (h : hyphenPairs cs ≠ 0) :
    hyphenPairs (separateOnce cs) < hyphenPairs cs := by
  fun_induction separateOnce cs with
  | case1 cs ih =>
    have hle := hyphenPairs_separateOnce_le cs
    rw [hyphenPairs_separated]
    simp only [hyphenPairs_cons, head?_separateOnce, List.head?_cons, true_and, if_true]
    omega
  | case2 c cs hc ih =>
    have hno : ¬(c = '-' ∧ cs.head? = some '-') := by
      rintro ⟨rfl, hd⟩
      cases cs with
      | nil => simp at hd
      | cons d ds => exact hc ds rfl (by simpa using hd)
    simp only [hyphenPairs_cons, head?_separateOnce, hno, if_false, Nat.zero_add] at h ⊢
    exact ih h
  | case3 => exact absurd rfl h

theorem hyphenPairs_ne_zero {cs : List Char} (h : hasDoubleHyphen cs = true) :
    hyphenPairs cs ≠ 0 := by
  obtain ⟨before, after, rfl⟩ := Text.occurs_eq_true_iff.1 h
  induction before with
  | nil => simp [hyphenPairs]
  | cons c before ih =>
    have ih := ih (Text.occurs_eq_true_iff.2 ⟨before, after, rfl⟩)
    simp only [List.cons_append, hyphenPairs_cons]
    omega

/-- Moves hyphens apart until no two stand side by side. -/
def separateHyphens (cs : List Char) : List Char :=
  if hasDoubleHyphen cs = true then separateHyphens (separateOnce cs) else cs
termination_by hyphenPairs cs
decreasing_by exact hyphenPairs_separateOnce_lt (hyphenPairs_ne_zero (by assumption))

/-- How a text is written in a comment. -/
def commentText (cs : List Char) : List Char := separateHyphens (escape cs)

end Wireframe.Xml
