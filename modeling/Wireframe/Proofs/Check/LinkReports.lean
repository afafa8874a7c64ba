import Wireframe.Proofs.Check.DuplicateLinks

/-!
# How duplicate links are reported

What the check reports about a page is a function of the keys of its links alone
(`duplicateLinks_eq_keyReports`). The keys are gone through in the order in which they first appear
on the page; each is reported once if it stands on several lines and not at all otherwise, as the
first link with it and with the numbers of all lines on which it stands.
-/

namespace Wireframe.Check

/-- Whether a key stands on a line: it is that of a bracketed span which is no blank to fill in. -/
def StandsOn (key line : List Char) : Prop :=
  ∃ span ∈ Line.links line, ∃ link ∈ LinkUse.ofSpan? span, link.key = key

/-- The check reports each link that is the first with its key, if the key stands on several
lines. -/
theorem duplicateLinks_eq_firstLinks (lines : List (List Char)) :
    duplicateLinks lines = (firstLinks (pageLinks lines)).filterMap fun link =>
      if 2 ≤ (linesOfKey lines link.key).length then
        some (link.report (linesOfKey lines link.key))
      else none := by
  rw [duplicateLinks, linkRecords_eq, List.filterMap_map]
  rfl

/-- The key that appears first is reported first, though the other one is repeated before it. -/
example : duplicateLinks (Text.lines "[B]\n[A](a)\n[A](a)\n[B]".toList) =
    [⟨.duplicateLink "B" none [1, 4], [1, 4]⟩, ⟨.duplicateLink "A" (some "a") [2, 3], [2, 3]⟩] := by
  decide

end Wireframe.Check
