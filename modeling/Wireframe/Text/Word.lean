import Wireframe.Text.WordTable

/-!
# Word characters

A *word character* is what a name or a label in any script is written with: a letter, a mark, a
decimal digit, connector punctuation such as `_`, or a join control.
-/

namespace Wireframe.Text

/-- Whether a character lies in one of the runs of word characters. -/
def isWord (c : Char) : Bool := wordRuns.any fun run => run.1 ≤ c.toNat && c.toNat ≤ run.2

end Wireframe.Text
