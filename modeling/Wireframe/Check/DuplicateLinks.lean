import Wireframe.Finding
import Wireframe.Line.Span
import Wireframe.Text.Blank

/-!
# Duplicate links

Reports links that stand on several lines with the same text and the same destination. Every
bracketed span of the raw lines counts as a link here, also inside headings and buttons; only blanks
to fill in, made of underscores, do not. Links are told apart by a key, the trimmed text and the
trimmed destination with a bar between them.
-/

namespace Wireframe.Check

/-- Whether a bracketed text is a blank to fill in: underscores, at least one, and white space. -/
def isFillIn (text : List Char) : Bool :=
  let marks := text.filter (!Text.isBlank ·)
  !marks.isEmpty && marks.all (· == '_')

/-- A link as the check sees it. -/
structure LinkUse where
  /-- The trimmed text. -/
  text : List Char
  /-- The trimmed destination, unless it is empty. -/
  url : Option (List Char)
  deriving DecidableEq, Repr

namespace LinkUse

/-- The word that stands for a missing destination in a key. -/
def noDestination : List Char := "NO_URL".toList

/-- What links are told apart by. -/
def key (link : LinkUse) : List Char := link.text ++ '|' :: link.url.getD noDestination

/-- The link that a bracketed span makes, unless it is a blank to fill in. -/
def ofSpan? (span : Line.LinkSpan) : Option LinkUse :=
  let text := Text.trim span.text
  if isFillIn text then none
  else some ⟨text, (span.url.map Text.trim).filter (!·.isEmpty)⟩

end LinkUse

/-- A key with the link that it was first seen on and the lines it has been seen on. -/
structure LinkRecord where
  /-- The first link with the key. -/
  link : LinkUse
  /-- The lines on which the key has been seen, in order. -/
  lines : List Nat
  deriving DecidableEq, Repr

/-- Adds a line number to the end of a list unless it stands there already. -/
def noteLine (lines : List Nat) (number : Nat) : List Nat :=
  if lines.getLast? = some number then lines else lines ++ [number]

/-- Notes that a link has been seen on a line. Records stay in the order of first appearance. -/
def recordLink (records : List LinkRecord) (link : LinkUse) (number : Nat) : List LinkRecord :=
  match records with
  | [] => [⟨link, [number]⟩]
  | record :: rest =>
    if record.link.key = link.key then ⟨record.link, noteLine record.lines number⟩ :: rest
    else record :: recordLink rest link number

/-- The links of one line, in order. -/
def linkUses (line : List Char) : List LinkUse := (Line.links line).filterMap LinkUse.ofSpan?

/-- The links of a page with the numbers of their lines, in order. -/
def linkUsesFrom : List (List Char) → Nat → List (LinkUse × Nat)
  | [], _ => []
  | line :: rest, number =>
    (linkUses line).map (·, number) ++ linkUsesFrom rest (number + 1)

/-- One record for each key among the links of a page, in the order of first appearance. -/
def linkRecords (lines : List (List Char)) : List LinkRecord :=
  (linkUsesFrom lines 1).foldl (fun records found => recordLink records found.1 found.2) []

/-- The diagnostic for a key, if it has been seen on several lines. -/
def LinkRecord.diagnostic? (record : LinkRecord) : Option Diagnostic :=
  if 1 < record.lines.length then
    some ⟨.duplicateLink (String.ofList record.link.text) (record.link.url.map String.ofList)
      record.lines, record.lines⟩
  else none

/-- Reports each key that is seen on several lines, in the order of first appearance. -/
def duplicateLinks (lines : List (List Char)) : List Diagnostic :=
  (linkRecords lines).filterMap LinkRecord.diagnostic?

end Wireframe.Check
