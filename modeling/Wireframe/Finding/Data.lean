import Wireframe.Data
import Wireframe.Finding

/-!
# Findings as data

Findings and diagnostics as structured data and back, for programs that read the report on a page. A
finding is a record that begins with the name of its rule; a missing destination is written as null.
-/

namespace Wireframe

open Data (need)

/-! ### To data -/

/-- A count or a line number as data. -/
def Data.ofNat (n : Nat) : Data := .number (.ofInt n)

/-- Line numbers as data. -/
def Data.ofNats (ns : List Nat) : Data := .list (ns.map Data.ofNat)

/-- A text that may be missing as data. -/
def Data.ofText? : Option String → Data
  | some value => .text value
  | none => .null

namespace Finding

/-- What a finding says besides its rule. -/
def details : Finding → List (String × Data)
  | firstHeadingNotLevel1 level line => [("level", .ofNat level), ("line", .ofNat line)]
  | multipleLevel1Headings count => [("count", .ofNat count)]
  | headingLevelSkip fromLevel toLevel line =>
    [("from", .ofNat fromLevel), ("to", .ofNat toLevel), ("line", .ofNat line)]
  | multipleMetadataBlocks count => [("count", .ofNat count)]
  | duplicateLink text url lines =>
    [("text", .text text), ("url", .ofText? url), ("lines", .ofNats lines)]

/-- A finding as data. -/
def toData (finding : Finding) : Data := .record (("rule", .text finding.rule) :: finding.details)

end Finding

/-- A diagnostic as data. -/
def Diagnostic.toData (diagnostic : Diagnostic) : Data :=
  .record [("finding", diagnostic.finding.toData), ("lines", .ofNats diagnostic.lines)]

/-- The report on a page as data. -/
def Diagnostic.reportData (diagnostics : List Diagnostic) : Data :=
  .list (diagnostics.map Diagnostic.toData)

/-! ### From data -/

/-- The natural number that a numeral is, if it is one. -/
def Data.nat? : Data → Option Nat
  | .number (.finite negative coefficient exponent) =>
    if (negative && coefficient != 0) || exponent < 0 then none
    else some (coefficient * tenTo exponent.toNat)
  | _ => none

/-- The natural numbers of a list. -/
def Data.nats? (data : Data) : Option (List Nat) := data.listOf Data.nat?

/-- The text that a value is, where null stands for none. -/
def Data.optionalText? : Data → Option (Option String)
  | .null => some none
  | .text value => some (some value)
  | _ => none

/-- The finding that data describe. -/
def Finding.ofData? (data : Data) : Option Finding :=
  match data.fields? true
      ["rule", "level", "line", "count", "from", "to", "text", "url", "lines"] with
  | some [some (.text rule), level, line, count, fromLevel, toLevel, text, url, lines] =>
    if rule == "first_heading_not_level1" then do
      some (.firstHeadingNotLevel1 (← need Data.nat? level) (← need Data.nat? line))
    else if rule == "multiple_level1_headings" then do
      some (.multipleLevel1Headings (← need Data.nat? count))
    else if rule == "heading_level_skip" then do
      some
        (.headingLevelSkip (← need Data.nat? fromLevel) (← need Data.nat? toLevel)
          (← need Data.nat? line))
    else if rule == "multiple_metadata_blocks" then do
      some (.multipleMetadataBlocks (← need Data.nat? count))
    else if rule == "duplicate_link" then do
      some
        (.duplicateLink (← need Data.text? text) (← Data.orElse Data.optionalText? none url)
          (← need Data.nats? lines))
    else none
  | _ => none

/-- The diagnostic that data describe. -/
def Diagnostic.ofData? (data : Data) : Option Diagnostic :=
  match data.fields? false ["finding", "lines"] with
  | some [finding, lines] => do some ⟨← need Finding.ofData? finding, ← need Data.nats? lines⟩
  | _ => none

end Wireframe
