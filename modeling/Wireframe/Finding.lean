/-!
# Findings

What the checks of a page can report, each with the sentence it is reported by. A diagnostic is a
finding together with the lines it is about. Findings are advice: they never keep a page from being
drawn.
-/

namespace Wireframe

/-- Something about a page that makes it harder to use. Lines are counted from one. -/
inductive Finding
  /-- The first heading is not the page's own. -/
  | firstHeadingNotLevel1 (level line : Nat)
  /-- There are several headings of level 1. -/
  | multipleLevel1Headings (count : Nat)
  /-- A heading is more than one level below the one before it. -/
  | headingLevelSkip (fromLevel toLevel line : Nat)
  /-- There are metadata entries after the page's content has begun. -/
  | multipleMetadataBlocks (count : Nat)
  /-- The same link text with the same destination stands on several lines. -/
  | duplicateLink (text : String) (url : Option String) (lines : List Nat)
  deriving DecidableEq, Repr

namespace Finding

/-- The name of the rule that a finding goes back to. -/
def rule : Finding → String
  | firstHeadingNotLevel1 .. => "first_heading_not_level1"
  | multipleLevel1Headings .. => "multiple_level1_headings"
  | headingLevelSkip .. => "heading_level_skip"
  | multipleMetadataBlocks .. => "multiple_metadata_blocks"
  | duplicateLink .. => "duplicate_link"

/-- Line numbers as they are listed in a sentence. -/
def listed (lines : List Nat) : String := ", ".intercalate (lines.map toString)

/-- How the destination of a link is shown behind its text. -/
def arrow : Option String → String
  | some url => " → " ++ url
  | none => ""

/-- The sentence that reports a finding. -/
def message : Finding → String
  | firstHeadingNotLevel1 level line =>
    "First heading should be H1 (found H" ++ toString level ++ " on line " ++ toString line ++ ")"
  | multipleLevel1Headings count =>
    "Page should have only one H1 (found " ++ toString count ++ ")"
  | headingLevelSkip fromLevel toLevel line =>
    "Heading skips from H" ++ toString fromLevel ++ " to H" ++ toString toLevel ++ " on line " ++
      toString line
  | multipleMetadataBlocks count =>
    "Page should have only one metadata block (found " ++ toString count ++ ")"
  | duplicateLink text url lines =>
    "Duplicate links detected: \"" ++ text ++ "\"" ++ arrow url ++ " appears on lines " ++
      listed lines

end Finding

/-- A finding and the lines it is about, which may be none. -/
structure Diagnostic where
  /-- What was found. -/
  finding : Finding
  /-- The numbers of the lines it is about. -/
  lines : List Nat
  deriving DecidableEq, Repr

namespace Diagnostic

/-- A finding about the page as a whole. -/
def documentWide (finding : Finding) : Diagnostic := ⟨finding, []⟩

/-- The name of the rule that a diagnostic goes back to. -/
def rule (diagnostic : Diagnostic) : String := diagnostic.finding.rule

/-- The sentence that a diagnostic is shown by. -/
def message (diagnostic : Diagnostic) : String := diagnostic.finding.message

end Diagnostic

end Wireframe
