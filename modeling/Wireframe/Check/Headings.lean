import Wireframe.Finding

/-!
# Heading checks

Three checks on the outline that the headings of a page form: the first heading has level 1, no
other one has, and no heading is more than one level below the heading before it. A heading is
looked for in the line as it is written: markers at the very start, then a space.
-/

namespace Wireframe.Check

/-- A heading as far as the outline is concerned. -/
structure HeadingMark where
  /-- The number of markers. -/
  level : Nat
  /-- The line it is on, counted from one. -/
  line : Nat
  deriving DecidableEq, Repr

/-- The level of a line that starts with one to six `#` and a space. -/
def markedLevel? (line : List Char) : Option Nat :=
  match line.span (· == '#') with
  | (markers, ' ' :: _) =>
    if markers.isEmpty || 6 < markers.length then none else some markers.length
  | _ => none

/-- The lines with their numbers, counted from one. -/
def numbered (lines : List (List Char)) : List (List Char × Nat) := lines.zipIdx 1

/-- The headings of a page in the order of their lines. -/
def headingMarks (lines : List (List Char)) : List HeadingMark :=
  (numbered lines).filterMap fun numberedLine =>
    (markedLevel? numberedLine.1).map fun level => ⟨level, numberedLine.2⟩

/-- Reports a first heading that does not have level 1. -/
def entryPoint : List HeadingMark → List Diagnostic
  | [] => []
  | first :: _ =>
    if first.level = 1 then []
    else [⟨.firstHeadingNotLevel1 first.level first.line, [first.line]⟩]

/-- The lines of the headings of level 1. -/
def level1Lines (marks : List HeadingMark) : List Nat :=
  (marks.filter (·.level == 1)).map HeadingMark.line

/-- Reports several headings of level 1. -/
def singleLevel1 (marks : List HeadingMark) : List Diagnostic :=
  let found := level1Lines marks
  if 1 < found.length then [⟨.multipleLevel1Headings found.length, found⟩] else []

/-- Reports each heading that is more than one level below the one before it. -/
def levelSkips : List HeadingMark → List Diagnostic
  | previous :: next :: rest =>
    if previous.level + 1 < next.level then
      ⟨.headingLevelSkip previous.level next.level next.line, [next.line]⟩ ::
        levelSkips (next :: rest)
    else levelSkips (next :: rest)
  | _ => []

end Wireframe.Check
