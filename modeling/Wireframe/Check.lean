import Wireframe.Check.Headings
import Wireframe.Check.MetadataBlock
import Wireframe.Check.DuplicateLinks
import Wireframe.Text.Lines

/-!
# Checking a page

All checks of a page, on its raw lines and independent of each other. Diagnostics come in the order
of the checks: where the outline starts, its single heading of level 1, skipped levels, metadata
blocks, and duplicate links.
-/

namespace Wireframe

/-- The diagnostics for the lines of a page. -/
def Check.ofLines (lines : List (List Char)) : List Diagnostic :=
  let marks := Check.headingMarks lines
  Check.entryPoint marks ++ Check.singleLevel1 marks ++ Check.levelSkips marks ++
    Check.singleMetadataBlock lines ++ Check.duplicateLinks lines

/-- The diagnostics for a page. -/
def check (text : String) : List Diagnostic := Check.ofLines (Text.lines text.toList)

end Wireframe
