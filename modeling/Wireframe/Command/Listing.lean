import Wireframe.Check
import Wireframe.Command
import Wireframe.Finding.Data
import Wireframe.Highlight
import Wireframe.Json.Writer
import Wireframe.Library

/-!
# Listings

What commands print: the report on a page, its lines with their categories, and the patterns of a
library. Every listing is made of whole lines. Columns are padded with spaces by number of
characters; what is too long for its column pushes the rest of the line to the right.
-/

namespace Wireframe.Listing

/-- A text as a line. -/
def line (text : String) : String := text ++ "\n"

/-- A text with spaces behind it up to a width. -/
def padEnd (width : Nat) (text : String) : String := text.pushn ' ' (width - text.length)

/-- A text with spaces in front of it up to a width. -/
def padStart (width : Nat) (text : String) : String := "".pushn ' ' (width - text.length) ++ text

/-! ### Reports -/

/-- The number of issues in words. -/
def issueCount (count : Nat) : String :=
  toString count ++ " issue" ++ if count = 1 then "" else "s"

/-- The report on a page as sentences. -/
def reportText (input : Path) : List Diagnostic → String
  | [] => line ("✓ No accessibility issues found in " ++ input.text)
  | diagnostics =>
    Text.wholeLines (diagnostics.map fun diagnostic => "⚠ " ++ diagnostic.message) ++
      line ("\n" ++ issueCount diagnostics.length ++ " found in " ++ input.text)

/-- The report on a page as data. -/
def reportJson (diagnostics : List Diagnostic) : String :=
  line (Json.pretty (Diagnostic.reportData diagnostics))

/-- The report on a page. -/
def report (format : ReportFormat) (input : Path) (diagnostics : List Diagnostic) : String :=
  match format with
  | .text => reportText input diagnostics
  | .json => reportJson diagnostics

/-! ### Categories -/

/-- One line of a page with its number and its category. -/
def categoryLine (content : List Char) (number : Nat) : String :=
  line (padStart 4 (toString number) ++ "  " ++ padEnd 11 (Category.ofLine content).name ++ " " ++
    String.ofList content)

/-- The lines of a page with their numbers and categories. -/
def categories (text : String) : String :=
  String.join (((Text.lines text.toList).zipIdx 1).map fun item => categoryLine item.1 item.2)

/-! ### Patterns -/

/-- One pattern: its identifier, its label and its description. -/
def patternLine (pattern : Pattern) : String :=
  line ("  " ++ padEnd 22 pattern.id ++ " " ++ pattern.label ++ " - " ++ pattern.description)

/-- One category with its patterns, and an empty line. -/
def category (category : PatternCategory) : String :=
  line (category.name ++ ":") ++ String.join (category.patterns.map patternLine) ++ line ""

/-- One example page: its file and its name. -/
def exampleLine (page : ExamplePage) : String :=
  line ("  " ++ padEnd 22 page.file ++ " " ++ page.name)

/-- The example pages, if there are any. -/
def examples : List ExamplePage → String
  | [] => ""
  | pages => line "Examples:" ++ String.join (pages.map exampleLine)

/-- A library: its categories and its example pages. -/
def library (library : Library) : String :=
  if library.isEmpty then line "No patterns available"
  else String.join (library.categories.map category) ++ examples library.examples

end Wireframe.Listing
