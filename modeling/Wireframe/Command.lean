import Wireframe.Path
import Wireframe.Prompt

/-!
# Commands

What the program can be told to do, by one line of words: draw pages, check one, show how it is
highlighted, wrap it in a prompt, save it under its own name, keep it in a store, or show snippets.
-/

namespace Wireframe

/-- How the report on a page is written. -/
inductive ReportFormat
  /-- One sentence on a line. -/
  | text
  /-- Structured data. -/
  | json
  deriving DecidableEq, Repr

namespace ReportFormat

/-- All formats. -/
def all : List ReportFormat := [text, json]

/-- The name of a format. -/
def name : ReportFormat → String
  | text => "text"
  | json => "json"

/-- The format of a given name. -/
def ofName? (name : String) : Option ReportFormat := all.find? (·.name == name)

end ReportFormat

/-- What can be done with a store. -/
inductive StoreAction
  /-- To keep a page under an identifier, which its name gives if none is given. -/
  | save (input : Path) (id : Option String)
  /-- To print the page kept under an identifier. -/
  | load (id : String)
  /-- To print all identifiers. -/
  | list
  deriving DecidableEq, Repr

/-- Something that the program is told to do. -/
inductive Command
  /-- To draw the page, or the pages in the directory, at a path. -/
  | render (input : Path) (output theme outDir : Option Path)
  /-- To check a page; `strict` makes any finding a failure. -/
  | validate (input : Path) (format : ReportFormat) (strict : Bool)
  /-- To show the lines of a page with their categories, as a table or as markup. -/
  | highlight (input : Path) (html : Bool)
  /-- To put the prompt for a page into a file or print it. -/
  | wrap (input : Path) (target : PromptTarget) (output : Option Path)
  /-- To save a page in a directory under the name that its title gives. -/
  | save (input dir : Path)
  /-- To do something with the store in a directory. -/
  | store (root : Path) (action : StoreAction)
  /-- To list the patterns of a library, the built-in one if none is given, or print one of them. -/
  | patterns (library : Option Path) (shown : Option String)
  deriving DecidableEq, Repr

end Wireframe
