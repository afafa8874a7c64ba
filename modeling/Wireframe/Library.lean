/-!
# Pattern libraries

Snippets to insert into a page, by category, and a list of example pages.
-/

namespace Wireframe

/-- A snippet. -/
structure Pattern where
  /-- What the snippet is asked for by. -/
  id : String
  /-- What it is shown as. -/
  label : String
  /-- What it is for. -/
  description : String
  /-- The text that it inserts. -/
  syntaxText : String
  deriving DecidableEq, Repr

/-- Snippets of one kind. -/
structure PatternCategory where
  name : String
  patterns : List Pattern
  deriving DecidableEq, Repr

/-- An example page. -/
structure ExamplePage where
  name : String
  /-- The file that holds it. -/
  file : String
  deriving DecidableEq, Repr

/-- Snippets by category, and example pages. -/
structure Library where
  categories : List PatternCategory
  examples : List ExamplePage
  deriving DecidableEq, Repr

namespace Library

/-- The library with nothing in it. -/
def empty : Library := ⟨[], []⟩

/-- All patterns, category by category. -/
def patterns (library : Library) : List Pattern :=
  library.categories.flatMap PatternCategory.patterns

/-- The first pattern with an identifier, in any category. -/
def find? (library : Library) (id : String) : Option Pattern := library.patterns.find? (·.id == id)

/-- The first example with a name or a file. -/
def example? (library : Library) (nameOrFile : String) : Option ExamplePage :=
  library.examples.find? fun page => page.name == nameOrFile || page.file == nameOrFile

/-- The number of patterns. -/
def patternCount (library : Library) : Nat := library.patterns.length

/-- Whether there is neither a category nor an example. -/
def isEmpty (library : Library) : Bool := library.categories.isEmpty && library.examples.isEmpty

end Library

end Wireframe
