import Wireframe.Json.Reader
import Wireframe.Json.Writer
import Wireframe.Library
import Wireframe.Toml.Reader

/-!
# Libraries as data

A pattern library as structured data and back. The description of a pattern, the patterns of a
category and both parts of a library may be left out. A library file is such data in JSON or TOML.
-/

namespace Wireframe.Library

open Data (orElse need)

/-! ### From data -/

/-- A pattern. -/
def pattern? (surplus : Bool) (data : Data) : Option Pattern :=
  match data.fields? surplus ["id", "label", "description", "syntax"] with
  | some [id, label, description, syntaxText] => do
    some
      { id := ← need Data.text? id
        label := ← need Data.text? label
        description := ← orElse Data.text? "" description
        syntaxText := ← need Data.text? syntaxText }
  | _ => none

/-- A category. -/
def category? (surplus : Bool) (data : Data) : Option PatternCategory :=
  match data.fields? surplus ["name", "patterns"] with
  | some [name, patterns] => do
    some
      { name := ← need Data.text? name
        patterns := ← orElse (Data.listOf (pattern? surplus)) [] patterns }
  | _ => none

/-- An example page. -/
def examplePage? (surplus : Bool) (data : Data) : Option ExamplePage :=
  match data.fields? surplus ["name", "file"] with
  | some [name, file] => do some ⟨← need Data.text? name, ← need Data.text? file⟩
  | _ => none

/-- The library that data describe. `surplus` says that items which a list has too many do not
matter. -/
def ofData? (surplus : Bool) (data : Data) : Option Library :=
  match data.fields? surplus ["categories", "examples"] with
  | some [categories, examples] => do
    some
      { categories := ← orElse (Data.listOf (category? surplus)) [] categories
        examples := ← orElse (Data.listOf (examplePage? surplus)) [] examples }
  | _ => none

/-! ### To data -/

/-- A pattern as data. -/
def patternData (pattern : Pattern) : Data :=
  .record
    [("id", .text pattern.id), ("label", .text pattern.label),
      ("description", .text pattern.description), ("syntax", .text pattern.syntaxText)]

/-- A category as data. -/
def categoryData (category : PatternCategory) : Data :=
  .record
    [("name", .text category.name), ("patterns", .list (category.patterns.map patternData))]

/-- An example page as data. -/
def exampleData (page : ExamplePage) : Data :=
  .record [("name", .text page.name), ("file", .text page.file)]

/-- A library as data. -/
def toData (library : Library) : Data :=
  .record
    [("categories", .list (library.categories.map categoryData)),
      ("examples", .list (library.examples.map exampleData))]

/-! ### Library files -/

/-- The library that a JSON text describes. -/
def ofJson? (text : String) : Option Library := (Json.read? text).bind (ofData? false)

/-- The library that a TOML text describes. -/
def ofToml? (text : String) : Option Library := (Toml.read? text).bind (ofData? true)

/-- A library as a JSON text. -/
def toJson (library : Library) : String := Json.compact library.toData

end Wireframe.Library
