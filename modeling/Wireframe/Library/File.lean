import Wireframe.Disk
import Wireframe.Library.Data

/-!
# Library files

Loading a pattern library from a file. Its extension, in whatever case, says which notation the file
is in.
-/

namespace Wireframe

/-- Why a library was not loaded. -/
inductive LibraryError
  /-- The file could not be read. -/
  | disk (fault : Fault)
  /-- The text of the file is not JSON, or does not describe a library. -/
  | malformedJson
  /-- The text of the file is not TOML, or does not describe a library. -/
  | malformedToml
  /-- The extension is that of no notation for libraries. -/
  | unsupportedFormat (extension : String)
  deriving DecidableEq, Repr

namespace LibraryError

/-- The sentence for an error. -/
def message : LibraryError → String
  | disk fault => "IO error: " ++ fault.message
  | malformedJson => "JSON parse error"
  | malformedToml => "TOML parse error"
  | unsupportedFormat extension => "Unsupported pattern library format: " ++ extension

end LibraryError

namespace Library

/-- The extension of a path in lower case, empty if there is none. Only ASCII letters have their
case changed. -/
def formatName (path : Path) : String := (path.extension?.getD "").map Char.toLower

/-- The library that a text in the notation for an extension describes. -/
def ofText (extension text : String) : Except LibraryError Library :=
  if extension == "json" then
    match ofJson? text with
    | some library => .ok library
    | none => .error .malformedJson
  else if extension == "toml" then
    match ofToml? text with
    | some library => .ok library
    | none => .error .malformedToml
  else .error (.unsupportedFormat extension)

variable {m : Type → Type} [Monad m] [Disk m]

/-- Loads a library from a file. -/
def load (path : Path) : m (Except LibraryError Library) := do
  match ← Disk.readText path with
  | .error fault => return .error (.disk fault)
  | .ok text => return ofText (formatName path) text

/-- Loads a library from a file; one that cannot be loaded has nothing in it. -/
def loadOrEmpty (path : Path) : m Library := do
  match ← load path with
  | .ok library => return library
  | .error _ => return empty

end Library

end Wireframe
