import Wireframe.Disk
import Wireframe.Theme.Data

/-!
# Theme files

Loading a theme from a file and saving one to a file. A theme that is saved and loaded again is the
same; a file may also say only what differs from the standard theme.
-/

namespace Wireframe

/-- Why a theme was not loaded or saved. -/
inductive ThemeError
  /-- The file could not be read or written. -/
  | disk (fault : Fault)
  /-- The text of the file does not describe a theme. -/
  | malformed
  deriving DecidableEq, Repr

namespace ThemeError

/-- The sentence for an error. -/
def message : ThemeError → String
  | disk fault => "IO error: " ++ fault.message
  | malformed => "TOML parse error"

/-- The fault behind an error, if there is one. -/
def fault? : ThemeError → Option Fault
  | disk fault => some fault
  | malformed => none

/-- What is behind an error. -/
def cause : ThemeError → String
  | disk fault => fault.message
  | malformed => "The text is not TOML, or does not describe a theme"

end ThemeError

namespace Theme

variable {m : Type → Type} [Monad m] [Disk m] {α : Type} [Scalar α]

/-- The theme that the text of a theme file describes. -/
def ofText (text : String) : Except ThemeError (Theme α) :=
  match ofToml? text with
  | some theme => .ok theme
  | none => .error .malformed

/-- Loads a theme from a file. -/
def load (path : Path) : m (Except ThemeError (Theme α)) := do
  match ← Disk.readText path with
  | .error fault => return .error (.disk fault)
  | .ok text => return ofText text

/-- Saves a theme to a file. -/
def save (theme : Theme α) (path : Path) : m (Except ThemeError Unit) :=
  return (← Disk.writeText path theme.toToml).mapError .disk

end Theme

end Wireframe
