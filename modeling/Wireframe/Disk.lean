import Wireframe.Path

/-!
# Disks

What the program needs of the files around it: to ask what a path names, to read and write files, to
make directories and to list them. Anything that offers these operations is a disk. A step that
cannot be taken says why, and the words for that are the system's own.
-/

namespace Wireframe

/-- Why a step on a disk was not taken. -/
inductive Fault
  /-- Nothing is there. -/
  | notFound
  /-- Something is there already. -/
  | alreadyExists
  /-- Something on the way is no directory. -/
  | notDirectory
  /-- What is there is a directory. -/
  | isDirectory
  /-- What was read is no text. -/
  | notText
  /-- The path holds a null character. -/
  | nullInPath
  /-- Anything else that a system may report. -/
  | other (report : String)
  deriving DecidableEq, Repr

namespace Fault

/-- The words for a fault. -/
def message : Fault → String
  | notFound => "No such file or directory (os error 2)"
  | alreadyExists => "File exists (os error 17)"
  | notDirectory => "Not a directory (os error 20)"
  | isDirectory => "Is a directory (os error 21)"
  | notText => "stream did not contain valid UTF-8"
  | nullInPath => "file name contained an unexpected NUL byte"
  | other report => report

end Fault

/-- What a path may name. -/
inductive Kind
  | file
  | directory
  deriving DecidableEq, Repr

/-- The operations of a disk. -/
class Disk (m : Type → Type) where
  /-- What a path names, if anything. -/
  kind? : Path → m (Option Kind)
  /-- The bytes of a file. -/
  readBytes : Path → m (Except Fault ByteArray)
  /-- Makes a file with the given bytes, or replaces those of a file that is there. -/
  writeBytes : Path → ByteArray → m (Except Fault Unit)
  /-- Makes one directory. -/
  makeDirectory : Path → m (Except Fault Unit)
  /-- The names in a directory, in increasing order. -/
  names : Path → m (Except Fault (List String))
  /-- The files below a directory, at any depth, each by the names that lead to it, in increasing
  order: what is in a directory comes where the directory itself would. -/
  filesBelow : Path → m (List (List String))

namespace Disk

variable {m : Type → Type} [Monad m] [Disk m]

/-- Whether a path names a file. -/
def isFile (path : Path) : m Bool := return (← kind? path) == some .file

/-- Whether a path names a directory. -/
def isDirectory (path : Path) : m Bool := return (← kind? path) == some .directory

/-- The text that bytes are. -/
def textOfBytes (bytes : ByteArray) : Except Fault String :=
  match String.fromUTF8? bytes with
  | some text => .ok text
  | none => .error .notText

/-- The text of a file. -/
def readText (path : Path) : m (Except Fault String) := return (← readBytes path).bind textOfBytes

/-- Makes a file with the given text. -/
def writeText (path : Path) (text : String) : m (Except Fault Unit) :=
  writeBytes path text.toUTF8

/-- Makes the first directory of a list, after the others if they are what it lacks. A directory
that is there already will do. -/
def makeChain : List Path → m (Except Fault Unit)
  | [] => return .ok ()
  | path :: above => do
    if path.isEmpty then
      return .ok ()
    match ← makeDirectory path with
    | .ok () => return .ok ()
    | .error .notFound =>
      match ← makeChain above with
      | .error fault => return .error fault
      | .ok () =>
        match ← makeDirectory path with
        | .ok () => return .ok ()
        | .error fault => return if ← isDirectory path then .ok () else .error fault
    | .error fault => return if ← isDirectory path then .ok () else .error fault

/-- Makes a directory and all that it lies in, as far as they are missing. -/
def makeDirectories (path : Path) : m (Except Fault Unit) := makeChain path.ancestors

end Disk

end Wireframe
