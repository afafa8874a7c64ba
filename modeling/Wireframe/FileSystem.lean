import Std.Data.ExtTreeMap.Basic
import Std.Data.ExtTreeMap.Lemmas
import Wireframe.Disk

/-!
# File systems

A disk in memory: a tree of files and directories without links, and a working directory. The tree
is kept as what each location holds, a location being the names that lead to it from the root. The
locations are ordered by their first different name, and a directory comes before what is in it;
going through them in order is going through the tree depth first.

A path is followed piece by piece from the root or the working directory. Whatever is not the last
piece has to be a directory, and `..` leads to the directory above. What can be done is done, and a
file is written in one piece; volumes and sessions have links and steps that fail halfway.
-/

namespace Wireframe

/-- The names that lead to a place in the tree from its root, outermost first. -/
abbrev Location := List String

/-- What is at a place in the tree. -/
inductive Entry
  | directory
  | file (bytes : ByteArray)

/-- Two files are equal if they hold the same bytes. -/
instance : DecidableEq Entry
  | .directory, .directory => isTrue rfl
  | .directory, .file _ => isFalse Entry.noConfusion
  | .file _, .directory => isFalse Entry.noConfusion
  | .file ⟨as⟩, .file ⟨bs⟩ =>
    if h : as = bs then isTrue (by rw [h]) else isFalse (by rintro ⟨⟩; exact h rfl)

/-- Whether an entry is a file or a directory. -/
def Entry.kind : Entry → Kind
  | directory => .directory
  | file _ => .file

/-- A tree of files and directories, and the working directory in it. -/
structure FileSystem where
  /-- What the places below the root hold. -/
  entries : Std.ExtTreeMap Location Entry
  /-- Where paths start that do not start at the root. -/
  workingDirectory : Location

namespace FileSystem

/-- What a place holds. The root is a directory. -/
def entry? (fs : FileSystem) (location : Location) : Option Entry :=
  if location.isEmpty then some .directory else fs.entries[location]?

/-- Puts an entry at a place. -/
def put (fs : FileSystem) (location : Location) (entry : Entry) : FileSystem :=
  { fs with entries := fs.entries.insert location entry }

/-! ### Following paths -/

/-- Where pieces of a path lead from a place. A piece can only be followed in a directory. -/
def follow (fs : FileSystem) (location : Location) : List String → Except Fault Location
  | [] => .ok location
  | piece :: rest =>
    match fs.entry? location with
    | none => .error .notFound
    | some (.file _) => .error .notDirectory
    | some .directory =>
      if Path.isIdle piece then fs.follow location rest
      else if piece == ".." then fs.follow location.dropLast rest
      else fs.follow (location ++ [piece]) rest

/-- Where a path starts. -/
def origin (fs : FileSystem) (path : Path) : Location :=
  if path.isAbsolute then [] else fs.workingDirectory

/-- Why a text cannot be a path of anything. -/
def refusal? (path : Path) : Option Fault :=
  if path.text.toList.contains '\x00' then some .nullInPath
  else if path.isEmpty then some .notFound
  else none

/-- What a path names, and where it is. -/
def find (fs : FileSystem) (path : Path) : Except Fault (Location × Entry) :=
  match refusal? path with
  | some fault => .error fault
  | none =>
    match fs.follow (fs.origin path) path.split.2 with
    | .error fault => .error fault
    | .ok location =>
      match fs.entry? location with
      | none => .error .notFound
      | some entry => .ok (location, entry)

/-- Where a path says that something is to be made. -/
inductive Site
  /-- At a place in a directory that is there; `slash` says that a slash follows the name. -/
  | place (location : Location) (slash : Bool)
  /-- The path leads to a directory and not to a name in one. -/
  | directory

/-- Leaves out the empty pieces at the end, which come from slashes. -/
def dropSlashes : List String → List String
  | [] => []
  | piece :: rest =>
    match dropSlashes rest with
    | [] => if piece == "" then [] else [piece]
    | kept => piece :: kept

/-- Where a path says that something is to be made: its last piece is the name, and the others lead
to the directory for it. -/
def site (fs : FileSystem) (path : Path) : Except Fault Site :=
  match refusal? path with
  | some fault => .error fault
  | none =>
    let pieces := dropSlashes path.split.2
    match pieces.getLast?.bind Path.component? with
    | some (.name name) =>
      match fs.follow (fs.origin path) pieces.dropLast with
      | .error fault => .error fault
      | .ok location =>
        match fs.entry? location with
        | none => .error .notFound
        | some (.file _) => .error .notDirectory
        | some .directory =>
          .ok (.place (location ++ [name]) (pieces.length < path.split.2.length))
    | _ =>
      match fs.find path with
      | .error fault => .error fault
      | .ok _ => .ok .directory

/-! ### Operations -/

/-- What a path names, if anything. -/
def kind? (fs : FileSystem) (path : Path) : Option Kind :=
  match fs.find path with
  | .ok found => some found.2.kind
  | .error _ => none

/-- The bytes of a file. -/
def readBytes (fs : FileSystem) (path : Path) : Except Fault ByteArray :=
  match fs.find path with
  | .ok (_, .file bytes) => .ok bytes
  | .ok (_, .directory) => .error .isDirectory
  | .error fault => .error fault

/-- Makes a file or replaces its bytes. -/
def writeBytes (fs : FileSystem) (path : Path) (bytes : ByteArray) :
    Except Fault Unit × FileSystem :=
  match fs.site path with
  | .error fault => (.error fault, fs)
  | .ok .directory => (.error .isDirectory, fs)
  | .ok (.place _ true) => (.error .isDirectory, fs)
  | .ok (.place location false) =>
    match fs.entry? location with
    | some .directory => (.error .isDirectory, fs)
    | _ => (.ok (), fs.put location (.file bytes))

/-- Makes one directory. -/
def makeDirectory (fs : FileSystem) (path : Path) : Except Fault Unit × FileSystem :=
  match fs.site path with
  | .error fault => (.error fault, fs)
  | .ok .directory => (.error .alreadyExists, fs)
  | .ok (.place location _) =>
    match fs.entry? location with
    | some _ => (.error .alreadyExists, fs)
    | none => (.ok (), fs.put location .directory)

/-- The rest of a location below another one. -/
def below? (base location : Location) : Option Location :=
  if base.isPrefixOf location then some (location.drop base.length) else none

/-- The places below one, relative to it, with what they hold, in order. -/
def tree (fs : FileSystem) (base : Location) : List (Location × Entry) :=
  fs.entries.toList.filterMap fun item =>
    match below? base item.1 with
    | some (name :: rest) => some (name :: rest, item.2)
    | _ => none

/-- The names in a directory. -/
def names (fs : FileSystem) (path : Path) : Except Fault (List String) :=
  match fs.find path with
  | .error fault => .error fault
  | .ok (_, .file _) => .error .notDirectory
  | .ok (location, .directory) =>
    .ok ((fs.tree location).filterMap fun item =>
      match item.1 with
      | [name] => some name
      | _ => none)

/-- The files below a directory; there are none below anything else. -/
def filesBelow (fs : FileSystem) (path : Path) : List Location :=
  match fs.find path with
  | .ok (location, .directory) =>
    (fs.tree location).filterMap fun item =>
      match item.2 with
      | .file _ => some item.1
      | .directory => none
  | _ => []

instance : Disk (StateM FileSystem) where
  kind? path := fun fs => (fs.kind? path, fs)
  readBytes path := fun fs => (fs.readBytes path, fs)
  writeBytes path bytes := fun fs => fs.writeBytes path bytes
  makeDirectory path := fun fs => fs.makeDirectory path
  names path := fun fs => (fs.names path, fs)
  filesBelow path := fun fs => (fs.filesBelow path, fs)

/-! ### Making a tree -/

/-- The tree with nothing in it but the working directory and what that lies in. -/
def empty (workingDirectory : Location) : FileSystem :=
  (List.range workingDirectory.length).foldl
    (fun fs depth => fs.put (workingDirectory.take (depth + 1)) .directory)
    ⟨∅, workingDirectory⟩

/-- Puts an entry at a place below the working directory, with the directories it lies in. -/
def plant (fs : FileSystem) (location : Location) (entry : Entry) : FileSystem :=
  let place (depth : Nat) := fs.workingDirectory ++ location.take depth
  ((List.range location.length).foldl
    (fun fs depth => if depth = 0 then fs else
      match fs.entry? (place depth) with
      | none => fs.put (place depth) .directory
      | some _ => fs)
    fs).put (place location.length) entry

/-- The places below the working directory whose entries are not those of an earlier tree, in
order. -/
def changesSince (fs earlier : FileSystem) : List (Location × Entry) :=
  (fs.tree fs.workingDirectory).filter fun item =>
    earlier.entry? (fs.workingDirectory ++ item.1) != some item.2

end FileSystem

end Wireframe
