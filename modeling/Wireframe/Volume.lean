import Wireframe.FileSystem

/-!
# Volumes

A disk with links. A name in a directory stands for a directory, for a file or for a link. Files are
known by numbers, and several names may stand for one file. A link is a path that is followed in
place of the name.

A path is followed piece by piece, as in a tree without links. A piece that is a link is replaced by
the pieces of the link, which are followed from the directory that the link is in, or from the root.
There is a limit to the links on one way, so nothing is followed forever. What is made or replaced
under a path is where all links have led to, but for a directory: where a link is, none is made.
-/

namespace Wireframe

/-- What a name in a directory stands for. -/
inductive Volume.Node
  | directory
  /-- A file, by its number. Other names may stand for it as well. -/
  | file (number : Nat)
  /-- A path to follow in place of the name. -/
  | link (target : Path)
  deriving DecidableEq, Repr

/-- A tree of directories, files and links, and the working directory in it. -/
structure Volume where
  /-- What the places below the root stand for. -/
  nodes : Std.ExtTreeMap Location Volume.Node
  /-- What the files hold, by their numbers. -/
  contents : Nat → ByteArray
  /-- Where paths start that do not start at the root. -/
  workingDirectory : Location

namespace Volume

open FileSystem (refusal? dropSlashes Site below?)

/-- The number of a file. -/
def Node.number? : Node → Option Nat
  | file number => some number
  | _ => none

/-- Whether a node is a file or a directory, if it is no link. -/
def Node.kind? : Node → Option Kind
  | directory => some .directory
  | file _ => some .file
  | link _ => none

/-- What a place stands for. The root is a directory. -/
def node? (volume : Volume) (location : Location) : Option Node :=
  if location.isEmpty then some .directory else volume.nodes[location]?

/-- Gives a place a node. -/
def put (volume : Volume) (location : Location) (node : Node) : Volume :=
  { volume with nodes := volume.nodes.insert location node }

/-- Gives a file its bytes. -/
def fill (volume : Volume) (number : Nat) (bytes : ByteArray) : Volume :=
  { volume with contents := fun n => if n = number then bytes else volume.contents n }

/-- A number that no file has: one more than the largest in use. -/
def fresh (volume : Volume) : Nat :=
  ((volume.nodes.toList.filterMap fun item => item.2.number?).max?.getD 0) + 1

/-! ### Following paths -/

/-- The most links that are followed on one way. -/
def linkLimit : Nat := 40

/-- The fault when there are more links on one way. -/
def tooManyLinks : Fault := .other "Too many levels of symbolic links (os error 40)"

/-- Where a path starts that is followed in a directory. -/
def start (location : Location) (path : Path) : Location := if path.isAbsolute then [] else location

/-- Where a path starts. -/
def origin (volume : Volume) (path : Path) : Location := start volume.workingDirectory path

/-- Where pieces of a path lead from a place, given where those of a link and the rest lead. -/
def followWith (volume : Volume) (onward : Location → List String → Except Fault Location)
    (location : Location) : List String → Except Fault Location
  | [] => .ok location
  | piece :: rest =>
    match volume.node? location with
    | none => .error .notFound
    | some (.file _) | some (.link _) => .error .notDirectory
    | some .directory =>
      if Path.isIdle piece then volume.followWith onward location rest
      else if piece == ".." then volume.followWith onward location.dropLast rest
      else
        match volume.node? (location ++ [piece]) with
        | some (.link target) => onward (start location target) (target.split.2 ++ rest)
        | _ => volume.followWith onward (location ++ [piece]) rest

/-- Where pieces of a path lead from a place, with at most so many links on the way. -/
def follow (volume : Volume) : Nat → Location → List String → Except Fault Location
  | 0 => volume.followWith fun _ _ => .error tooManyLinks
  | links + 1 => volume.followWith (volume.follow links)

/-- Where a path leads. Nothing need be there, but there is a directory for it. -/
def locate (volume : Volume) (path : Path) : Except Fault Location :=
  volume.follow linkLimit (volume.origin path) path.split.2

/-- What a path leads to, and where it is. -/
def find (volume : Volume) (path : Path) : Except Fault (Location × Node) :=
  match refusal? path with
  | some fault => .error fault
  | none =>
    match volume.locate path with
    | .error fault => .error fault
    | .ok location =>
      match volume.node? location with
      | none => .error .notFound
      | some node => .ok (location, node)

/-- Where a path says that something is to be made: its last piece is the name, which is not
followed, and the others lead to the directory for it. -/
def site (volume : Volume) (path : Path) : Except Fault Site :=
  match refusal? path with
  | some fault => .error fault
  | none =>
    let pieces := dropSlashes path.split.2
    match pieces.getLast?.bind Path.component? with
    | some (.name name) =>
      match volume.follow linkLimit (volume.origin path) pieces.dropLast with
      | .error fault => .error fault
      | .ok location =>
        match volume.node? location with
        | none => .error .notFound
        | some (.file _) | some (.link _) => .error .notDirectory
        | some .directory =>
          .ok (.place (location ++ [name]) (pieces.length < path.split.2.length))
    | _ =>
      match volume.find path with
      | .error fault => .error fault
      | .ok _ => .ok .directory

/-- Where the file is, or is to be, that is written under a path. -/
def target (volume : Volume) (path : Path) : Except Fault Location :=
  match volume.site path with
  | .error fault => .error fault
  | .ok .directory | .ok (.place _ true) => .error .isDirectory
  | .ok (.place _ false) =>
    match volume.locate path with
    | .error fault => .error fault
    | .ok location =>
      match volume.node? location with
      | none | some (.file _) => .ok location
      | some .directory => .error .isDirectory
      | some (.link _) => .error tooManyLinks

/-! ### Operations -/

/-- What a path leads to, if anything. -/
def kind? (volume : Volume) (path : Path) : Option Kind :=
  match volume.find path with
  | .ok found => found.2.kind?
  | .error _ => none

/-- The bytes of a file. -/
def readBytes (volume : Volume) (path : Path) : Except Fault ByteArray :=
  match volume.find path with
  | .ok (_, .file number) => .ok (volume.contents number)
  | .ok (_, .directory) => .error .isDirectory
  | .ok (_, .link _) => .error tooManyLinks
  | .error fault => .error fault

/-- Puts bytes into the file at a place. A file is made there if there is none. -/
def write (volume : Volume) (location : Location) (bytes : ByteArray) : Volume :=
  match volume.node? location with
  | some (.file number) => volume.fill number bytes
  | _ => (volume.put location (.file volume.fresh)).fill volume.fresh bytes

/-- Makes one directory. -/
def makeDirectory (volume : Volume) (path : Path) : Except Fault Unit × Volume :=
  match volume.site path with
  | .error fault => (.error fault, volume)
  | .ok .directory => (.error .alreadyExists, volume)
  | .ok (.place location _) =>
    match volume.node? location with
    | some _ => (.error .alreadyExists, volume)
    | none => (.ok (), volume.put location .directory)

/-- The places below one, relative to it, with what they stand for, in order. -/
def tree (volume : Volume) (base : Location) : List (Location × Node) :=
  volume.nodes.toList.filterMap fun item =>
    match below? base item.1 with
    | some (name :: rest) => some (name :: rest, item.2)
    | _ => none

/-- The names in a directory. -/
def names (volume : Volume) (path : Path) : Except Fault (List String) :=
  match volume.find path with
  | .error fault => .error fault
  | .ok (location, .directory) =>
    .ok ((volume.tree location).filterMap fun item =>
      match item.1 with
      | [name] => some name
      | _ => none)
  | .ok _ => .error .notDirectory

/-- Whether what a place stands for is a file, or a link that leads to one. -/
def leadsToFile (volume : Volume) (location : Location) : Node → Bool
  | .directory => false
  | .file _ => true
  | .link _ =>
    match volume.follow linkLimit [] location with
    | .ok found => ((volume.node? found).bind Node.number?).isSome
    | .error _ => false

/-- The files below a directory, and the links there that lead to files; there are none below
anything else. Links to directories are not followed. -/
def filesBelow (volume : Volume) (path : Path) : List Location :=
  match volume.find path with
  | .ok (location, .directory) =>
    (volume.tree location).filterMap fun item =>
      if volume.leadsToFile (location ++ item.1) item.2 then some item.1 else none
  | _ => []

/-- A volume with nothing on it. -/
def bare : Volume := ⟨∅, fun _ => .empty, []⟩

end Volume

end Wireframe
