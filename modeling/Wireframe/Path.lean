import Wireframe.Text.Lines

/-!
# Paths

The names of files and directories, as they are written: names separated by slashes, from the root
if there is a slash in front, otherwise from the working directory. Repeated slashes, a slash at the
end and `.` anywhere but at the very front say nothing; two paths are the same if they have the same
components. What is made from a path keeps the way it is written as far as possible.
-/

namespace Wireframe

/-- A path as it is written. -/
structure Path where
  text : String
  deriving DecidableEq, Repr

namespace Path

/-- What a path is made of. -/
inductive Component
  /-- The root, in front of a path that does not depend on the working directory. -/
  | root
  /-- `.` at the front. -/
  | here
  /-- `..`, the directory above. -/
  | up
  /-- A name. -/
  | name (text : String)
  deriving DecidableEq, Repr

/-- What may stand in front of the pieces of a path. -/
inductive Anchor
  | root
  | here
  | none
  deriving DecidableEq, Repr

/-- Whether a piece between two slashes says nothing. -/
def isIdle (piece : String) : Bool := piece == "" || piece == "."

/-- The pieces between the slashes. -/
def pieces (path : Path) : List String :=
  (Text.splitOn '/' path.text.toList).map String.ofList

/-- What stands in front of the pieces of a path, and the pieces after it. -/
def split (path : Path) : Anchor × List String :=
  match path.pieces with
  | "" :: second :: rest => (.root, second :: rest)
  | "." :: rest => (.here, rest)
  | all => (.none, all)

/-- Pieces with slashes between them. -/
def joined (ps : List String) : String := "/".intercalate ps

/-- The path with something in front of pieces. -/
def build : Anchor → List String → Path
  | .root, ps => ⟨"/" ++ joined ps⟩
  | .here, [] => ⟨"."⟩
  | .here, ps => ⟨"./" ++ joined ps⟩
  | .none, ps => ⟨joined ps⟩

/-- Whether a path starts at the root. -/
def isAbsolute (path : Path) : Bool := path.split.1 = .root

/-- Whether a path is the empty text. -/
def isEmpty (path : Path) : Bool := path.text == ""

/-! ### Components -/

/-- The component that a piece is, if it says anything. -/
def component? (piece : String) : Option Component :=
  if isIdle piece then none
  else if piece == ".." then some .up
  else some (.name piece)

/-- The component in front of the pieces. -/
def Anchor.component? : Anchor → Option Component
  | .root => some .root
  | .here => some .here
  | .none => Option.none

/-- The components of a path. -/
def components (path : Path) : List Component :=
  path.split.1.component?.toList ++ path.split.2.filterMap component?

/-- Whether two paths have the same components. -/
def same (a b : Path) : Bool := a.components == b.components

/-- Leaves out the pieces at the end that say nothing. -/
def trimPieces : List String → List String
  | [] => []
  | piece :: rest =>
    match trimPieces rest with
    | [] => if isIdle piece then [] else [piece]
    | kept => piece :: kept

/-- The name that a path ends in, if it ends in one. -/
def fileName? (path : Path) : Option String :=
  match path.components.getLast? with
  | some (.name name) => some name
  | _ => none

/-- The path without its last component; the root and the empty path have none. -/
def parent? (path : Path) : Option Path :=
  match path.components.getLast? with
  | none | some .root => none
  | some .here => some ⟨""⟩
  | some _ => some (build path.split.1 (trimPieces (trimPieces path.split.2).dropLast))

/-- A path, its parent, its parent's parent and so on, at most so many of them after the first. -/
def upFrom : Nat → Path → List Path
  | 0, path => [path]
  | count + 1, path =>
    match path.parent? with
    | none => [path]
    | some parent => path :: upFrom count parent

/-- A path and all that it lies in, nearest first. -/
def ancestors (path : Path) : List Path := upFrom path.components.length path

/-! ### Names and extensions -/

/-- A name before and after its last point. A point at the very front is part of the name, and a
name without another one has nothing after it. -/
def splitName (name : String) : String × Option String :=
  let reversed := name.toList.reverse
  let after := reversed.takeWhile (· != '.')
  match reversed.drop after.length with
  | _ :: c :: before =>
    (String.ofList (c :: before).reverse, some (String.ofList after.reverse))
  | _ => (name, none)

/-- The name that a path ends in, without its extension. -/
def stem? (path : Path) : Option String := path.fileName?.map fun name => (splitName name).1

/-- The extension of the name that a path ends in. -/
def extension? (path : Path) : Option String :=
  path.fileName?.bind fun name => (splitName name).2

/-- The path with another extension in place of its own, or in addition if it has none. A path that
ends in no name stays as it is. -/
def withExtension (path : Path) (extension : String) : Path :=
  match path.stem? with
  | none => path
  | some stem =>
    build path.split.1 ((trimPieces path.split.2).dropLast ++ [stem ++ "." ++ extension])

/-! ### Joining and relating paths -/

/-- A path from the end of another; a path from the root replaces it. -/
def join (base path : Path) : Path :=
  if path.isAbsolute || base.text == "" then path
  else if base.text.toList.getLast? = some '/' then ⟨base.text ++ path.text⟩
  else ⟨base.text ++ "/" ++ path.text⟩

/-- Leaves out pieces up to so many that say something. -/
def dropPieces : Nat → List String → List String
  | 0, ps => ps
  | _, [] => []
  | count + 1, piece :: rest =>
    if isIdle piece then dropPieces (count + 1) rest else dropPieces count rest

/-- The rest of a path after another one, if it starts with all components of that. -/
def relativeTo? (path base : Path) : Option Path :=
  if base.components.isPrefixOf path.components then
    match base.components.length with
    | 0 => some (build path.split.1 (trimPieces path.split.2))
    | count + 1 =>
      let inFront := if path.split.1 = .none then 0 else 1
      let rest := dropPieces (count + 1 - inFront) path.split.2
      some ⟨joined (trimPieces (rest.dropWhile isIdle))⟩
  else none

end Path

end Wireframe
