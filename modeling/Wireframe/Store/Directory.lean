import Wireframe.Store

/-!
# Stores in a directory

The store that keeps each text in a file of its own, named after the identifier, in one directory.
The directory is made when the first text is saved. Files and directories in it that are not named
like a stored text are passed over.
-/

namespace Wireframe

/-- A store in a directory. -/
structure DirectoryStore where
  /-- The directory. -/
  root : Path
  deriving DecidableEq, Repr

namespace DirectoryStore

/-- The extension of the files. -/
def extension : String := "txt"

/-- The name of the file for an identifier. -/
def fileName (id : String) : String := id ++ "." ++ extension

/-- The path of the file for an identifier. -/
def pathFor (store : DirectoryStore) (id : String) : Path := store.root.join ⟨fileName id⟩

/-- The identifier whose file has a given name, if there is one. -/
def idOf? (name : String) : Option String :=
  match Path.splitName name with
  | (stem, some ext) => if ext == extension && Store.isId stem then some stem else none
  | (_, none) => none

variable {m : Type → Type} [Monad m] [Disk m]

/-- Keeps a text under an identifier. -/
def save (store : DirectoryStore) (id content : String) : m (Except StoreError Unit) := do
  match Store.checkId id with
  | .error e => return .error e
  | .ok () =>
    match ← Disk.makeDirectories store.root with
    | .error fault => return .error (.disk store.root fault)
    | .ok () =>
      match ← Disk.writeText (store.pathFor id) content with
      | .error fault => return .error (.disk (store.pathFor id) fault)
      | .ok () => return .ok ()

/-- The text kept under an identifier. -/
def load (store : DirectoryStore) (id : String) : m (Except StoreError String) := do
  match Store.checkId id with
  | .error e => return .error e
  | .ok () =>
    match ← Disk.readText (store.pathFor id) with
    | .error .notFound => return .error (.notFound id)
    | .error fault => return .error (.disk (store.pathFor id) fault)
    | .ok content => return .ok content

/-- The identifiers in use, in increasing order; none if the directory is not there. -/
def list (store : DirectoryStore) : m (Except StoreError (List String)) := do
  match ← Disk.kind? store.root with
  | none => return .ok []
  | some _ =>
    match ← Disk.names store.root with
    | .error fault => return .error (.disk store.root fault)
    | .ok names => return .ok ((names.filterMap idOf?).mergeSort fun a b => decide (a ≤ b))

/-- Answers a request. -/
def answer (store : DirectoryStore) : Store.Request → m (Except StoreError Store.Reply)
  | .save id content => return (← store.save id content).map fun () => .saved
  | .load id => return (← store.load id).map .content
  | .list => return (← store.list).map .ids

end DirectoryStore

end Wireframe
