import Wireframe.Toml.Statement

/-!
# Reading TOML

The statements of a text put together into one record. A table is opened at most once by a header of
its own, and a value is given at most once. Headers may reach into tables made in any way; keys with
several parts make tables that only such keys add to.
-/

namespace Wireframe.Toml

/-- Changes the table that a key names, the last table of an array of tables; tables on the way that
are not there are made. -/
def within? (change : Entries → Option Entries) : Key → Entries → Option Entries
  | [], entries => change entries
  | name :: key, entries =>
    match List.lookup name entries with
    | none => (within? change key []).map fun inner => put entries name (.implied inner)
    | some (.value _) => none
    | some (.dotted inner) =>
      (within? change key inner).map fun inner => put entries name (.dotted inner)
    | some (.implied inner) =>
      (within? change key inner).map fun inner => put entries name (.implied inner)
    | some (.table inner) =>
      (within? change key inner).map fun inner => put entries name (.table inner)
    | some (.tables []) => none
    | some (.tables (last :: others)) =>
      (within? change key last).map fun last => put entries name (.tables (last :: others))

/-- Opens a table of a given name: a new one, or one that headers of tables inside it have made. -/
def openTable (name : String) (entries : Entries) : Option Entries :=
  match List.lookup name entries with
  | none => some (put entries name (.table []))
  | some (.implied inner) => some (put entries name (.table inner))
  | some _ => none

/-- Opens the next table of an array of a given name. -/
def openElement (name : String) (entries : Entries) : Option Entries :=
  match List.lookup name entries with
  | none => some (put entries name (.tables [[]]))
  | some (.tables elements) => some (put entries name (.tables ([] :: elements)))
  | some _ => none

/-- Changes the table that holds the last part of a key. -/
def atParent? (change : String → Entries → Option Entries) (key : Key) (root : Entries) :
    Option Entries :=
  key.getLast?.bind fun name => within? (change name) key.dropLast root

/-- What statements have amounted to so far: all entries, and the key of the open table. -/
structure Assembly where
  root : Entries
  current : Key

namespace Assembly

/-- Takes in one statement. -/
def add (assembly : Assembly) : Statement → Option Assembly
  | .table key => (atParent? openTable key assembly.root).map fun root => ⟨root, key⟩
  | .element key => (atParent? openElement key assembly.root).map fun root => ⟨root, key⟩
  | .assignment key data =>
    (within? (assign data key) assembly.current assembly.root).map fun root =>
      ⟨root, assembly.current⟩

end Assembly

/-- The record that statements amount to. -/
def assemble? (statements : List Statement) : Option (List (String × Data)) :=
  (statements.foldlM Assembly.add (⟨[], []⟩ : Assembly)).map fun assembly =>
    Item.fields assembly.root

/-- Leaves out the mark that a text may begin with. -/
def skipMark : List Char → List Char
  | '\ufeff' :: cs => cs
  | cs => cs

/-- The record that a text is. -/
def read? (text : String) : Option Data :=
  let cs := skipMark text.toList
  let fuel := 2 * cs.length + 2
  ((statements? fuel fuel cs).bind assemble?).map .record

end Wireframe.Toml
