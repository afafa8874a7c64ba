import Wireframe.Toml.Atom

/-!
# TOML statements

A TOML text is a sequence of statements, at most one on a line: `[table]`, `[[array of tables]]`, or
`key = value`. A key has one or more parts with points between them. What the statements amount to
together is not decided here.
-/

namespace Wireframe.Toml

/-- A part of a key, or several. -/
abbrev Key := List String

/-- What stands in an inline table before its keys are put in place: keys with their values. -/
abbrev Assignments := List (Key × Data)

/-- Leaves out blanks and tabs. -/
def skipBlanks (cs : List Char) : List Char := cs.dropWhile fun c => c == ' ' || c == '\t'

/-- What follows a line end at the head of a list. -/
def afterLineEnd? : List Char → Option (List Char)
  | '\n' :: cs => some cs
  | '\r' :: '\n' :: cs => some cs
  | _ => none

/-- What follows the comment at the head of a list, if there is one. -/
def skipComment : List Char → List Char
  | '#' :: cs => cs.dropWhile isPlain
  | cs => cs

/-- What follows the end of a statement: blanks and a comment up to the end of the line. -/
def afterStatement? (cs : List Char) : Option (List Char) :=
  match skipComment (skipBlanks cs) with
  | [] => some []
  | cs => afterLineEnd? cs

/-! ### Keys -/

/-- Whether a character may stand in a key without quotes. -/
def isBareChar (c : Char) : Bool := c.isAlphanum || c == '_' || c == '-'

/-- The part of a key at the head of a list. -/
def keyPart? (cs : List Char) : Option (String × List Char) :=
  match cs with
  | '"' :: cs => (basic? cs).map fun found => (String.ofList found.1, found.2)
  | '\'' :: cs => (literal? cs).map fun found => (String.ofList found.1, found.2)
  | cs =>
    match cs.span isBareChar with
    | ([], _) => none
    | (name, rest) => some (String.ofList name, rest)

/-- The key at the head of a list, and what follows it and the blanks after it. -/
def key? : Nat → List Char → Option (Key × List Char)
  | 0, _ => none
  | fuel + 1, cs =>
    (keyPart? (skipBlanks cs)).bind fun part =>
      match skipBlanks part.2 with
      | '.' :: cs => (key? fuel cs).map fun found => (part.1 :: found.1, found.2)
      | cs => some ([part.1], cs)

/-! ### Putting keys in place -/

/-- What a table holds under a key. -/
inductive Item
  /-- A value, which cannot be added to. -/
  | value (data : Data)
  /-- A table that keys with several parts have made. -/
  | dotted (entries : List (String × Item))
  /-- A table that the headers of tables inside it have made. -/
  | implied (entries : List (String × Item))
  /-- A table with a header of its own. -/
  | table (entries : List (String × Item))
  /-- The tables of an array, last one first, all with headers of their own. -/
  | tables (elements : List (List (String × Item)))

/-- The content of a table. -/
abbrev Entries := List (String × Item)

mutual

/-- An item as data. -/
def Item.data : Item → Data
  | .value data => data
  | .dotted entries => .record (Item.fields entries)
  | .implied entries => .record (Item.fields entries)
  | .table entries => .record (Item.fields entries)
  | .tables elements => .list (Item.records elements).reverse

/-- The content of a table as fields. -/
def Item.fields : List (String × Item) → List (String × Data)
  | [] => []
  | (name, item) :: rest => (name, item.data) :: Item.fields rest

/-- Tables as records. -/
def Item.records : List (List (String × Item)) → List Data
  | [] => []
  | entries :: rest => .record (Item.fields entries) :: Item.records rest

end

/-- Puts an item where a name stands among entries, or after them. -/
def put (entries : Entries) (name : String) (item : Item) : Entries :=
  match entries with
  | [] => [(name, item)]
  | entry :: rest => if entry.1 = name then (name, item) :: rest else entry :: put rest name item

/-- Gives a key its value. The parts before the last name tables that only keys have made, and the
last one must be new. -/
def assign (data : Data) : Key → Entries → Option Entries
  | [], _ => none
  | [name], entries =>
    match List.lookup name entries with
    | none => some (put entries name (.value data))
    | some _ => none
  | name :: key, entries =>
    match List.lookup name entries with
    | none => (assign data key []).map fun inner => put entries name (.dotted inner)
    | some (.dotted inner) =>
      (assign data key inner).map fun inner => put entries name (.dotted inner)
    | some _ => none

/-- Gives keys their values, one after the other. -/
def assignAll (assignments : Assignments) (entries : Entries) : Option Entries :=
  assignments.foldlM (fun entries assignment => assign assignment.2 assignment.1 entries) entries

/-! ### Values -/

/-- Leaves out blanks, comments and line ends, in at most so many steps. -/
def skipLines : Nat → List Char → List Char
  | 0, cs => cs
  | fuel + 1, cs =>
    let rest := skipComment (skipBlanks cs)
    match afterLineEnd? rest with
    | some cs => skipLines fuel cs
    | none => rest

mutual

/-- The value at the head of a list, and what follows it. The first argument bounds the number of
steps. -/
def value? : Nat → List Char → Option (Data × List Char)
  | 0, _ => none
  | fuel + 1, cs =>
    match cs with
    | '[' :: cs => (items? fuel cs).map fun found => (.list found.1, found.2)
    | '\x7b' :: cs =>
      match skipBlanks cs with
      | '\x7d' :: cs => some (.record [], cs)
      | cs =>
        (assignments? fuel cs).bind fun found =>
          (assignAll found.1 []).map fun entries => (.record (Item.fields entries), found.2)
    | '"' :: _ => (text? cs).map fun found => (.text (String.ofList found.1), found.2)
    | '\'' :: _ => (text? cs).map fun found => (.text (String.ofList found.1), found.2)
    | cs =>
      let run := atomRun cs
      (atom? run.1).map fun data => (data, run.2)

/-- The items of an array up to its end. There may be a comma after the last one. -/
def items? : Nat → List Char → Option (List Data × List Char)
  | 0, _ => none
  | fuel + 1, cs =>
    match skipLines (cs.length + 1) cs with
    | ']' :: cs => some ([], cs)
    | cs =>
      match value? fuel cs with
      | none => none
      | some (item, cs) =>
        match skipLines (cs.length + 1) cs with
        | ']' :: cs => some ([item], cs)
        | ',' :: cs => (items? fuel cs).map fun found => (item :: found.1, found.2)
        | _ => none

/-- The keys and values of an inline table that is not empty, up to its end. -/
def assignments? : Nat → List Char → Option (Assignments × List Char)
  | 0, _ => none
  | fuel + 1, cs =>
    match key? fuel cs with
    | none => none
    | some (key, '=' :: cs) =>
      match value? fuel (skipBlanks cs) with
      | none => none
      | some (data, cs) =>
        match skipBlanks cs with
        | '\x7d' :: cs => some ([(key, data)], cs)
        | ',' :: cs => (assignments? fuel cs).map fun found => ((key, data) :: found.1, found.2)
        | _ => none
    | some _ => none

end

/-! ### Statements -/

/-- One statement. -/
inductive Statement
  /-- Opens a table. -/
  | table (key : Key)
  /-- Opens the next table of an array. -/
  | element (key : Key)
  /-- Gives a key of the open table its value. -/
  | assignment (key : Key) (data : Data)

/-- The statement at the head of a list, and what follows it. -/
def statement? (fuel : Nat) (cs : List Char) : Option (Statement × List Char) :=
  match cs with
  | '[' :: '[' :: cs =>
    match key? fuel cs with
    | some (key, ']' :: ']' :: cs) => some (.element key, cs)
    | _ => none
  | '[' :: cs =>
    match key? fuel cs with
    | some (key, ']' :: cs) => some (.table key, cs)
    | _ => none
  | cs =>
    match key? fuel cs with
    | some (key, '=' :: cs) =>
      (value? fuel (skipBlanks cs)).map fun found => (.assignment key found.1, found.2)
    | _ => none

/-- The statements of a text, line by line, in at most so many steps. -/
def statements? (fuel : Nat) : Nat → List Char → Option (List Statement)
  | 0, _ => none
  | lines + 1, cs =>
    match skipBlanks cs with
    | [] => some []
    | cs =>
      match afterStatement? cs with
      | some rest => statements? fuel lines rest
      | none =>
        (statement? fuel cs).bind fun found =>
          (afterStatement? found.2).bind fun rest =>
            (statements? fuel lines rest).map (found.1 :: ·)

end Wireframe.Toml
