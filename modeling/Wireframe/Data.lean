import Wireframe.Decimal.Numeral

/-!
# Structured data

What files for themes and libraries say, in whichever of the two notations they are written: values
built from texts, numbers and truth values by lists and records. A record is read by the names of
its fields; a list may stand for a record, with the values of the fields in their order.
-/

namespace Wireframe

/-- A value of structured data. -/
inductive Data
  | null
  | flag (value : Bool)
  | number (value : Numeral)
  | text (value : String)
  /-- A date or a time, as it is written. -/
  | moment (written : String)
  /-- A value that may be written but that nothing here can hold, such as a text with half of a
  surrogate pair in it or a whole number of more than 64 bits. -/
  | foreign
  | list (items : List Data)
  | record (fields : List (String × Data))

namespace Data

/-- Whether a name occurs more than once among the fields. -/
def isRepeated (fields : List (String × Data)) (name : String) : Bool :=
  1 < (fields.filter (·.1 == name)).length

/-- The items of a list, one for each of so many fields; those at the end may be missing. -/
def inOrder : Nat → List Data → List (Option Data)
  | 0, _ => []
  | count + 1, [] => none :: inOrder count []
  | count + 1, item :: items => some item :: inOrder count items

/-- The values that a record gives for the named fields. Fields with other names do not matter, but
none of the named ones may be given twice. A list gives the fields in order; more items than there
are fields are refused, unless `surplus` says that they do not matter. A date or a time is taken for
a record without any of the fields. -/
def fields? (surplus : Bool) (names : List String) : Data → Option (List (Option Data))
  | record fields =>
    if names.any (isRepeated fields) then none
    else some (names.map fun name => List.lookup name fields)
  | list items =>
    if !surplus && names.length < items.length then none else some (inOrder names.length items)
  | moment _ => some (names.map fun _ => none)
  | _ => none

/-- The text of a text. -/
def text? : Data → Option String
  | text value => some value
  | _ => none

/-- The numeral of a number. -/
def number? : Data → Option Numeral
  | number value => some value
  | _ => none

/-- The items of a list. -/
def items? : Data → Option (List Data)
  | list items => some items
  | _ => none

/-- Reads a field that may be missing. -/
def orElse {β : Type} (read? : Data → Option β) (default : β) : Option Data → Option β
  | some value => read? value
  | none => some default

/-- Reads a field that must be there. -/
def need {β : Type} (read? : Data → Option β) : Option Data → Option β
  | some value => read? value
  | none => none

/-- Reads a list item by item. -/
def listOf {β : Type} (read? : Data → Option β) (data : Data) : Option (List β) :=
  data.items?.bind fun items => items.mapM read?

end Data

end Wireframe
