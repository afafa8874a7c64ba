import Wireframe.Data

/-!
# Writing JSON

Data as JSON text, either on one line or with every item and every field on a line of its own. Texts
are written as they are, except for quotes, backslashes and control characters.
-/

namespace Wireframe.Json

/-- The digit of a number below sixteen. -/
def hexDigit (n : Nat) : Char := if n < 10 then Char.ofNat (48 + n) else Char.ofNat (87 + n)

/-- The letter of the short escape for a character, if there is one. -/
def shortEscape? : Char → Option Char
  | '"' => some '"'
  | '\\' => some '\\'
  | '\x08' => some 'b'
  | '\t' => some 't'
  | '\n' => some 'n'
  | '\x0c' => some 'f'
  | '\r' => some 'r'
  | _ => none

/-- How one character of a text is written. -/
def escapeChar (c : Char) : List Char :=
  match shortEscape? c with
  | some letter => ['\\', letter]
  | none =>
    if c.toNat < 0x20 then
      ['\\', 'u', '0', '0', hexDigit (c.toNat / 16), hexDigit (c.toNat % 16)]
    else [c]

/-- A text in quotes. -/
def quoted (value : String) : List Char := '"' :: value.toList.flatMap escapeChar ++ ['"']

/-- What stands between the parts of a value: nothing, or a line feed and blanks. -/
def gap (spread : Bool) (depth : Nat) : List Char :=
  if spread then '\n' :: List.replicate (2 * depth) ' ' else []

/-- What stands between the name of a field and its value. -/
def colon (spread : Bool) : List Char := if spread then [':', ' '] else [':']

mutual

/-- A value at some depth. -/
def write (spread : Bool) (depth : Nat) : Data → List Char
  | .null => "null".toList
  | .flag value => if value then "true".toList else "false".toList
  | .number value => value.text
  | .text value => quoted value
  | .moment written => quoted written
  | .foreign => "null".toList
  | .list [] => ['[', ']']
  | .list (item :: items) =>
    '[' :: gap spread (depth + 1) ++ write spread (depth + 1) item ++
      writeItems spread (depth + 1) items ++ gap spread depth ++ [']']
  | .record [] => ['\x7b', '\x7d']
  | .record ((name, value) :: fields) =>
    '\x7b' :: gap spread (depth + 1) ++ quoted name ++ colon spread ++
      write spread (depth + 1) value ++ writeFields spread (depth + 1) fields ++
      gap spread depth ++ ['\x7d']

/-- The items of a list after the first. -/
def writeItems (spread : Bool) (depth : Nat) : List Data → List Char
  | [] => []
  | item :: items =>
    ',' :: gap spread depth ++ write spread depth item ++ writeItems spread depth items

/-- The fields of a record after the first. -/
def writeFields (spread : Bool) (depth : Nat) : List (String × Data) → List Char
  | [] => []
  | (name, value) :: fields =>
    ',' :: gap spread depth ++ quoted name ++ colon spread ++ write spread depth value ++
      writeFields spread depth fields

end

/-- A value on one line. -/
def compact (data : Data) : String := String.ofList (write false 0 data)

/-- A value with every item and every field on a line of its own. -/
def pretty (data : Data) : String := String.ofList (write true 0 data)

end Wireframe.Json
