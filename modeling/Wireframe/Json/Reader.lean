import Wireframe.Data

/-!
# Reading JSON

From JSON text to data. The grammar is the standard one and nothing more: no comments, no comma
after the last item, no zeros in front of a number. A text with half of a surrogate pair in it may
be written; it is read as a value that nothing can hold, and so is a record with such a name in it.
-/

namespace Wireframe.Json

/-- Whether a character is white space between the parts of a value. -/
def isSpace (c : Char) : Bool := c == ' ' || c == '\t' || c == '\n' || c == '\r'

/-- Leaves out white space. -/
def skipSpace (cs : List Char) : List Char := cs.dropWhile isSpace

/-! ### Texts -/

/-- The value of a hexadecimal digit. -/
def hexValue? (c : Char) : Option Nat :=
  let n := c.toNat
  if 48 ≤ n && n ≤ 57 then some (n - 48)
  else if 97 ≤ n && n ≤ 102 then some (n - 87)
  else if 65 ≤ n && n ≤ 70 then some (n - 55)
  else none

/-- The value of hexadecimal digits, most significant first. -/
def hexNumber? (ds : List Char) : Option Nat :=
  ds.foldlM (fun value d => (hexValue? d).map (16 * value + ·)) 0

/-- The character that a short escape stands for. -/
def shortEscaped? : Char → Option Char
  | '"' => some '"'
  | '\\' => some '\\'
  | '/' => some '/'
  | 'b' => some '\x08'
  | 'f' => some '\x0c'
  | 'n' => some '\n'
  | 'r' => some '\r'
  | 't' => some '\t'
  | _ => none

/-- The units of a text up to its closing quote, and what follows that. A unit is a code point, or
half of a surrogate pair. -/
def units? : List Char → Option (List Nat × List Char)
  | [] => none
  | '"' :: cs => some ([], cs)
  | '\\' :: 'u' :: a :: b :: c :: d :: cs =>
    (hexNumber? [a, b, c, d]).bind fun unit =>
      (units? cs).map fun found => (unit :: found.1, found.2)
  | '\\' :: e :: cs =>
    (shortEscaped? e).bind fun c => (units? cs).map fun found => (c.toNat :: found.1, found.2)
  | c :: cs =>
    if c.toNat < 0x20 || c == '\\' then none
    else (units? cs).map fun found => (c.toNat :: found.1, found.2)

/-- Whether a unit is the first half of a surrogate pair. -/
def isHigh (unit : Nat) : Bool := 0xD800 ≤ unit && unit ≤ 0xDBFF

/-- Whether a unit is the second half of a surrogate pair. -/
def isLow (unit : Nat) : Bool := 0xDC00 ≤ unit && unit ≤ 0xDFFF

/-- The text of units, if no half of a surrogate pair is left alone. -/
def textOfUnits? : List Nat → Option (List Char)
  | [] => some []
  | [unit] => if isHigh unit || isLow unit then none else some [Char.ofNat unit]
  | unit :: next :: rest =>
    if isHigh unit && isLow next then
      (textOfUnits? rest).map
        (Char.ofNat (0x10000 + (unit - 0xD800) * 0x400 + (next - 0xDC00)) :: ·)
    else if isHigh unit || isLow unit then none
    else (textOfUnits? (next :: rest)).map (Char.ofNat unit :: ·)

/-- A text as data. -/
def textData (units : List Nat) : Data :=
  match textOfUnits? units with
  | some cs => .text (String.ofList cs)
  | none => .foreign

/-! ### Numbers -/

/-- The digits at the head of a list, at least one. -/
def digits? (cs : List Char) : Option (List Char × List Char) :=
  match cs.span Char.isDigit with
  | ([], _) => none
  | found => some found

/-- The digits of a whole number: a zero alone, or digits that do not start with one. -/
def wholeDigits? : List Char → Option (List Char × List Char)
  | '0' :: cs => some (['0'], cs)
  | cs => digits? cs

/-- The digits after a point, if there is one. -/
def fraction? : List Char → Option (List Char × List Char)
  | '.' :: cs => digits? cs
  | cs => some ([], cs)

/-- A sign, `true` for minus, and what follows it. -/
def sign : List Char → Bool × List Char
  | '-' :: cs => (true, cs)
  | '+' :: cs => (false, cs)
  | cs => (false, cs)

/-- The exponent behind a number, zero if there is none. -/
def exponent? : List Char → Option (Int × List Char)
  | c :: cs =>
    if c == 'e' || c == 'E' then
      let signed := sign cs
      (digits? signed.2).map fun found =>
        let size : Int := Numeral.valueOfDigits found.1
        (if signed.1 then -size else size, found.2)
    else some (0, c :: cs)
  | [] => some (0, [])

/-- The number at the head of a list. -/
def number? (cs : List Char) : Option (Numeral × List Char) :=
  let (negative, cs) : Bool × List Char :=
    match cs with
    | '-' :: cs => (true, cs)
    | cs => (false, cs)
  (wholeDigits? cs).bind fun whole =>
    (fraction? whole.2).bind fun fraction =>
      (exponent? fraction.2).map fun exponent =>
        (.decimal negative (Numeral.valueOfDigits (whole.1 ++ fraction.1))
          (exponent.1 - fraction.1.length), exponent.2)

/-! ### Values -/

/-- What follows a word at the head of a list. -/
def afterWord? (word : List Char) (cs : List Char) : Option (List Char) :=
  if word.isPrefixOf cs then some (cs.drop word.length) else none

/-- The word or number at the head of a list. -/
def atom? (cs : List Char) : Option (Data × List Char) :=
  match afterWord? "null".toList cs, afterWord? "true".toList cs, afterWord? "false".toList cs with
  | some rest, _, _ => some (.null, rest)
  | _, some rest, _ => some (.flag true, rest)
  | _, _, some rest => some (.flag false, rest)
  | _, _, _ => (number? cs).map fun found => (.number found.1, found.2)

/-- The units of the name of a field at the head of a list, and what follows the colon after it. -/
def name? (cs : List Char) : Option (List Nat × List Char) :=
  match skipSpace cs with
  | '"' :: cs =>
    (units? cs).bind fun found =>
      match skipSpace found.2 with
      | ':' :: rest => some (found.1, rest)
      | _ => none
  | _ => none

/-- Fields with their names as texts, if all of these are texts. -/
def namedFields? : List (List Nat × Data) → Option (List (String × Data))
  | [] => some []
  | (name, value) :: fields =>
    match textOfUnits? name, namedFields? fields with
    | some cs, some rest => some ((String.ofList cs, value) :: rest)
    | _, _ => none

/-- A record as data. -/
def recordData (fields : List (List Nat × Data)) : Data :=
  match namedFields? fields with
  | some fields => .record fields
  | none => .foreign

mutual

/-- The value at the head of a list, and what follows it. The first argument bounds the number of
steps. -/
def value? : Nat → List Char → Option (Data × List Char)
  | 0, _ => none
  | fuel + 1, cs =>
    match skipSpace cs with
    | '"' :: cs => (units? cs).map fun found => (textData found.1, found.2)
    | '[' :: cs =>
      match skipSpace cs with
      | ']' :: cs => some (.list [], cs)
      | cs => (items? fuel cs).map fun found => (.list found.1, found.2)
    | '\x7b' :: cs =>
      match skipSpace cs with
      | '\x7d' :: cs => some (.record [], cs)
      | cs => (fields? fuel cs).map fun found => (recordData found.1, found.2)
    | cs => atom? cs

/-- The items of a list that is not empty, up to its end. -/
def items? : Nat → List Char → Option (List Data × List Char)
  | 0, _ => none
  | fuel + 1, cs =>
    match value? fuel cs with
    | none => none
    | some (item, cs) =>
      match skipSpace cs with
      | ']' :: cs => some ([item], cs)
      | ',' :: cs => (items? fuel cs).map fun found => (item :: found.1, found.2)
      | _ => none

/-- The fields of a record that is not empty, up to its end. -/
def fields? : Nat → List Char → Option (List (List Nat × Data) × List Char)
  | 0, _ => none
  | fuel + 1, cs =>
    match name? cs with
    | none => none
    | some (name, cs) =>
      match value? fuel cs with
      | none => none
      | some (value, cs) =>
        match skipSpace cs with
        | '\x7d' :: cs => some ([(name, value)], cs)
        | ',' :: cs => (fields? fuel cs).map fun found => ((name, value) :: found.1, found.2)
        | _ => none

end

/-- The value that a text is, with white space around it. -/
def read? (text : String) : Option Data :=
  let cs := text.toList
  match value? (2 * cs.length + 2) cs with
  | some (data, rest) => if (skipSpace rest).isEmpty then some data else none
  | none => none

end Wireframe.Json
