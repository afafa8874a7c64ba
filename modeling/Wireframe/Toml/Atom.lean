import Wireframe.Data
import Wireframe.Decimal.Double
import Wireframe.Json.Reader
import Wireframe.Toml.Moment

/-!
# Numbers, words and texts in TOML

The values that are written without brackets. Numbers may have single underscores between their
digits. A fraction too large for a double and a whole number of more than 128 bits are refused; a
whole number of more than 64 bits may be written, but nothing can hold it. Texts come in four forms,
on one line or several, with escapes or without.
-/

namespace Wireframe.Toml

/-! ### Numbers -/

/-- The digits of a run in which single underscores stand between digits. `afterDigit` says that the
character before was a digit. -/
def plainDigits? (isDigit : Char → Bool) (afterDigit : Bool) : List Char → Option (List Char)
  | [] => if afterDigit then some [] else none
  | c :: cs =>
    if c == '_' then (if afterDigit then plainDigits? isDigit false cs else none)
    else if isDigit c then (plainDigits? isDigit true cs).map (c :: ·)
    else none

/-- The digits of a whole number: no zero in front of others. -/
def wholeDigits? (cs : List Char) : Option (List Char) :=
  match plainDigits? Char.isDigit false cs with
  | some ('0' :: _ :: _) => none
  | found => found

/-- The sign in front of a number, `true` for minus, and whether there is one at all. -/
def splitSign : List Char → Bool × Bool × List Char
  | '-' :: cs => (true, true, cs)
  | '+' :: cs => (false, true, cs)
  | cs => (false, false, cs)

/-- A whole number as data. One of more than 128 bits is refused, and one of more than 64 bits is
nothing that could be held. -/
def wholeData? (negative : Bool) (size : Nat) : Option Data :=
  if negative then
    if size ≤ twoTo 63 then some (.number (.ofInt (-size)))
    else if size ≤ twoTo 127 then some .foreign
    else none
  else if size < twoTo 64 then some (.number (.ofInt size))
  else if size < twoTo 128 then some .foreign
  else none

/-- The value of digits in a base of at most sixteen. -/
def valueInBase (base : Nat) (ds : List Char) : Nat :=
  ds.foldl (fun value d => base * value + (Json.hexValue? d).getD 0) 0

/-- Whether a character is a digit in a base of at most sixteen. -/
def isDigitInBase (base : Nat) (c : Char) : Bool :=
  match Json.hexValue? c with
  | some value => value < base
  | none => false

/-- The whole number that a list is, in decimal with a sign or in another base without one. -/
def whole? (cs : List Char) : Option Data :=
  let inBase (base : Nat) (ds : List Char) : Option Data :=
    (plainDigits? (isDigitInBase base) false ds).bind fun ds =>
      wholeData? false (valueInBase base ds)
  match cs with
  | '0' :: 'x' :: ds => inBase 16 ds
  | '0' :: 'o' :: ds => inBase 8 ds
  | '0' :: 'b' :: ds => inBase 2 ds
  | _ =>
    let (negative, _, ds) := splitSign cs
    (wholeDigits? ds).bind fun ds => wholeData? negative (Numeral.valueOfDigits ds)

/-- The exponent that a list is. -/
def exponent? (cs : List Char) : Option Int :=
  let (negative, _, ds) := splitSign cs
  (plainDigits? Char.isDigit false ds).map fun ds =>
    let size : Int := Numeral.valueOfDigits ds
    if negative then -size else size

/-- The fraction that a list is: a whole part, then a point with digits after it, or an exponent, or
both. -/
def fraction? (cs : List Char) : Option Data := do
  let (negative, _, cs) := splitSign cs
  let (mantissa, tail) := cs.span fun c => c != 'e' && c != 'E'
  let (whole, point) := mantissa.span (· != '.')
  let wholeDs ← wholeDigits? whole
  let pointDs ←
    match point with
    | [] => some []
    | _ :: ds => plainDigits? Char.isDigit false ds
  let exponent ←
    match tail with
    | [] => if point.isEmpty then none else some 0
    | _ :: ds => exponent? ds
  let numeral := Numeral.decimal negative (Numeral.valueOfDigits (wholeDs ++ pointDs))
    (exponent - pointDs.length)
  if numeral.overflows then none else some (.number numeral)

/-- The infinity or the non-number that a list is. -/
def special? (cs : List Char) : Option Data :=
  let (negative, _, word) := splitSign cs
  if word == "inf".toList then some (.number (.infinite negative))
  else if word == "nan".toList then some (.number .nan)
  else none

/-- The word, number, date or time that a list is. -/
def atom? (cs : List Char) : Option Data :=
  if cs == "true".toList then some (.flag true)
  else if cs == "false".toList then some (.flag false)
  else if isMoment cs then some (.moment (String.ofList cs))
  else (special? cs).or ((whole? cs).or (fraction? cs))

/-- Whether a character can belong to a word, a number, a date or a time. -/
def isAtomChar (c : Char) : Bool :=
  c.isAlphanum || c == '+' || c == '-' || c == '_' || c == '.' || c == ':'

/-- The run of characters at the head of a list that is a word, a number, a date or a time, and what
follows it. A blank belongs to it where it joins a date and a time. -/
def atomRun (cs : List Char) : List Char × List Char :=
  let (run, rest) := cs.span isAtomChar
  match afterDate? run, rest with
  | some [], ' ' :: d :: rest' =>
    if d.isDigit then
      let (time, rest) := (d :: rest').span isAtomChar
      (run ++ ' ' :: time, rest)
    else (run, rest)
  | _, _ => (run, rest)

/-! ### Texts -/

/-- Whether a character may stand in a text or a comment as it is: no control character but a
tab. -/
def isPlain (c : Char) : Bool := c == '\t' || (0x20 ≤ c.toNat && c.toNat != 0x7F)

/-- The character that a short escape stands for. -/
def shortEscaped? : Char → Option Char
  | 'b' => some '\x08'
  | 't' => some '\t'
  | 'n' => some '\n'
  | 'f' => some '\x0c'
  | 'r' => some '\r'
  | '"' => some '"'
  | '\\' => some '\\'
  | _ => none

/-- The character with the code that hexadecimal digits give. -/
def codeChar? (ds : List Char) : Option Char :=
  (Json.hexNumber? ds).bind fun n => if n.isValidChar then some (Char.ofNat n) else none

/-- A text in double quotes up to the closing one, and what follows it. -/
def basic? : List Char → Option (List Char × List Char)
  | [] => none
  | '"' :: cs => some ([], cs)
  | '\\' :: 'u' :: a :: b :: c :: d :: cs =>
    (codeChar? [a, b, c, d]).bind fun x => (basic? cs).map fun found => (x :: found.1, found.2)
  | '\\' :: 'U' :: a :: b :: c :: d :: e :: f :: g :: h :: cs =>
    (codeChar? [a, b, c, d, e, f, g, h]).bind fun x =>
      (basic? cs).map fun found => (x :: found.1, found.2)
  | '\\' :: e :: cs =>
    (shortEscaped? e).bind fun x => (basic? cs).map fun found => (x :: found.1, found.2)
  | c :: cs =>
    if isPlain c && c != '\\' then (basic? cs).map fun found => (c :: found.1, found.2) else none

/-- A text in single quotes up to the closing one, and what follows it. -/
def literal? : List Char → Option (List Char × List Char)
  | [] => none
  | '\'' :: cs => some ([], cs)
  | c :: cs => if isPlain c then (literal? cs).map fun found => (c :: found.1, found.2) else none

/-- Leaves out the line end at the head of a list, if there is one. -/
def skipLineEnd : List Char → List Char
  | '\n' :: cs => cs
  | '\r' :: '\n' :: cs => cs
  | cs => cs

/-- Whether a backslash at the end of a line stands before this list: blanks, then a line end. -/
def startsLineEnd : List Char → Bool
  | '\n' :: _ => true
  | '\r' :: '\n' :: _ => true
  | ' ' :: cs => startsLineEnd cs
  | '\t' :: cs => startsLineEnd cs
  | _ => false

/-- How a text on several lines goes on at the closing quotes: up to two quotes before the last
three belong to the text. -/
def closing? (quote : Char) : List Char → Option (List Char × List Char)
  | a :: b :: c :: cs =>
    if a == quote && b == quote && c == quote then
      match cs with
      | d :: e :: rest =>
        if d == quote && e == quote then some ([quote, quote], rest)
        else if d == quote then some ([quote], e :: rest)
        else some ([], cs)
      | [d] => if d == quote then some ([quote], []) else some ([], cs)
      | [] => some ([], cs)
    else none
  | _ => none

/-- A text in three double quotes up to the closing ones, and what follows it. `folding` says that
white space is being left out after a backslash at the end of a line. -/
def multiBasic? (folding : Bool) : List Char → Option (List Char × List Char)
  | [] => none
  | '\\' :: 'u' :: a :: b :: c :: d :: cs =>
    (codeChar? [a, b, c, d]).bind fun x =>
      (multiBasic? false cs).map fun found => (x :: found.1, found.2)
  | '\\' :: 'U' :: a :: b :: c :: d :: e :: f :: g :: h :: cs =>
    (codeChar? [a, b, c, d, e, f, g, h]).bind fun x =>
      (multiBasic? false cs).map fun found => (x :: found.1, found.2)
  | '\\' :: e :: cs =>
    if startsLineEnd (e :: cs) then multiBasic? true (e :: cs)
    else
      (shortEscaped? e).bind fun x =>
        (multiBasic? false cs).map fun found => (x :: found.1, found.2)
  | '\r' :: '\n' :: cs =>
    if folding then multiBasic? true cs
    else (multiBasic? false cs).map fun found => ('\r' :: '\n' :: found.1, found.2)
  | c :: cs =>
    match closing? '"' (c :: cs) with
    | some closed => some closed
    | none =>
      if folding && (c == ' ' || c == '\t' || c == '\n') then multiBasic? true cs
      else if c == '\n' || (isPlain c && c != '\\') then
        (multiBasic? false cs).map fun found => (c :: found.1, found.2)
      else none

/-- A text in three single quotes up to the closing ones, and what follows it. -/
def multiLiteral? : List Char → Option (List Char × List Char)
  | [] => none
  | '\r' :: '\n' :: cs => (multiLiteral? cs).map fun found => ('\r' :: '\n' :: found.1, found.2)
  | c :: cs =>
    match closing? '\'' (c :: cs) with
    | some closed => some closed
    | none =>
      if c == '\n' || isPlain c then
        (multiLiteral? cs).map fun found => (c :: found.1, found.2)
      else none

/-- The text at the head of a list, in any of its forms, and what follows it. -/
def text? : List Char → Option (List Char × List Char)
  | '"' :: '"' :: '"' :: cs => multiBasic? false (skipLineEnd cs)
  | '\'' :: '\'' :: '\'' :: cs => multiLiteral? (skipLineEnd cs)
  | '"' :: cs => basic? cs
  | '\'' :: cs => literal? cs
  | _ => none

end Wireframe.Toml
