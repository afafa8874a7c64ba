import Wireframe.Data
import Wireframe.Toml.Statement

/-!
# Writing TOML

A record as TOML text. The fields that are no records come first, one on a line; each record follows
under a header of its own, after an empty line. A text is written in the simplest form that can hold
it: plain quotes where nothing needs an escape, then single quotes, then three of either kind for
several lines, and escapes only where nothing else will do.
-/

namespace Wireframe.Toml

/-! ### Texts -/

/-- Whether a character cannot be written without an escape: a control character other than a tab or
a line feed. -/
def needsEscape (c : Char) : Bool :=
  (c.toNat < 0x20 && c != '\t' && c != '\n') || c.toNat == 0x7F

/-- The length of the longest run of a character. `run` is the length of the run at hand. -/
def longestRun (c : Char) (run : Nat) : List Char → Nat
  | [] => run
  | d :: ds => if d = c then longestRun c (run + 1) ds else max run (longestRun c 0 ds)

/-- The forms that a text can be written in. -/
inductive TextForm
  /-- Double quotes. -/
  | basic
  /-- Single quotes, no escapes. -/
  | literal
  /-- Three double quotes. -/
  | multiBasic
  /-- Three single quotes, no escapes. -/
  | multiLiteral
  deriving DecidableEq, Repr

namespace TextForm

/-- The form that a text is written in. -/
def choose (cs : List Char) : TextForm :=
  let control := cs.any needsEscape
  let backslash := cs.contains '\\'
  let newline := cs.contains '\n'
  let double := longestRun '"' 0 cs
  let single := longestRun '\'' 0 cs
  if !control && !backslash && double == 0 && !newline then basic
  else if !control && single == 0 && !newline then literal
  else if !control && !backslash && double ≤ 2 then multiBasic
  else if !control && single ≤ 2 then multiLiteral
  else if newline then multiBasic
  else basic

/-- The quotes around a text. -/
def quotes : TextForm → List Char
  | basic => ['"']
  | literal => ['\'']
  | multiBasic => ['"', '"', '"']
  | multiLiteral => ['\'', '\'', '\'']

/-- Whether a text in this form may go over several lines. -/
def isMulti : TextForm → Bool
  | multiBasic | multiLiteral => true
  | basic | literal => false

end TextForm

/-- The digit of a number below sixteen. -/
def upperHexDigit (n : Nat) : Char := if n < 10 then Char.ofNat (48 + n) else Char.ofNat (55 + n)

/-- The letter of the short escape for a control character, if there is one. -/
def shortEscape? : Char → Option Char
  | '\x08' => some 'b'
  | '\t' => some 't'
  | '\n' => some 'n'
  | '\x0c' => some 'f'
  | '\r' => some 'r'
  | '\\' => some '\\'
  | _ => none

/-- How a character other than a double quote is written with escapes. A line feed stays where the
text may go over several lines. -/
def escapeChar (multi : Bool) (c : Char) : List Char :=
  if multi && c == '\n' then ['\n']
  else
    match shortEscape? c with
    | some letter => ['\\', letter]
    | none =>
      if needsEscape c then
        ['\\', 'u', '0', '0', upperHexDigit (c.toNat / 16), upperHexDigit (c.toNat % 16)]
      else [c]

/-- A text with escapes. Where it may go over several lines two double quotes may stand side by
side, and every third one is escaped; elsewhere every one is. `run` is the number of double quotes
that stand unescaped right before. -/
def escape (multi : Bool) (run : Nat) : List Char → List Char
  | [] => []
  | c :: cs =>
    if c = '"' then
      if multi && run < 2 then '"' :: escape multi (run + 1) cs
      else '\\' :: '"' :: escape multi 0 cs
    else escapeChar multi c ++ escape multi 0 cs

/-- What stands between the quotes of a text. -/
def body (form : TextForm) (cs : List Char) : List Char :=
  match form with
  | .basic => escape false 0 cs
  | .multiBasic => escape true 0 cs
  | .literal | .multiLiteral => cs

/-- The line feed after the opening quotes of a text that goes over several lines. -/
def opening (form : TextForm) (cs : List Char) : List Char :=
  if form.isMulti && cs.contains '\n' then ['\n'] else []

/-- A text in its quotes. -/
def quoted (cs : List Char) : List Char :=
  let form := TextForm.choose cs
  form.quotes ++ opening form cs ++ body form cs ++ form.quotes

/-! ### Numbers and keys -/

/-- A number, always as a fraction. -/
def number : Numeral → List Char
  | .nan => "nan".toList
  | numeral => if numeral.isWhole then numeral.text ++ ".0".toList else numeral.text

/-- A part of a key, in quotes if it needs them. -/
def keyPart (name : String) : List Char :=
  let cs := name.toList
  if !cs.isEmpty && cs.all isBareChar then cs else quoted cs

/-- A key with points between its parts. -/
def key : Key → List Char
  | [] => []
  | [name] => keyPart name
  | name :: rest => keyPart name ++ '.' :: key rest

/-! ### Values and tables -/

mutual

/-- A value on the line of its key. -/
def inline : Data → List Char
  | .null => "nan".toList
  | .flag value => if value then "true".toList else "false".toList
  | .number value => number value
  | .text value => quoted value.toList
  | .moment written => written.toList
  | .foreign => "nan".toList
  | .list [] => ['[', ']']
  | .list (item :: items) => '[' :: inline item ++ inlineItems items ++ [']']
  | .record [] => ['\x7b', '\x7d']
  | .record ((name, value) :: fields) =>
    '\x7b' :: ' ' :: keyPart name ++ " = ".toList ++ inline value ++ inlineFields fields ++
      [' ', '\x7d']

/-- The items of an array after the first. -/
def inlineItems : List Data → List Char
  | [] => []
  | item :: items => ',' :: ' ' :: inline item ++ inlineItems items

/-- The fields of an inline table after the first. -/
def inlineFields : List (String × Data) → List Char
  | [] => []
  | (name, value) :: fields =>
    ',' :: ' ' :: keyPart name ++ " = ".toList ++ inline value ++ inlineFields fields

end

/-- The lines of the fields that are no records. -/
def assignmentLines : List (String × Data) → List Char
  | [] => []
  | (_, .record _) :: fields => assignmentLines fields
  | (name, value) :: fields =>
    keyPart name ++ " = ".toList ++ inline value ++ '\n' :: assignmentLines fields

mutual

/-- The fields of a table that are records, each under its header. -/
def tableLines (path : Key) : List (String × Data) → List Char
  | [] => []
  | (name, value) :: fields => tableLine path name value ++ tableLines path fields

/-- One field of a table under its header, if it is a record. -/
def tableLine (path : Key) (name : String) : Data → List Char
  | .record inner =>
    '\n' :: '[' :: key (path ++ [name]) ++ ']' :: '\n' :: assignmentLines inner ++
      tableLines (path ++ [name]) inner
  | _ => []

end

/-- A record as a whole text. -/
def write (fields : List (String × Data)) : String :=
  String.ofList (assignmentLines fields ++ tableLines [] fields)

end Wireframe.Toml
