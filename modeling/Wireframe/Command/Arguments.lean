/-!
# Arguments

How a line of words is taken apart into options and operands. What is understood is laid down by a
*level*: its options, its operands in order, and the names that lead to a level below. Words are
taken one after another; the first that does not fit ends everything.

An option is written `--name` or, if it has a letter, `-n`. Its value follows as the next word,
behind `=`, or right behind the letter; letters of options without a value may stand together behind
one hyphen. A lone hyphen is an ordinary word. After `--` every word is an operand.
-/

namespace Wireframe

/-- What words do not fit. -/
inductive UsageError
  /-- No option is written like that. -/
  | unknownOption (written : String)
  /-- An option that takes no value is given one. -/
  | surplusValue (option : String)
  /-- An option is not followed by its value. -/
  | missingValue (option : String)
  /-- A value is not one of those that are understood. -/
  | unfitValue (place value : String)
  /-- An option is given twice. -/
  | repeatedOption (option : String)
  /-- There are more operands than are understood. -/
  | surplusOperand (word : String)
  /-- An operand is missing. -/
  | missingOperand (operand : String)
  /-- An option is missing that has to be given. -/
  | missingOption (option : String)
  /-- The name of what is to be done is missing. -/
  | missingCommand
  deriving DecidableEq, Repr

namespace UsageError

/-- The sentence for an error. -/
def message : UsageError → String
  | unknownOption written => "unexpected argument '" ++ written ++ "'"
  | surplusValue option => "unexpected value for '--" ++ option ++ "'"
  | missingValue option => "a value is required for '--" ++ option ++ "'"
  | unfitValue place value => "invalid value '" ++ value ++ "' for '" ++ place ++ "'"
  | repeatedOption option => "'--" ++ option ++ "' cannot be used multiple times"
  | surplusOperand word => "unexpected argument '" ++ word ++ "'"
  | missingOperand operand => "'" ++ operand ++ "' is required"
  | missingOption option => "'--" ++ option ++ "' is required"
  | missingCommand => "a command is required"

end UsageError

namespace Arguments

/-! ### What is understood -/

/-- What may stand as a value. -/
inductive ValueKind
  /-- Any text. -/
  | text
  /-- Any path; the empty text is none. -/
  | path
  /-- One of some words. -/
  | word (choices : List String)
  deriving DecidableEq, Repr

/-- Whether a text may stand as a value. -/
def ValueKind.accepts : ValueKind → String → Bool
  | text, _ => true
  | path, value => value != ""
  | word choices, value => choices.contains value

/-- What an option does. -/
inductive OptionKind
  /-- It says yes, and may be given once. -/
  | switch
  /-- It takes a value, and may be given once. -/
  | setting (kind : ValueKind)
  /-- It may be given any number of times. -/
  | counter
  /-- It asks for the version of the program, whatever else follows. -/
  | version
  deriving DecidableEq, Repr

/-- An option with the ways it is written. -/
structure OptionRule where
  /-- The name, written behind two hyphens. -/
  name : String
  /-- The letter, written behind one hyphen. -/
  letter? : Option Char
  kind : OptionKind
  deriving DecidableEq, Repr

/-- A word that is expected in its place. -/
structure OperandRule where
  name : String
  kind : ValueKind
  deriving DecidableEq, Repr

/-- What is understood at one place of a line. -/
structure Level where
  options : List OptionRule
  operands : List OperandRule
  /-- The names that lead to a level below. -/
  commands : List String

namespace Level

/-- The option of a given name. -/
def named? (level : Level) (name : String) : Option OptionRule :=
  level.options.find? (·.name == name)

/-- The option of a given letter. -/
def lettered? (level : Level) (letter : Char) : Option OptionRule :=
  level.options.find? (·.letter? == some letter)

end Level

/-! ### What is given -/

/-- What has been given so far. -/
structure Given where
  /-- Names and values of the options, of the empty text where there is no value; latest first. -/
  options : List (String × String)
  /-- The operands, latest first. -/
  operands : List String
  deriving DecidableEq, Repr

namespace Given

/-- Nothing. -/
def nothing : Given := ⟨[], []⟩

/-- Whether an option is given. -/
def has (given : Given) (name : String) : Bool := (given.options.lookup name).isSome

/-- The value that is given for an option. -/
def value? (given : Given) (name : String) : Option String := given.options.lookup name

/-- The operand in a place, counted from zero. -/
def operand? (given : Given) (place : Nat) : Option String := given.operands.reverse[place]?

/-- Takes in an option with a value. -/
def withOption (given : Given) (name value : String) : Given :=
  { given with options := (name, value) :: given.options }

/-- Takes in an operand. -/
def withOperand (given : Given) (word : String) : Given :=
  { given with operands := word :: given.operands }

end Given

/-- How the words of a level end. -/
inductive Ending
  /-- With the last word. -/
  | done (given : Given)
  /-- With a name that leads to a level below, and the words for that. -/
  | command (given : Given) (name : String) (rest : List String)
  /-- With the question for the version. -/
  | version
  deriving DecidableEq, Repr

/-! ### Taking words -/

/-- Takes in an option that stands without a value. -/
def takeBare (given : Given) (rule : OptionRule) : Except UsageError Given :=
  if given.has rule.name && rule.kind != .counter then .error (.repeatedOption rule.name)
  else .ok (given.withOption rule.name "")

/-- Takes in the value of an option. -/
def takeValue (given : Given) (rule : OptionRule) (kind : ValueKind) (value : String) :
    Except UsageError Given :=
  if !kind.accepts value then .error (.unfitValue ("--" ++ rule.name) value)
  else if given.has rule.name then .error (.repeatedOption rule.name)
  else .ok (given.withOption rule.name value)

/-- Takes in an operand. -/
def takeOperand (level : Level) (given : Given) (word : String) : Except UsageError Given :=
  match level.operands[given.operands.length]? with
  | none => .error (.surplusOperand word)
  | some rule =>
    if rule.kind.accepts word then .ok (given.withOperand word)
    else .error (.unfitValue rule.name word)

/-- What comes of a word with options in it. -/
inductive Step
  /-- The word is complete. -/
  | taken (given : Given)
  /-- The next word is the value of the option at the end. -/
  | awaits (given : Given) (rule : OptionRule) (kind : ValueKind)
  /-- The word asks for the version. -/
  | version
  deriving DecidableEq, Repr

/-- Takes an option by its name, with the value that is attached to it, if there is one. -/
def takeNamed (level : Level) (given : Given) (name : String) (attached : Option String) :
    Except UsageError Step :=
  match level.named? name with
  | none => .error (.unknownOption ("--" ++ name))
  | some rule =>
    match rule.kind, attached with
    | .setting kind, some value => (takeValue given rule kind value).map .taken
    | .setting kind, none => .ok (.awaits given rule kind)
    | _, some _ => .error (.surplusValue name)
    | .version, none => .ok .version
    | _, none => (takeBare given rule).map .taken

/-- The value that is attached to a letter, if there is one; an equals sign in front of it does not
belong to it. -/
def attachedValue? : List Char → Option String
  | [] => none
  | '=' :: value => some (String.ofList value)
  | value => some (String.ofList value)

/-- Takes options by their letters. -/
def takeLetters (level : Level) (given : Given) : List Char → Except UsageError Step
  | [] => .ok (.taken given)
  | letter :: rest =>
    match level.lettered? letter with
    | none => .error (.unknownOption (String.ofList ['-', letter]))
    | some rule =>
      match rule.kind, attachedValue? rest with
      | .setting kind, some value => (takeValue given rule kind value).map .taken
      | .setting kind, none => .ok (.awaits given rule kind)
      | .version, _ => .ok .version
      | _, _ =>
        match takeBare given rule with
        | .error e => .error e
        | .ok given => takeLetters level given rest

/-- What a word is by the way it is written. -/
inductive Form
  /-- Two hyphens: the end of the options. -/
  | endOfOptions
  /-- An option by its name, with the value attached to it. -/
  | named (name : String) (attached : Option String)
  /-- Options by their letters. -/
  | lettered (letters : List Char)
  /-- Any other word. -/
  | plain
  deriving DecidableEq, Repr

/-- The name and the attached value behind two hyphens. -/
def splitNamed (written : List Char) : Form :=
  let name := String.ofList (written.takeWhile (· != '='))
  match written.dropWhile (· != '=') with
  | [] => .named name none
  | _ :: value => .named name (some (String.ofList value))

/-- What a word is. -/
def formOf (word : String) : Form :=
  match word.toList with
  | ['-', '-'] => .endOfOptions
  | '-' :: '-' :: written => splitNamed written
  | ['-'] => .plain
  | '-' :: letters => .lettered letters
  | _ => .plain

/-- Takes words that are operands all of them. -/
def takeOperands (level : Level) (given : Given) : List String → Except UsageError Ending
  | [] => .ok (.done given)
  | word :: rest =>
    match takeOperand level given word with
    | .error e => .error e
    | .ok given => takeOperands level given rest

/-- Takes the words of a level one after another. `awaited` is the option whose value the next word
is to be, if there is one. -/
def takeWords (level : Level) :
    Given → Option (OptionRule × ValueKind) → List String → Except UsageError Ending
  | given, none, [] => .ok (.done given)
  | _, some (rule, _), [] => .error (.missingValue rule.name)
  | given, awaited, word :: rest =>
    if awaited.isNone && level.commands.contains word then .ok (.command given word rest)
    else
      match formOf word, awaited with
      | .plain, none =>
        match takeOperand level given word with
        | .error e => .error e
        | .ok given => takeWords level given none rest
      | .plain, some (rule, kind) =>
        match takeValue given rule kind word with
        | .error e => .error e
        | .ok given => takeWords level given none rest
      | _, some (rule, _) => .error (.missingValue rule.name)
      | .endOfOptions, none => takeOperands level given rest
      | .named name attached, none =>
        match takeNamed level given name attached with
        | .error e => .error e
        | .ok .version => .ok .version
        | .ok (.taken given) => takeWords level given none rest
        | .ok (.awaits given rule kind) => takeWords level given (some (rule, kind)) rest
      | .lettered letters, none =>
        match takeLetters level given letters with
        | .error e => .error e
        | .ok .version => .ok .version
        | .ok (.taken given) => takeWords level given none rest
        | .ok (.awaits given rule kind) => takeWords level given (some (rule, kind)) rest

/-- Takes the words of a level. -/
def take (level : Level) (words : List String) : Except UsageError Ending :=
  takeWords level .nothing none words

end Arguments

end Wireframe
