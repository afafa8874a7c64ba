import Wireframe.Command
import Wireframe.Command.Arguments

/-!
# Reading commands

The line of words that a command is written as. The first word that is not an option names what is
to be done, and so does a second one for stores; options of what is to be done stand behind its
name. The option that asks for more messages may stand anywhere.
-/

namespace Wireframe

/-- What a line of words asks for. -/
inductive Invocation
  /-- The version of the program. -/
  | version
  /-- To do something. -/
  | run (command : Command)
  deriving DecidableEq, Repr

namespace Command

open Arguments

/-! ### Levels -/

/-- The option that asks for more messages. -/
def verbose : OptionRule := ⟨"verbose", some 'v', .counter⟩

/-- The option that asks for the version of the program. -/
def version : OptionRule := ⟨"version", some 'V', .version⟩

/-- The operand that names a page. -/
def inputOperand : OperandRule := ⟨"<INPUT>", .path⟩

/-- A level at which something is done. -/
def leaf (options : List OptionRule) (operands : List OperandRule) : Level :=
  ⟨verbose :: options, operands, []⟩

/-- Where a line starts. -/
def topLevel : Level where
  options := [verbose, version]
  operands := []
  commands := ["render", "validate", "highlight", "export", "save", "store", "patterns"]

/-- Drawing. -/
def renderLevel : Level :=
  leaf [⟨"config", some 'c', .setting .path⟩, ⟨"out-dir", none, .setting .path⟩]
    [inputOperand, ⟨"[OUTPUT]", .path⟩]

/-- Checking. -/
def validateLevel : Level :=
  leaf [⟨"format", some 'f', .setting (.word (ReportFormat.all.map ReportFormat.name))⟩,
      ⟨"strict", none, .switch⟩]
    [inputOperand]

/-- Highlighting. -/
def highlightLevel : Level := leaf [⟨"html", none, .switch⟩] [inputOperand]

/-- Making a prompt. -/
def wrapLevel : Level :=
  leaf [⟨"target", some 't', .setting (.word (PromptTarget.all.map PromptTarget.name))⟩,
      ⟨"output", some 'o', .setting .path⟩]
    [inputOperand]

/-- Saving. -/
def saveLevel : Level := leaf [⟨"dir", some 'd', .setting .path⟩] [inputOperand]

/-- Stores. -/
def storeLevel : Level where
  options := [verbose, ⟨"root", some 'r', .setting .path⟩]
  operands := []
  commands := ["save", "load", "list"]

/-- Keeping a page in a store. -/
def storeSaveLevel : Level := leaf [⟨"id", none, .setting .text⟩] [inputOperand]

/-- Printing a page of a store. -/
def storeLoadLevel : Level := leaf [] [⟨"<ID>", .text⟩]

/-- Listing a store. -/
def storeListLevel : Level := leaf [] []

/-- Showing snippets. -/
def patternsLevel : Level :=
  leaf [⟨"library", some 'l', .setting .path⟩, ⟨"show", none, .setting .text⟩] []

/-! ### From words to commands -/

/-- A path that is given by an option. -/
def path? (given : Given) (option : String) : Option Path := (given.value? option).map Path.mk

/-- The operand in a place, which must be there. -/
def operand (given : Given) (place : Nat) (name : String) : Except UsageError String :=
  match given.operand? place with
  | some word => .ok word
  | none => .error (.missingOperand name)

/-- The operand that names a page. -/
def input (given : Given) : Except UsageError Path := (operand given 0 "<INPUT>").map Path.mk

/-- Takes the words of a level at which something is done. -/
def takeLeaf (level : Level) (words : List String) : Except UsageError Given :=
  match take level words with
  | .error e => .error e
  | .ok (.done given) => .ok given
  | .ok (.command _ name _) => .error (.surplusOperand name)
  | .ok .version => .error (.unknownOption "--version")

/-- The command that draws pages. -/
def readRender (words : List String) : Except UsageError Command := do
  let given ← takeLeaf renderLevel words
  return render (← input given) ((given.operand? 1).map Path.mk) (path? given "config")
    (path? given "out-dir")

/-- The command that checks a page. -/
def readValidate (words : List String) : Except UsageError Command := do
  let given ← takeLeaf validateLevel words
  return validate (← input given)
    (((given.value? "format").bind ReportFormat.ofName?).getD .text) (given.has "strict")

/-- The command that highlights a page. -/
def readHighlight (words : List String) : Except UsageError Command := do
  let given ← takeLeaf highlightLevel words
  return highlight (← input given) (given.has "html")

/-- The command that makes a prompt. -/
def readWrap (words : List String) : Except UsageError Command := do
  let given ← takeLeaf wrapLevel words
  match (given.value? "target").bind PromptTarget.ofName? with
  | some target => return wrap (← input given) target (path? given "output")
  | none => throw (.missingOption "target")

/-- The command that saves a page. -/
def readSave (words : List String) : Except UsageError Command := do
  let given ← takeLeaf saveLevel words
  return save (← input given) ((path? given "dir").getD ⟨"."⟩)

/-- What is to be done with a store. -/
def readStoreAction (name : String) (words : List String) : Except UsageError StoreAction := do
  if name == "save" then
    let given ← takeLeaf storeSaveLevel words
    return .save (← input given) (given.value? "id")
  else if name == "load" then
    let given ← takeLeaf storeLoadLevel words
    return .load (← operand given 0 "<ID>")
  else
    let _ ← takeLeaf storeListLevel words
    return .list

/-- The command for a store. -/
def readStore (words : List String) : Except UsageError Command := do
  match ← take storeLevel words with
  | .done _ => throw .missingCommand
  | .version => throw (.unknownOption "--version")
  | .command given name rest =>
    return store ((path? given "root").getD ⟨".wiretext"⟩) (← readStoreAction name rest)

/-- The command that shows snippets. -/
def readPatterns (words : List String) : Except UsageError Command := do
  let given ← takeLeaf patternsLevel words
  return patterns (path? given "library") (given.value? "show")

/-- The command of a given name, with the words behind the name. -/
def readNamed (name : String) (words : List String) : Except UsageError Command :=
  if name == "render" then readRender words
  else if name == "validate" then readValidate words
  else if name == "highlight" then readHighlight words
  else if name == "export" then readWrap words
  else if name == "save" then readSave words
  else if name == "store" then readStore words
  else readPatterns words

end Command

/-- What a line of words asks for. -/
def Invocation.read (words : List String) : Except UsageError Invocation := do
  match ← Arguments.take Command.topLevel words with
  | .done _ => throw .missingCommand
  | .version => return .version
  | .command _ name rest => return .run (← Command.readNamed name rest)

end Wireframe
