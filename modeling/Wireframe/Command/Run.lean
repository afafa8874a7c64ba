import Wireframe.Batch
import Wireframe.Command.Listing
import Wireframe.Command.Outcome
import Wireframe.Command.Reading
import Wireframe.Library.Builtin
import Wireframe.Library.File
import Wireframe.Naming
import Wireframe.Store.Directory
import Wireframe.Theme.File

/-!
# Running commands

What each command does on a disk, and what comes of it. Nothing but the disk and the day goes into
that, so a command can be run on a disk in memory as well.
-/

namespace Wireframe

/-! ### Failures -/

/-- A failure that comes from a batch. -/
def BatchError.failed (message : String) (e : BatchError) : Outcome :=
  .failed message (e.message :: e.fault?.toList.map Fault.message)

/-- A failure that comes from a store. -/
def StoreError.failed (message : String) (e : StoreError) : Outcome :=
  .failed message (e.message :: e.fault?.toList.map Fault.message)

/-- A failure that comes from a theme file. -/
def ThemeError.failed (message : String) (e : ThemeError) : Outcome :=
  .failed message [e.message, e.cause]

/-- A failure that comes from a disk. -/
def Fault.failed (message : String) (fault : Fault) : Outcome := .failed message [fault.message]

namespace Command

open Listing (line)

variable {m : Type → Type} [Monad m] [Disk m]

/-- Goes on with the text of a page. -/
def withPage (input : Path) (next : String → m Outcome) : m Outcome := do
  match ← Disk.readText input with
  | .error fault => return fault.failed ("Failed to read wireframe " ++ input.text)
  | .ok text => next text

/-! ### Drawing -/

/-- The sentence for a drawing that has been written. -/
def wroteLine (output : Path) (bytes : Nat) : String :=
  line ("✓ Wrote " ++ output.text ++ " (" ++ toString bytes ++ " bytes)")

/-- What is printed for drawings that have been written. -/
def wroteLines (rendered : List Batch.Rendered) : String :=
  String.join (rendered.map fun page => wroteLine page.output page.bytes) ++
    if 1 < rendered.length then
      line ("\n✓ Rendered " ++ toString rendered.length ++ " wireframes")
    else ""

/-- Draws one page to a given file. -/
def renderTo (theme : Theme Float) (input output : Path) : m Outcome := do
  if ← Disk.isFile input then
    match ← Batch.renderFile theme input output with
    | .error e => return e.failed ("Failed to render " ++ input.text)
    | .ok bytes => return .success (wroteLine output bytes)
  else
    return .refusal ("An output path can only be given for a single input file; " ++
      "use --out-dir for directories")

/-- Draws all pages at a path. -/
def renderFound (theme : Theme Float) (input : Path) (outDir : Option Path) : m Outcome := do
  match ← Batch.discover input with
  | .error e => return e.failed ("Failed to find wireframes in " ++ input.text)
  | .ok [] => return .success (line ("No .txt wireframes found in " ++ input.text))
  | .ok pages =>
    match ← Batch.renderAll theme pages input outDir with
    | .error e => return e.failed "Failed to render wireframes"
    | .ok rendered => return .success (wroteLines rendered)

/-- Draws a page to a given file, or all pages at a path. -/
def renderWith (theme : Theme Float) (input : Path) (output outDir : Option Path) : m Outcome :=
  match output with
  | some output => renderTo theme input output
  | none => renderFound theme input outDir

/-- Draws pages with the theme of a file, or with the standard one. -/
def runRender (input : Path) (output themeFile outDir : Option Path) : m Outcome := do
  match themeFile with
  | none => renderWith .standard input output outDir
  | some path =>
    match ← Theme.load path with
    | .error e => return e.failed ("Failed to load render config " ++ path.text)
    | .ok theme => renderWith theme input output outDir

/-! ### Looking at a page -/

/-- What comes of checking a page. -/
def reportOutcome (input : Path) (format : ReportFormat) (strict : Bool)
    (diagnostics : List Diagnostic) : Outcome :=
  { printed := Listing.report format input diagnostics
    failure? :=
      if strict && !diagnostics.isEmpty then
        some ⟨toString diagnostics.length ++ " accessibility issue(s) found", []⟩
      else none }

/-- Checks a page. -/
def runValidate (input : Path) (format : ReportFormat) (strict : Bool) : m Outcome :=
  withPage input fun text => return reportOutcome input format strict (check text)

/-- Shows how a page is highlighted. -/
def runHighlight (input : Path) (html : Bool) : m Outcome :=
  withPage input fun text =>
    return .success (if html then line (Highlight.markup text) else Listing.categories text)

/-! ### Copies of a page -/

/-- Writes or prints the prompt for a page. -/
def runWrap (input : Path) (target : PromptTarget) (output : Option Path) : m Outcome :=
  withPage input fun text => do
    let prompt := target.wrap text
    match output with
    | none => return .success prompt
    | some path =>
      match ← Disk.writeText path prompt with
      | .error fault => return fault.failed ("Failed to write " ++ path.text)
      | .ok () =>
        return .success (line ("✓ Wrote " ++ target.name ++ " prompt to " ++ path.text))

/-- Saves a page in a directory under its own name. -/
def runSave (today : Naming.Day) (input dir : Path) : m Outcome :=
  withPage input fun text => do
    let copy := Naming.download text today
    match ← Disk.makeDirectories dir with
    | .error fault => return fault.failed ("Failed to create directory " ++ dir.text)
    | .ok () =>
      let path := dir.join ⟨copy.fileName⟩
      match ← Disk.writeText path copy.content with
      | .error fault => return fault.failed ("Failed to write " ++ path.text)
      | .ok () => return .success (line ("✓ Saved " ++ path.text))

/-! ### Stores -/

/-- The identifier for a page: the given one, or the one that its name gives. -/
def storeId (input : Path) (id : Option String) (text : String) : String :=
  id.getD (Naming.importId text (input.stem?.getD ""))

/-- Keeps a page in a store. -/
def runStoreSave (store : DirectoryStore) (input : Path) (id : Option String) : m Outcome :=
  withPage input fun text => do
    let id := storeId input id text
    match ← store.save id text with
    | .error e => return e.failed ("Failed to store " ++ input.text)
    | .ok () => return .success (line ("✓ Stored '" ++ id ++ "' in " ++ store.root.text))

/-- Prints a page of a store. -/
def runStoreLoad (store : DirectoryStore) (id : String) : m Outcome := do
  match ← store.load id with
  | .error e => return e.failed ("Failed to load '" ++ id ++ "'")
  | .ok content => return .success content

/-- Prints the identifiers of a store. -/
def runStoreList (store : DirectoryStore) : m Outcome := do
  match ← store.list with
  | .error e => return e.failed "Failed to list stored documents"
  | .ok [] => return .success (line ("No documents in " ++ store.root.text))
  | .ok ids => return .success (Text.wholeLines ids)

/-- Does something with a store. -/
def runStore (root : Path) : StoreAction → m Outcome
  | .save input id => runStoreSave ⟨root⟩ input id
  | .load id => runStoreLoad ⟨root⟩ id
  | .list => runStoreList ⟨root⟩

/-! ### Patterns -/

/-- What comes of asking for one pattern of a library, or for all. -/
def patternsOutcome (library : Library) : Option String → Outcome
  | none => .success (Listing.library library)
  | some id =>
    match library.find? id with
    | some pattern => .success pattern.syntaxText
    | none =>
      .refusal ("Pattern '" ++ id ++ "' not found. Run 'wiretext patterns' to list them")

/-- Shows the patterns of a library file, or the built-in ones. -/
def runPatterns (library : Option Path) (shown : Option String) : m Outcome := do
  match library with
  | none => return patternsOutcome .builtin shown
  | some path => return patternsOutcome (← Library.loadOrEmpty path) shown

/-! ### All commands -/

/-- Does what a command says. -/
def run (today : Naming.Day) : Command → m Outcome
  | .render input output theme outDir => runRender input output theme outDir
  | .validate input format strict => runValidate input format strict
  | .highlight input html => runHighlight input html
  | .wrap input target output => runWrap input target output
  | .save input dir => runSave today input dir
  | .store root action => runStore root action
  | .patterns library shown => runPatterns library shown

end Command

namespace Invocation

/-- Does what a line of words asks for. -/
def answer {m : Type → Type} [Monad m] [Disk m] (today : Naming.Day) : Invocation → m Outcome
  | .version => return .success (Listing.line Svg.generator)
  | .run command => command.run today

end Invocation

end Wireframe
