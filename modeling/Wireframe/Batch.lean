import Wireframe.Disk
import Wireframe.Drawing.Svg

/-!
# Drawing files

Pages are found as text files below a directory and drawn each to a file of its own: next to the
page, or at the same place below another directory. A batch is refused before anything is written if
two of its drawings would go to the same path; otherwise its first failure ends it.
-/

namespace Wireframe

/-- Why pages were not drawn. -/
inductive BatchError
  /-- There is nothing at the path to look for pages. -/
  | notFound (path : Path)
  /-- A page could not be read. -/
  | read (path : Path) (fault : Fault)
  /-- A drawing, or the directory for it, could not be written. -/
  | write (path : Path) (fault : Fault)
  /-- Two drawings would go to the same path, the second one from the given page. -/
  | duplicateOutput (output input : Path)
  deriving DecidableEq, Repr

namespace BatchError

/-- The sentence for an error. -/
def message : BatchError → String
  | notFound path => "No such file or directory: " ++ path.text
  | read path fault => "IO error reading " ++ path.text ++ ": " ++ fault.message
  | write path fault => "IO error writing " ++ path.text ++ ": " ++ fault.message
  | duplicateOutput output input =>
    "Output " ++ output.text ++ " would be written twice (again for " ++ input.text ++ ")"

/-- The fault behind an error, if there is one. -/
def fault? : BatchError → Option Fault
  | read _ fault => some fault
  | write _ fault => some fault
  | _ => none

end BatchError

namespace Batch

/-- The extension of pages. -/
def pageExtension : String := "txt"

/-- The extension of drawings. -/
def drawingExtension : String := "svg"

/-- Where the drawing of a page goes: next to the page, or, if a directory for drawings is given, to
the page's place below the path at which the search started. A page that does not lie below that
path goes right into the directory. -/
def outputPath (input root : Path) (outDir : Option Path) : Path :=
  match outDir with
  | none => input.withExtension drawingExtension
  | some dir =>
    let relative := ((input.relativeTo? root).filter (!·.isEmpty)).or (input.fileName?.map Path.mk)
    (dir.join (relative.getD input)).withExtension drawingExtension

/-- A page to draw and the path its drawing goes to. -/
structure Job where
  input : Path
  output : Path
  deriving DecidableEq, Repr

/-- A page that has been drawn. -/
structure Rendered where
  input : Path
  output : Path
  /-- The length of the drawing in bytes. -/
  bytes : Nat
  deriving DecidableEq, Repr

/-- The jobs of a batch, in the order of its pages. -/
def jobs (inputs : List Path) (root : Path) (outDir : Option Path) : List Job :=
  inputs.map fun input => ⟨input, outputPath input root outDir⟩

/-- The first job whose drawing would go where that of an earlier one goes. -/
def duplicate? (earlier : List Path) : List Job → Option Job
  | [] => none
  | job :: rest =>
    if earlier.any (Path.same job.output) then some job
    else duplicate? (job.output :: earlier) rest

/-! ### On a disk -/

variable {m : Type → Type} [Monad m] [Disk m]

/-- The text of a page. -/
def readPage (path : Path) : m (Except BatchError String) :=
  return (← Disk.readText path).mapError (.read path)

/-- Whether the last of some names is that of a page. -/
def isPage (names : List String) : Bool :=
  (names.getLast?.bind fun name => (Path.splitName name).2) == some pageExtension

/-- The pages at a path: the path itself if it names a file, otherwise the pages below the directory
that it names, in increasing order. -/
def discover (root : Path) : m (Except BatchError (List Path)) := do
  match ← Disk.kind? root with
  | none => return .error (.notFound root)
  | some .file => return .ok [root]
  | some .directory =>
    let found ← Disk.filesBelow root
    return .ok ((found.filter isPage).map fun names => root.join ⟨Path.joined names⟩)

/-- Makes the directory that a path lies in, if it lies in one. -/
def makeParent (output : Path) : m (Except BatchError Unit) := do
  match output.parent?.filter (!·.isEmpty) with
  | none => return .ok ()
  | some parent => return (← Disk.makeDirectories parent).mapError (.write parent)

/-- Draws one page to a file and gives the length of the drawing in bytes. -/
def renderFile (theme : Theme Float) (input output : Path) : m (Except BatchError Nat) := do
  match ← readPage input with
  | .error e => return .error e
  | .ok text =>
    let drawing := Svg.ofText theme text
    match ← makeParent output with
    | .error e => return .error e
    | .ok () =>
      match ← Disk.writeText output drawing with
      | .error fault => return .error (.write output fault)
      | .ok () => return .ok drawing.utf8ByteSize

/-- Does the jobs of a batch in order, up to the first that fails. -/
def runJobs (theme : Theme Float) : List Job → m (Except BatchError (List Rendered))
  | [] => return .ok []
  | job :: rest => do
    match ← renderFile theme job.input job.output with
    | .error e => return .error e
    | .ok bytes =>
      return (← runJobs theme rest).map fun others => ⟨job.input, job.output, bytes⟩ :: others

/-- Draws a batch of pages, each to its own file. -/
def renderAll (theme : Theme Float) (inputs : List Path) (root : Path) (outDir : Option Path) :
    m (Except BatchError (List Rendered)) :=
  let all := jobs inputs root outDir
  match duplicate? [] all with
  | some job => return .error (.duplicateOutput job.output job.input)
  | none => runJobs theme all

end Batch

end Wireframe
