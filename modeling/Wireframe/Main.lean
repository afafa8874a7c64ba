import Std.Time.DateTime
import Wireframe.Command.Reading
import Wireframe.Command.Run

/-!
# The program

The command line: the disk of the system, the day, and the words of the line. What is printed goes
to the standard output and what is wrong to the standard error. The program ends with 0 if all went
well, with 1 if a command failed, and with 2 if the words make no sense.
-/

namespace Wireframe.Host

/-! ### The disk of the system -/

/-- The number that the system gives an error, and its words for it. -/
def codeAndWords : IO.Error → Option (UInt32 × String)
  | .alreadyExists _ code words => some (code, words)
  | .otherError code words => some (code, words)
  | .resourceBusy code words => some (code, words)
  | .resourceVanished code words => some (code, words)
  | .unsupportedOperation code words => some (code, words)
  | .hardwareFault code words => some (code, words)
  | .unsatisfiedConstraints code words => some (code, words)
  | .illegalOperation code words => some (code, words)
  | .protocolError code words => some (code, words)
  | .timeExpired code words => some (code, words)
  | .interrupted _ code words => some (code, words)
  | .noFileOrDirectory _ code words => some (code, words)
  | .invalidArgument _ code words => some (code, words)
  | .permissionDenied _ code words => some (code, words)
  | .resourceExhausted _ code words => some (code, words)
  | .inappropriateType _ code words => some (code, words)
  | .noSuchThing _ code words => some (code, words)
  | .unexpectedEof => none
  | .userError _ => none

/-- The fault that an error of the system is. -/
def faultOf (e : IO.Error) : Fault :=
  match codeAndWords e with
  | some (2, _) => .notFound
  | some (17, _) => .alreadyExists
  | some (20, _) => .notDirectory
  | some (21, _) => .isDirectory
  | some (code, words) => .other (words ++ " (os error " ++ toString code ++ ")")
  | none => .other (toString e)

/-- Runs a step on the disk of the system. -/
def attempt {α : Type} (step : IO α) : IO (Except Fault α) := do
  match ← step.toBaseIO with
  | .ok value => return .ok value
  | .error e => return .error (faultOf e)

/-- The location that a path names. -/
def locate (path : Path) := (IO.FS.DirEntry.mk path.text "").root

/-- What a path names, if anything. -/
def kind? (path : Path) : IO (Option Kind) := do
  if ← (locate path).isDir then return some .directory
  else if ← (locate path).pathExists then return some .file
  else return none

/-- The names in a directory, in increasing order. -/
def names (path : Path) : IO (List String) := do
  let entries ← (locate path).readDir
  return (entries.toList.map (·.fileName)).mergeSort fun a b => decide (a ≤ b)

/-- The files below a directory, each by the names that lead to it. -/
partial def filesBelow (path : Path) : IO (List (List String)) := do
  let mut found := []
  for name in ← names path do
    let inner := path.join ⟨name⟩
    match ← kind? inner with
    | some .directory => found := found ++ (← filesBelow inner).map (name :: ·)
    | some .file => found := found ++ [[name]]
    | none => pure ()
  return found

instance : Disk IO where
  kind? := kind?
  readBytes path := attempt do (← IO.FS.Handle.mk (locate path) .read).readBinToEnd
  writeBytes path bytes := attempt (IO.FS.writeBinFile (locate path) bytes)
  makeDirectory path := attempt (IO.FS.createDir (locate path))
  names path := attempt (names path)
  filesBelow path := filesBelow path <|> pure []

/-! ### The day -/

/-- The day, by universal time. -/
def today : IO Naming.Day := do
  let now := Std.Time.DateTime.ofTimestampWithZone (← Std.Time.Timestamp.now) .UTC
  return ⟨now.year.toInt, now.month.val.toNat, now.day.val.toNat⟩

/-! ### The line -/

/-- Does what the words of the command line say. -/
def start (words : List String) : IO UInt32 := do
  match Invocation.read words with
  | .error e =>
    IO.eprintln ("error: " ++ e.message)
    return 2
  | .ok invocation =>
    let outcome ← invocation.answer (← today)
    IO.print outcome.printed
    if let some failure := outcome.failure? then
      IO.eprint failure.report
    return outcome.exitCode.toUInt32

end Wireframe.Host

/-- The program. -/
def main (words : List String) : IO UInt32 := Wireframe.Host.start words
