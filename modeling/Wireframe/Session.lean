import Wireframe.Volume

/-!
# Sessions

A program at work on a volume, with a system that may refuse any step for reasons of its own: a
right is missing, a device is broken, a disk is full. What the system will say is a list of its
answers to the steps to come, which no program can look at.

A file is written in two steps. First it is opened, which makes it or leaves nothing of what it
held, and then the bytes are put into it from the front. If the system stops a write, the file is
left with the bytes that it had got by then.
-/

namespace Wireframe

/-- What a system says to a step. -/
inductive Luck
  /-- The step is taken if the volume lets it. -/
  | granted
  /-- The step is not taken. -/
  | refused (fault : Fault)
  /-- If the step is a write, it is stopped after so many bytes; otherwise it is not taken. -/
  | stopped (count : Nat) (fault : Fault)
  deriving DecidableEq, Repr

/-- A volume, and what the system will say to the next steps. -/
structure Session where
  volume : Volume
  /-- Behind the end of the list every step is granted. -/
  luck : List Luck

namespace Session

/-- What the system says to a step, and the session for the steps behind it. -/
def next (s : Session) : Luck × Session :=
  match s.luck with
  | [] => (.granted, s)
  | luck :: rest => (luck, { s with luck := rest })

/-- A step that only looks at the volume. -/
def ask {β : Type} (s : Session) (answer : Volume → Except Fault β) : Except Fault β × Session :=
  match s.next with
  | (.granted, s) => (answer s.volume, s)
  | (.refused fault, s) | (.stopped _ fault, s) => (.error fault, s)

/-- Makes one directory. -/
def makeDirectory (s : Session) (path : Path) : Except Fault Unit × Session :=
  match s.next with
  | (.granted, s) =>
    let made := s.volume.makeDirectory path
    (made.1, { s with volume := made.2 })
  | (.refused fault, s) | (.stopped _ fault, s) => (.error fault, s)

/-- How a write of some bytes goes on once the file can be opened: what is answered, and the bytes
that the file is left with. A write that has put all bytes is not stopped any more. -/
def outcome (bytes : ByteArray) : Luck → Except Fault Unit × Option ByteArray
  | .granted => (.ok (), some bytes)
  | .refused fault => (.error fault, none)
  | .stopped count fault =>
    if count < bytes.size then (.error fault, some (bytes.extract 0 count))
    else (.ok (), some bytes)

/-- Makes a file or replaces its bytes. -/
def writeBytes (s : Session) (path : Path) (bytes : ByteArray) : Except Fault Unit × Session :=
  let (luck, s) := s.next
  match outcome bytes luck with
  | (answer, none) => (answer, s)
  | (answer, some left) =>
    match s.volume.target path with
    | .error fault => (.error fault, s)
    | .ok location => (answer, { s with volume := s.volume.write location left })

instance : Disk (StateM Session) where
  kind? path := fun s =>
    match s.ask fun volume => .ok (volume.kind? path) with
    | (.ok kind, s) => (kind, s)
    | (.error _, s) => (none, s)
  readBytes path := fun s => s.ask (·.readBytes path)
  writeBytes path bytes := fun s => s.writeBytes path bytes
  makeDirectory path := fun s => s.makeDirectory path
  names path := fun s => s.ask (·.names path)
  filesBelow path := fun s =>
    match s.ask fun volume => .ok (volume.filesBelow path) with
    | (.ok found, s) => (found, s)
    | (.error _, s) => ([], s)

end Session

end Wireframe
