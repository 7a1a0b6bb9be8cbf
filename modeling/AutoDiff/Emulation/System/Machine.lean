import AutoDiff.Disk
import AutoDiff.Host.Status

/-!
A machine on which programs run: its disk, and the files and buffers that are open. A program has streams,
which are numbers for open files: 0 to read from, 1 for its output, 2 for its errors.
-/

namespace AutoDiff

/-- What an open file leads to. -/
inductive Channel where
  | sink
  /-- `worded` is false if something was written whose wording is not known. -/
  | buffer (content : Content) (worded : Bool)
  | file (l : Location)

structure OpenFile where
  channel : Channel
  position : Nat := 0
  append : Bool := false

structure Machine where
  disk : Disk
  opened : Array OpenFile := #[]

abbrev Streams := List (Nat × Nat)

/-- A program that was started. -/
structure Call where
  name : ByteText
  arguments : List ByteText
  environment : List (ByteText × ByteText)
  directory : Location
  streams : Streams

/-- How a file is opened. -/
inductive Opening where
  | read | truncate | append | update
  /-- To be written, if it is not there yet. -/
  | create
  deriving DecidableEq, Repr

abbrev Running := StateM Machine

/-- Starts the program at a path and waits for its end. -/
abbrev Spawner := (path : ByteText) → Call → Running (Except IoError ExitStatus)

namespace Machine

def add (m : Machine) (f : OpenFile) : Nat × Machine := (m.opened.size, { m with opened := m.opened.push f })

def openBuffer (m : Machine) (content : Content) : Nat × Machine := m.add { channel := .buffer content true }

/-- What stands in an open file after its position. -/
def remaining (m : Machine) (id : Nat) : Content :=
  match m.opened[id]? with
  | none => .empty
  | some f =>
    let rest (c : Content) : Content := if f.position = 0 then c else .ofByteText (c.byteText.drop f.position)
    match f.channel with
    | .sink => .empty
    | .buffer content _ => rest content
    | .file l =>
      match m.disk.entry? l with
      | some (.file content _) => rest content
      | _ => .empty

def advance (m : Machine) (id count : Nat) : Machine :=
  { m with opened := m.opened.modify id fun f => { f with position := f.position + count } }

/-- All that is left to read. -/
def drain (m : Machine) (id : Nat) : Content × Machine :=
  let content := m.remaining id
  (content, m.advance id content.byteText.length)

/-- `addition` in place of what stood at `position`; a gap before it is filled with zeros. -/
def overwrite (content addition : Content) (position : Nat) : Content :=
  let before := content.byteText
  if position = before.length then content.append addition
  else
    let addition := addition.byteText
    .ofByteText (before.take position ++ List.replicate (position - before.length) '\x00' ++ addition
      ++ before.drop (position + addition.length))

def send (m : Machine) (id : Nat) (addition : Content) : Machine :=
  match m.opened[id]? with
  | none => m
  | some f =>
    match f.channel with
    | .sink => m
    | .buffer content worded =>
      { m with opened := m.opened.set! id { f with channel := .buffer (content.append addition) worded } }
    | .file l =>
      match m.disk.entry? l with
      | some (.file content _) =>
        let position := if f.append then content.byteText.length else f.position
        { disk := m.disk.put l (overwrite content addition position)
          opened := m.opened.set! id { f with position := position + addition.byteText.length } }
      | _ => m

/-- Notes that something was written whose wording is not known. -/
def blur (m : Machine) (id : Nat) : Machine :=
  { m with opened := m.opened.modify id fun f =>
      match f.channel with
      | .buffer content _ => { f with channel := .buffer content false }
      | _ => f }

/-- What was written to a buffer, if its wording is known. -/
def collected? (m : Machine) (id : Nat) : Option ByteText :=
  match m.opened[id]? with
  | some { channel := .buffer content true, .. } => some content.byteText
  | _ => none

def openAt (m : Machine) (l : Location) (how : Opening) : Except IoError (Nat × Machine) :=
  match m.disk.entry? l, how with
  | some .sink, _ => .ok (m.add { channel := .sink })
  | some .directory, .read => .ok (m.add { channel := .sink })
  | some .directory, .create => .error .alreadyExists
  | some .directory, _ => .error .isDirectory
  | some (.file _ _), .create => .error .alreadyExists
  | some (.file _ _), .truncate => .ok ({ m with disk := m.disk.put l .empty }.add { channel := .file l })
  | some (.file _ _), .append => .ok (m.add { channel := .file l, append := true })
  | some (.file _ _), .read | some (.file _ _), .update => .ok (m.add { channel := .file l })
  | none, .read => .error .notFound
  | none, _ => do
    m.disk.checkParent l
    return { m with disk := m.disk.put l .empty }.add { channel := .file l, append := how == Opening.append }

def openFile (m : Machine) (directory : Location) (p : ByteText) (how : Opening) : Except IoError (Nat × Machine) := do
  m.openAt (← m.disk.locate directory ⟨p.text⟩) how

end Machine

namespace Call

def stream? (c : Call) (number : Nat) : Option Nat := c.streams.lookup number

def write (c : Call) (number : Nat) (addition : Content) : Running Unit :=
  match c.stream? number with
  | some id => modify (·.send id addition)
  | none => pure ()

def print (c : Call) (t : ByteText) : Running Unit := c.write 1 (.ofByteText t)

def printError (c : Call) (t : ByteText) : Running Unit := c.write 2 (.ofByteText t)

/-- Writes an error under the name of the program. -/
def complain (c : Call) (message : ByteText) : Running Unit :=
  c.printError (c.name ++ [':', ' '] ++ message ++ ['\n'])

def complainText (c : Call) (message : String) : Running Unit := c.complain (.ofString message)

/-- Writes words that are not known. -/
def mumbleTo (c : Call) (number : Nat) : Running Unit :=
  match c.stream? number with
  | some id => modify (·.blur id)
  | none => pure ()

def mumble (c : Call) : Running Unit := c.mumbleTo 2

def readAll (c : Call) : Running Content :=
  match c.stream? 0 with
  | some id => modifyGet (·.drain id)
  | none => pure .empty

def path (p : ByteText) : Path := ⟨p.text⟩

def find (c : Call) (m : Machine) (p : ByteText) : Except IoError Entry := m.disk.find c.directory (path p)

/-- A step on the disk, or why it is refused. -/
def act (step : Disk → Except IoError Disk) : Running (Except IoError Unit) := fun m =>
  match step m.disk with
  | .ok disk => (.ok (), { m with disk })
  | .error e => (.error e, m)

end Call

end AutoDiff
