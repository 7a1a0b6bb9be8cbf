import AutoDiff.Emulation.Shell.Syntax
import AutoDiff.Emulation.System.Machine
import AutoDiff.Emulation.System.Format

namespace AutoDiff.Shell

structure Variable where
  value : Option ByteText
  exported : Bool := false
  readOnly : Bool := false

structure State where
  machine : Machine
  /-- The name of the script. -/
  name : ByteText
  arguments : List ByteText := []
  /-- The line of the command that runs, and the builtin that it is. -/
  line : Nat := 0
  builtin : Option ByteText := none
  bindings : List (ByteText × Variable) := []
  functions : List (ByteText × Command) := []
  /-- Commands by the number of the signal that they wait for; 0 is the end of the script. -/
  traps : List (Nat × ByteText) := []
  /-- Signals that came and wait for a command to end. -/
  signals : List Nat := []
  options : List Char := []
  status : Nat := 0
  /-- The status of the last substitution in a command. -/
  substituted : Nat := 0
  streams : Streams
  directory : Location
  texts : List (Nat × Word) := []
  /-- The values that local variables had before, function by function. -/
  saved : List (List (ByteText × Option Variable)) := []
  loops : Nat := 0
  isSubshell : Bool := false
  /-- How far the options of the script are read: the next argument, and the letters left of the one before. -/
  optionLetters : ByteText := []

/-- How a run is left. -/
inductive Jump where
  | leave (status : Nat)
  /-- An error, which ends the script unless a builtin is around it. -/
  | fault
  | stop (loops : Nat)
  | again (loops : Nat)
  | back (status : Nat)
  /-- The process is another program now, which has ended. -/
  | gone (status : ExitStatus)
  | killed (signal : Nat)
  deriving DecidableEq, Repr

abbrev Acting := ExceptT Jump (StateM State)

/-- The number of the process of every script. -/
def processNumber : Nat := 4242

namespace State

def has (s : State) (option : Char) : Bool := s.options.contains option

def binding? (s : State) (name : ByteText) : Option Variable := s.bindings.lookup name

def value? (s : State) (name : ByteText) : Option ByteText := (s.binding? name).bind (·.value)

/-- What separates fields. -/
def separators (s : State) : ByteText := (s.value? ['I', 'F', 'S']).getD [' ', '\t', '\n']

def environment (s : State) : List (ByteText × ByteText) :=
  s.bindings.filterMap fun (name, v) => if v.exported then v.value.map (name, ·) else none

def call (s : State) (name : ByteText) (arguments : List ByteText) : Call :=
  { name, arguments, environment := s.environment, directory := s.directory, streams := s.streams }

end State

namespace Acting

def onMachine {α : Type} (r : Running α) : Acting α := fun s =>
  let (value, machine) := r.run s.machine
  (.ok value, { s with machine })

def write (stream : Nat) (t : ByteText) : Acting Unit := do
  let s ← get
  onMachine ((s.call [] []).write stream (.ofByteText t))

/-- Writes an error with the place where it is. -/
def complain (message : ByteText) : Acting Unit := do
  let s ← get
  let place := s.name ++ .ofString s!": {s.line}: "
  let builtin := match s.builtin with
    | some name => name ++ [':', ' ']
    | none => []
  write 2 (place ++ builtin ++ message ++ ['\n'])

def setStatus (status : Nat) : Acting Unit := modify fun s => { s with status }

/-- An error that ends the script. -/
def fault {α : Type} (message : ByteText) : Acting α := do
  complain message
  setStatus 2
  throw .fault

def faultText {α : Type} (message : String) : Acting α := fault (.ofString message)

def setVariable (name : ByteText) (change : Option Variable → Variable) : Acting Unit :=
  modify fun s => { s with bindings := (name, change (s.binding? name)) :: s.bindings.filter (·.1 ≠ name) }

def assign (name value : ByteText) : Acting Unit := do
  let s ← get
  if (s.binding? name).any (·.readOnly) then fault (name ++ .ofString ": is read only")
  setVariable name fun
    | some v => { v with value := some value, exported := v.exported || s.has 'a' }
    | none => { value := some value, exported := s.has 'a' }

def unassign (name : ByteText) : Acting Unit := do
  if ((← get).binding? name).any (·.readOnly) then fault (name ++ .ofString ": is read only")
  modify fun s => { s with bindings := s.bindings.filter (·.1 ≠ name) }

/-- Runs a piece of work and gives back part of the state as it was before. -/
def restoring {α : Type} (restore : State → State → State) (work : Acting α) : Acting α := fun s =>
  let (result, after) := work.run s
  (result, restore s after)

end Acting

end AutoDiff.Shell
