import AutoDiff.Trace.Basic

/-!
Recording a computation. Every operation on variables appends its node to the tape of its operands, as
it is, and carries the value at the example point along. Variables of two tapes do not combine.
-/

namespace AutoDiff

inductive TapeName where
  | main
  | other
  deriving DecidableEq, Repr

/-- A recorded scalar with its value at the example point. -/
structure Variable (α : Type) where
  tape : TapeName
  id : NodeId
  value : α
  deriving DecidableEq, Repr

/-- One step of a recording. Operands are positions in the list of variables made so far. -/
inductive Step (α : Type) where
  | independent (tape : TapeName) (values : List α)
  | const (value : α)
  | constLike (a : Nat) (value : α)
  | unary (op : UnaryOp) (a : Nat)
  | binary (op : BinaryOp) (a b : Nat)
  | binaryConst (op : BinaryOp) (a : Nat) (value : α)
  | constBinary (op : BinaryOp) (value : α) (b : Nat)
  | power (a : Nat) (exponent : Int32)
  | sum (terms : List Nat)
  | ifPositive (test yes no : Nat)
  deriving DecidableEq, Repr

inductive RecordingFault where
  | mixedTapes
  | noSuchVariable (position : Nat)
  deriving DecidableEq, Repr

def RecordingFault.message : RecordingFault → String
  | mixedTapes => "cannot combine variables recorded on different tapes"
  | noSuchVariable position => s!"there is no variable {position}"

structure Recording (α : Type) where
  main : Trace α := { inputCount := 0, weightCount := 0 }
  other : Trace α := { inputCount := 0, weightCount := 0 }
  recorded : Array (Variable α) := #[]
  deriving Repr

abbrev Recorder (α : Type) := StateT (Recording α) (Except RecordingFault)

namespace Recording

variable {α : Type}

def trace (r : Recording α) : TapeName → Trace α
  | .main => r.main
  | .other => r.other

def setTrace (r : Recording α) (t : Trace α) : TapeName → Recording α
  | .main => { r with main := t }
  | .other => { r with other := t }

end Recording

namespace Recorder

variable {α : Type}

/-- Appends a node to a tape. -/
def append (tape : TapeName) (node : Node α) (value : α) : Recorder α (Variable α) := fun r =>
  let t := r.trace tape
  .ok (⟨tape, t.size, value⟩, r.setTrace (t.push node) tape)

def addVariable (v : Variable α) : Recorder α Unit := modify fun r =>
  { r with recorded := r.recorded.push v }

def lookup (position : Nat) : Recorder α (Variable α) := do
  match (← get).recorded[position]? with
  | some v => return v
  | none => throw (.noSuchVariable position)

/-- Declares the next input of a tape. -/
def input (tape : TapeName) (value : α) : Recorder α (Variable α) := do
  let t := (← get).trace tape
  modify (·.setTrace { t with inputCount := t.inputCount + 1 } tape)
  append tape (.input t.inputCount) value

def const (tape : TapeName) (value : α) : Recorder α (Variable α) := append tape (.const value) value

variable [Arithmetic α]

def unary (op : UnaryOp) (a : Variable α) : Recorder α (Variable α) :=
  append a.tape (.unary op a.id) (Arithmetic.unary op a.value)

def binary (op : BinaryOp) (a b : Variable α) : Recorder α (Variable α) :=
  if a.tape = b.tape then append a.tape (.binary op a.id b.id) (Arithmetic.binary op a.value b.value)
  else throw .mixedTapes

def power (a : Variable α) (exponent : Int32) : Recorder α (Variable α) :=
  append a.tape (.power a.id exponent) (Arithmetic.power a.value exponent)

/-- The sum from the left; that of nothing is a constant zero on the main tape. -/
def sum : List (Variable α) → Recorder α (Variable α)
  | [] => const .main (Arithmetic.ofInt 0)
  | first :: rest => rest.foldlM (binary .add) first

/-- Runs a step; every step but a declaration adds one variable. -/
def step : Step α → Recorder α Unit
  | .independent tape values => values.forM fun value => do addVariable (← input tape value)
  | .const value => do addVariable (← const .main value)
  | .constLike a value => do addVariable (← const (← lookup a).tape value)
  | .unary op a => do addVariable (← unary op (← lookup a))
  | .binary op a b => do
    let a ← lookup a
    let b ← lookup b
    addVariable (← binary op a b)
  | .binaryConst op a value => do
    let a ← lookup a
    let b ← const a.tape value
    addVariable (← binary op a b)
  | .constBinary op value b => do
    let b ← lookup b
    let a ← const b.tape value
    addVariable (← binary op a b)
  | .power a exponent => do addVariable (← power (← lookup a) exponent)
  | .sum terms => do addVariable (← sum (← terms.mapM lookup))
  | .ifPositive test yes no => do
    let test ← lookup test
    addVariable (← lookup (if Arithmetic.isPositive test.value then yes else no))

end Recorder

end AutoDiff
