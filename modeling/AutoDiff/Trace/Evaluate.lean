import AutoDiff.Trace.Basic
import AutoDiff.Trace.Error

namespace AutoDiff

variable {α : Type} [Arithmetic α]

/-- The value of a node, given those of the inputs, the weights and the nodes before it. -/
def Node.value? (x w values : Array α) : Node α → Option α
  | .input index => x[index]?
  | .weight index => w[index]?
  | .const value => some value
  | .unary op arg => (Arithmetic.unary op ·) <$> values[arg]?
  | .binary op lhs rhs => do return Arithmetic.binary op (← values[lhs]?) (← values[rhs]?)
  | .power base exponent => (Arithmetic.power · exponent) <$> values[base]?

/-- A calculation with a buffer that the caller keeps, whether it fails or not. -/
abbrev Filling (α β : Type) := ExceptT TraceError (StateT (Array α) Option) β

def checkLength (what : String) (expected found : Nat) : Except TraceError Unit :=
  if expected = found then .ok () else .error (.argumentLength what expected found)

namespace Trace

/-- The values of all nodes. -/
def values? (t : Trace α) (x w : Array α) : Option (Array α) :=
  t.nodes.toList.foldlM (fun values node => (node.value? x w values).map values.push) #[]

/-- Stores the values of the outputs in the slots of a buffer, in order. -/
def store? (outputs : List NodeId) (values result : Array α) : Option (Array α) :=
  outputs.zipIdx.foldlM (fun result (id, slot) => (values[id]?).map (result.setIfInBounds slot ·)) result

def checkArguments (t : Trace α) (x w result : Array α) : Except TraceError Unit := do
  checkLength "inputs" t.inputCount x.size
  checkLength "weights" t.weightCount w.size
  checkLength "outputs" t.outputs.length result.size

/-- Fills the buffer with the outputs, once all arguments have the right lengths. -/
def fillBuffer (t : Trace α) (x w : Array α) : Filling α Unit := do
  MonadExcept.ofExcept (t.checkArguments x w (← get))
  let values ← t.values? x w
  set (← store? t.outputs values (← get))

/-- The buffer after it is filled, or an error. -/
def evaluateInto (t : Trace α) (x w result : Array α) : Option (Except TraceError (Array α)) :=
  ((t.fillBuffer x w).run.run result).map fun (outcome, buffer) => outcome.map fun () => buffer

/-- The outputs, in a buffer of their own. -/
def evaluate (t : Trace α) (x w : Array α) : Option (Except TraceError (Array α)) :=
  t.evaluateInto x w (Array.replicate t.outputs.length (Arithmetic.ofInt 0))

end Trace

end AutoDiff
