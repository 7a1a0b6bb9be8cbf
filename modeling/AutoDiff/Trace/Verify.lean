import AutoDiff.Trace.Basic
import AutoDiff.Trace.Error

/-!
The check that a trace is well formed: operands come before their users, inputs and weights are in
range, no input has two nodes, and every output exists. The first violation in node order is reported.
-/

namespace AutoDiff

namespace Trace

variable {α : Type}

def verifyOperands (id : NodeId) (node : Node α) : Except TraceError Unit :=
  match node.operands.find? (id ≤ ·) with
  | some operand => .error (.useBeforeDefinition id operand)
  | none => .ok ()

/-- Checks a node. `inputs` has the inputs read so far, each with its node. -/
def verifyNode (t : Trace α) (inputs : List (Nat × NodeId)) (id : NodeId) (node : Node α) :
    Except TraceError (List (Nat × NodeId)) := do
  verifyOperands id node
  match node with
  | .input index =>
    if t.inputCount ≤ index then .error (.inputOutOfRange id index t.inputCount)
    else match inputs.lookup index with
      | some first => .error (.duplicateInput index first id)
      | none => .ok ((index, id) :: inputs)
  | .weight index =>
    if t.weightCount ≤ index then .error (.weightOutOfRange id index t.weightCount) else .ok inputs
  | _ => .ok inputs

def verifyOutput (t : Trace α) (position : Nat) (id : NodeId) : Except TraceError Unit :=
  if id < t.size then .ok () else .error (.undefinedOutput position id)

def verify (t : Trace α) : Except TraceError Unit := do
  let _ ← t.nodes.toList.zipIdx.foldlM (fun inputs (node, id) => t.verifyNode inputs id node) []
  t.outputs.zipIdx.forM fun (id, position) => t.verifyOutput position id

end Trace

end AutoDiff
