import AutoDiff.Trace.Simplify

/-!
Kernel shrinking: nodes that no output needs are dropped, the others are simplified again, equal nodes
are shared, and ids are dense.
-/

namespace AutoDiff

namespace Trace

variable {α : Type}

def mark (live : Array Bool) (id : NodeId) : Option (Array Bool) :=
  if id < live.size then some (live.setIfInBounds id true) else none

/-- Marks the operands of the live nodes below `limit`, the last node first. -/
def markOperands (t : Trace α) : Nat → Array Bool → Option (Array Bool)
  | 0, live => some live
  | id + 1, live => do
    let operands := match t.nodes[id]? with
      | some node => if live[id]?.getD false then node.operands else []
      | none => []
    t.markOperands id (← operands.foldlM mark live)

/-- Which nodes the outputs need. -/
def live? (t : Trace α) : Option (Array Bool) := do
  t.markOperands t.size (← t.outputs.foldlM mark (Array.replicate t.size false))

end Trace

namespace Build

variable {α : Type} [Arithmetic α] [DecidableEq α]

/-- Inserts a node unless the trace already has the same one. -/
def share (node : Node α) : Build α NodeId := fun t =>
  match t.simplify node with
  | none => none
  | some (.existing id) => some (id, t)
  | some (.fresh node) =>
    match t.nodes.findIdx? (· == node) with
    | some id => some (id, t)
    | none => some (t.size, t.push node)

end Build

namespace Trace

variable {α : Type} [Arithmetic α] [DecidableEq α]

/-- Shares one node if it is live, and records its new id; `renamed` has those of the nodes before. -/
def rebuildNode (live : Array Bool) (renamed : Array NodeId) (node : Node α) : Build α (Array NodeId) := do
  if live[renamed.size]?.getD false then
    return renamed.push (← Build.share (node.mapOperands fun id => renamed[id]?.getD 0))
  else return renamed.push 0

/-- One pass over the live nodes. -/
def rebuild (t : Trace α) : Option (Trace α) := do
  let live ← t.live?
  let (renamed, out) ← (t.nodes.toList.foldlM (rebuildNode live) #[]).run
    { inputCount := t.inputCount, weightCount := t.weightCount }
  return { out with outputs := t.outputs.map fun id => renamed[id]?.getD 0 }

/-- Repeats the pass until it drops no further node. -/
def shrink (t : Trace α) : Option (Trace α) :=
  match t.rebuild with
  | none => none
  | some next => if next.size < t.size then shrink next else some next
termination_by t.size

/-- An equivalent trace with only the nodes its outputs need. -/
def optimize (t : Trace α) : Option (Trace α) := t.rebuild.bind shrink

end Trace

end AutoDiff
