import AutoDiff.Trace.Simplify

/-!
Reverse accumulation. The derivatives of an output are appended to its own trace as ordinary nodes,
so that a derivative can be differentiated again.
-/

namespace AutoDiff

/-- The state of a reverse sweep over the nodes up to an output: which of them depend on an input, and
the node that holds the derivative of the output with respect to each, as far as it is known. -/
structure Adjoints where
  active : Array Bool
  grads : Array (Option NodeId)
  deriving Repr

namespace Adjoints

def isActive (a : Adjoints) (id : NodeId) : Bool := a.active[id]?.getD false

def grad? (a : Adjoints) (id : NodeId) : Option NodeId := a.grads[id]?.join

def set (a : Adjoints) (id grad : NodeId) : Adjoints :=
  { a with grads := a.grads.setIfInBounds id (some grad) }

variable {α : Type} [Arithmetic α]

/-- Adds a contribution to the derivative of `target`. Nothing is added for a node that depends on no
input, nor when the contribution is a constant zero. -/
def accumulate (a : Adjoints) (target contribution : NodeId) : Build α Adjoints := do
  let t ← get
  if !a.isActive target || t.isConst contribution 0 then return a
  match a.grad? target with
  | none => return a.set target contribution
  | some existing => return a.set target (← Build.add existing contribution)

end Adjoints

namespace Node

variable {α : Type}

/-- Whether a node depends on an input, given the same for all earlier nodes. -/
def isActive? (active : Array Bool) : Node α → Option Bool
  | input _ => some true
  | weight _ | const _ => some false
  | unary _ arg => active[arg]?
  | binary _ lhs rhs => do if ← active[lhs]? then return true else active[rhs]?
  | power base _ => active[base]?

end Node

namespace Gradient

variable {α : Type} [Arithmetic α]

def activity (nodes : List (Node α)) : Option (Array Bool) :=
  nodes.foldlM (fun active node => (node.isActive? active).map active.push) #[]

/-- What node `id = op arg` passes on to `arg` when it receives `adjoint`. -/
def unaryContribution (op : UnaryOp) (id arg adjoint : NodeId) : Build α NodeId := do
  match op with
  | .neg => Build.neg adjoint
  | .sin => Build.mul adjoint (← Build.unary .cos arg)
  | .cos => Build.mul adjoint (← Build.neg (← Build.unary .sin arg))
  | .tan =>
    let square ← Build.mul id id
    let one ← Build.constant (Arithmetic.ofInt 1)
    Build.mul adjoint (← Build.add one square)
  | .exp => Build.mul adjoint id
  | .ln => Build.div adjoint arg
  | .sqrt =>
    let two ← Build.constant (Arithmetic.ofInt 2)
    Build.div adjoint (← Build.mul two id)
  | .tanh =>
    let square ← Build.mul id id
    let one ← Build.constant (Arithmetic.ofInt 1)
    Build.mul adjoint (← Build.sub one square)

/-- What node `id = op lhs rhs` passes on to `lhs`. -/
def leftContribution (op : BinaryOp) (lhs rhs adjoint : NodeId) : Build α NodeId := do
  match op with
  | .add | .sub => return adjoint
  | .mul => Build.mul adjoint rhs
  | .div => Build.div adjoint rhs
  | .pow =>
    let one ← Build.constant (Arithmetic.ofInt 1)
    let power ← Build.pow lhs (← Build.sub rhs one)
    Build.mul adjoint (← Build.mul rhs power)

/-- What node `id = op lhs rhs` passes on to `rhs`; that of a quotient is written with the quotient
itself. -/
def rightContribution (op : BinaryOp) (id lhs rhs adjoint : NodeId) : Build α NodeId := do
  match op with
  | .add => return adjoint
  | .sub => Build.neg adjoint
  | .mul => Build.mul adjoint lhs
  | .div => Build.neg (← Build.mul adjoint (← Build.div id rhs))
  | .pow =>
    let log ← Build.unary .ln lhs
    Build.mul adjoint (← Build.mul id log)

/-- The exponent of a derivative is one less, in 32-bit arithmetic. -/
def powerContribution (base adjoint : NodeId) (exponent : Int32) : Build α NodeId := do
  let power ← Build.power base (exponent - 1)
  let factor ← Build.constant (Arithmetic.ofInt exponent.toInt)
  Build.mul adjoint (← Build.mul factor power)

/-- Passes the derivative `adjoint` of a node on to its active operands, the left one first. -/
def propagate (a : Adjoints) (id : NodeId) (node : Node α) (adjoint : NodeId) : Build α Adjoints := do
  match node with
  | .input _ | .weight _ | .const _ => return a
  | .unary op arg =>
    if a.isActive arg then a.accumulate arg (← unaryContribution op id arg adjoint) else return a
  | .binary op lhs rhs =>
    let a ← if a.isActive lhs then a.accumulate lhs (← leftContribution op lhs rhs adjoint) else pure a
    if a.isActive rhs then a.accumulate rhs (← rightContribution op id lhs rhs adjoint) else return a
  | .power base exponent =>
    if a.isActive base then a.accumulate base (← powerContribution base adjoint exponent) else return a

/-- Visits the nodes below `limit`, the last one first. -/
def sweep : Nat → Adjoints → Build α Adjoints
  | 0, a => return a
  | id + 1, a => do
    match a.grad? id with
    | none => sweep id a
    | some adjoint =>
      let t ← get
      match t.nodes[id]? with
      | none => failure
      | some node => sweep id (← propagate a id node adjoint)

/-- The derivative of each input, by index; an input without one has the node `zeroNode`. -/
def collect (a : Adjoints) (nodes : List (Node α)) (inputCount zeroNode : Nat) : List NodeId :=
  nodes.zipIdx.foldl (fun result (node, id) =>
    match node, a.grad? id with
    | .input index, some grad => result.set index grad
    | _, _ => result) (List.replicate inputCount zeroNode)

end Gradient

/-- A list of ids or values has to be shorter: it takes eight bytes for each, and half of all addresses. -/
def listLimit : Nat := UInt64.size / 16

open AutoDiff.Gradient in
/-- Appends the derivative of `output` with respect to every input, and returns one node for each. The
derivative of an input that the output does not depend on is a constant zero. -/
def gradient {α : Type} [Arithmetic α] (output : NodeId) : Build α (List NodeId) := do
  let t ← get
  guard (output < t.size)
  let nodes := t.nodes.toList.take (output + 1)
  let active ← activity nodes
  let a : Adjoints := ⟨active, Array.replicate (output + 1) none⟩
  let a ← if a.isActive output then pure (a.set output (← Build.constant (Arithmetic.ofInt 1))) else pure a
  let a ← sweep (output + 1) a
  guard (t.inputCount < listLimit)
  let zeroNode ← Build.constant (Arithmetic.ofInt 0)
  return collect a nodes t.inputCount zeroNode

namespace Trace

variable {α : Type} [Arithmetic α]

/-- The derivatives of every output with respect to every input, output by output, if one list can hold them. -/
def jacobian (t : Trace α) : Option (Trace α) := do
  guard (t.outputs.length * t.inputCount < listLimit)
  let (rows, t) ← (t.outputs.mapM gradient).run t
  return { t with outputs := rows.flatten }

/-- Appends the sum of the outputs, each multiplied by a weight of its own. -/
def weightedSum (outputs : List NodeId) : Build α NodeId := do
  let zeroNode ← Build.constant (Arithmetic.ofInt 0)
  outputs.zipIdx.foldlM (fun sum (output, index) => do
    let weight ← Build.push (.weight index)
    Build.add sum (← Build.mul weight output)) zeroNode

/-- The second derivatives of the weighted sum of the outputs, row by row, if one list can hold them. -/
def hessian (t : Trace α) : Option (Trace α) := do
  guard (t.inputCount * t.inputCount < listLimit)
  let rows : Build α (List (List NodeId)) := do
    let first ← gradient (← weightedSum t.outputs)
    first.mapM gradient
  let (rows, t) ← rows.run { t with weightCount := t.outputs.length }
  return { t with outputs := rows.flatten }

end Trace

end AutoDiff
