import AutoDiff.Arithmetic

namespace AutoDiff

abbrev NodeId := Nat

inductive Node (α : Type) where
  | input (index : Nat)
  | weight (index : Nat)
  | const (value : α)
  | unary (op : UnaryOp) (arg : NodeId)
  | binary (op : BinaryOp) (lhs rhs : NodeId)
  | power (base : NodeId) (exponent : Int32)
  deriving DecidableEq, Repr

namespace Node

variable {α : Type}

def operands : Node α → List NodeId
  | input _ | weight _ | const _ => []
  | unary _ arg => [arg]
  | binary _ lhs rhs => [lhs, rhs]
  | power base _ => [base]

def mapOperands (f : NodeId → NodeId) : Node α → Node α
  | unary op arg => unary op (f arg)
  | binary op lhs rhs => binary op (f lhs) (f rhs)
  | power base exponent => power (f base) exponent
  | leaf => leaf

end Node

/-- Inputs are the independent variables; weights occur in Hessian kernels only. -/
structure Trace (α : Type) where
  nodes : Array (Node α) := #[]
  inputCount : Nat
  weightCount : Nat
  outputs : List NodeId := []
  deriving DecidableEq, Repr

namespace Trace

variable {α : Type}

def size (t : Trace α) : Nat := t.nodes.size

/-- Appends a node as it is. -/
def push (t : Trace α) (node : Node α) : Trace α := { t with nodes := t.nodes.push node }

def const? (t : Trace α) (id : NodeId) : Option α :=
  match t.nodes[id]? with
  | some (.const value) => some value
  | _ => none

end Trace

/-- Whether two nodes are the same, their constants compared as numbers. -/
def Node.agrees {α : Type} [Arithmetic α] : Node α → Node α → Bool
  | .input i, .input j | .weight i, .weight j => i == j
  | .const x, .const y => Arithmetic.equal x y
  | .unary f a, .unary g b => f == g && a == b
  | .binary f a b, .binary g c d => f == g && a == c && b == d
  | .power a m, .power b n => a == b && m == n
  | _, _ => false

def Trace.agrees {α : Type} [Arithmetic α] (s t : Trace α) : Bool :=
  s.inputCount == t.inputCount && s.weightCount == t.weightCount && s.outputs == t.outputs
    && s.size == t.size && (s.nodes.zip t.nodes).all fun (m, n) => m.agrees n

end AutoDiff
