import AutoDiff.Trace.Basic

/-!
Local simplification: constants are folded, identities reuse an operand, and the operands of sums and
products are put in order. `0 * x` folds to zero whatever `x` is.

Inserting a node into a trace is a step of `Build`, which fails when a node is looked at that does
not exist.
-/

namespace AutoDiff

/-- What inserting a node comes to: a node that is already there, or a node to append. -/
inductive Simplified (α : Type) where
  | existing (id : NodeId)
  | fresh (node : Node α)
  deriving DecidableEq, Repr

namespace Trace

open Arithmetic

variable {α : Type} [Arithmetic α]

/-- Whether a node is a constant numerically equal to the integer `n`. -/
def isConst (t : Trace α) (id : NodeId) (n : Int) : Bool :=
  (t.const? id).any (equal · (ofInt n))

/-- Two negations cancel; only a negation looks past its operand's value. -/
def simplifyUnary (t : Trace α) (op : UnaryOp) (arg : NodeId) : Option (Simplified α) :=
  match t.const? arg with
  | some a => some (.fresh (.const (unary op a)))
  | none =>
    if op = .neg then
      match t.nodes[arg]? with
      | none => none
      | some (.unary .neg inner) => some (.existing inner)
      | some _ => some (.fresh (.unary .neg arg))
    else some (.fresh (.unary op arg))

def simplifyPower (t : Trace α) (base : NodeId) (exponent : Int32) : Simplified α :=
  if exponent = 0 then .fresh (.const (ofInt 1))
  else if exponent = 1 then .existing base
  else match t.const? base with
    | some b => .fresh (.const (power b exponent))
    | none => .fresh (.power base exponent)

/-- A binary node with the operands of a commutative operation in ascending order. -/
def ordered (op : BinaryOp) (lhs rhs : NodeId) : Node α :=
  if op.isCommutative ∧ rhs < lhs then .binary op rhs lhs else .binary op lhs rhs

def simplifyBinary (t : Trace α) (op : BinaryOp) (lhs rhs : NodeId) : Option (Simplified α) :=
  match t.const? lhs, t.const? rhs with
  | some a, some b => some (.fresh (.const (binary op a b)))
  | _, _ =>
    match op with
    | .add =>
      if t.isConst lhs 0 then some (.existing rhs)
      else if t.isConst rhs 0 then some (.existing lhs)
      else some (.fresh (ordered .add lhs rhs))
    | .sub =>
      if t.isConst rhs 0 then some (.existing lhs)
      else if t.isConst lhs 0 then t.simplifyUnary .neg rhs
      else some (.fresh (ordered .sub lhs rhs))
    | .mul =>
      if t.isConst lhs 0 then some (.existing lhs)
      else if t.isConst rhs 0 then some (.existing rhs)
      else if t.isConst lhs 1 then some (.existing rhs)
      else if t.isConst rhs 1 then some (.existing lhs)
      else if t.isConst lhs (-1) then t.simplifyUnary .neg rhs
      else if t.isConst rhs (-1) then t.simplifyUnary .neg lhs
      else some (.fresh (ordered .mul lhs rhs))
    | .div =>
      if t.isConst lhs 0 then some (.existing lhs)
      else if t.isConst rhs 1 then some (.existing lhs)
      else some (.fresh (ordered .div lhs rhs))
    | .pow =>
      if t.isConst rhs 1 then some (.existing lhs)
      else if t.isConst rhs 0 then some (.fresh (.const (ofInt 1)))
      else some (.fresh (ordered .pow lhs rhs))

def simplify (t : Trace α) : Node α → Option (Simplified α)
  | .unary op arg => t.simplifyUnary op arg
  | .power base exponent => some (t.simplifyPower base exponent)
  | .binary op lhs rhs => t.simplifyBinary op lhs rhs
  | leaf => some (.fresh leaf)

end Trace

abbrev Build (α : Type) := StateT (Trace α) Option

namespace Build

variable {α : Type}

/-- Appends a node as it is and returns its id. -/
def push (node : Node α) : Build α NodeId := fun t => some (t.size, t.push node)

def constant (value : α) : Build α NodeId := push (.const value)

variable [Arithmetic α]

/-- Appends a node after simplification; the id may be that of an older node. -/
def insert (node : Node α) : Build α NodeId := fun t =>
  match t.simplify node with
  | none => none
  | some (.existing id) => some (id, t)
  | some (.fresh node) => some (t.size, t.push node)

def unary (op : UnaryOp) (arg : NodeId) : Build α NodeId := insert (.unary op arg)
def binary (op : BinaryOp) (lhs rhs : NodeId) : Build α NodeId := insert (.binary op lhs rhs)
def power (base : NodeId) (exponent : Int32) : Build α NodeId := insert (.power base exponent)

def neg (arg : NodeId) : Build α NodeId := unary .neg arg
def add (lhs rhs : NodeId) : Build α NodeId := binary .add lhs rhs
def sub (lhs rhs : NodeId) : Build α NodeId := binary .sub lhs rhs
def mul (lhs rhs : NodeId) : Build α NodeId := binary .mul lhs rhs
def div (lhs rhs : NodeId) : Build α NodeId := binary .div lhs rhs
def pow (lhs rhs : NodeId) : Build α NodeId := binary .pow lhs rhs

end Build

end AutoDiff
