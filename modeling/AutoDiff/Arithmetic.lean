import AutoDiff.Binary64.Basic

/-!
The operations a trace is made of, and the arithmetic it is folded and evaluated with. Traces are
written over any `Arithmetic`; programs run over `Binary64`, with the functions of a mathematical library.
-/

namespace AutoDiff

inductive UnaryOp where
  | neg | sin | cos | tan | exp | ln | sqrt | tanh
  deriving DecidableEq, Repr

inductive BinaryOp where
  | add | sub | mul | div | pow
  deriving DecidableEq, Repr

namespace UnaryOp

def name : UnaryOp → String
  | neg => "neg" | sin => "sin" | cos => "cos" | tan => "tan"
  | exp => "exp" | ln => "ln" | sqrt => "sqrt" | tanh => "tanh"

def all : List UnaryOp := [neg, sin, cos, tan, exp, ln, sqrt, tanh]

def ofName? (name : String) : Option UnaryOp := all.find? (·.name == name)

end UnaryOp

namespace BinaryOp

def name : BinaryOp → String
  | add => "add" | sub => "sub" | mul => "mul" | div => "div" | pow => "pow"

def all : List BinaryOp := [add, sub, mul, div, pow]

def ofName? (name : String) : Option BinaryOp := all.find? (·.name == name)

def isCommutative : BinaryOp → Bool
  | add | mul => true
  | sub | div | pow => false

end BinaryOp

class Arithmetic (α : Type) where
  ofInt : Int → α
  unary : UnaryOp → α → α
  binary : BinaryOp → α → α → α
  power : α → Int32 → α
  /-- Numeric equality, by which constants are recognised. It may hold of constants that differ and
  fail of a constant and itself. -/
  equal : α → α → Bool
  isPositive : α → Bool

/-- The functions that come from a mathematical library. -/
class MathLibrary where
  sin : Float → Float
  cos : Float → Float
  tan : Float → Float
  exp : Float → Float
  log : Float → Float
  tanh : Float → Float
  pow : Float → Float → Float

instance : MathLibrary := ⟨Float.sin, Float.cos, Float.tan, Float.exp, Float.log, Float.tanh, Float.pow⟩

namespace Binary64

variable [MathLibrary]

def unary : UnaryOp → Binary64 → Binary64
  | .neg, x => x.neg
  | .sin, x => lift MathLibrary.sin x
  | .cos, x => lift MathLibrary.cos x
  | .tan, x => lift MathLibrary.tan x
  | .exp, x => lift MathLibrary.exp x
  | .ln, x => lift MathLibrary.log x
  | .sqrt, x => lift Float.sqrt x
  | .tanh, x => lift MathLibrary.tanh x

def binary : BinaryOp → Binary64 → Binary64 → Binary64
  | .add, x, y => lift₂ Float.add x y
  | .sub, x, y => lift₂ Float.sub x y
  | .mul, x, y => mul x y
  | .div, x, y => div x y
  | .pow, x, y => lift₂ MathLibrary.pow x y

instance : Arithmetic Binary64 where
  ofInt := ofInt
  unary := unary
  binary := binary
  power x n := x.power n.toInt
  equal := equal
  isPositive x := lt (ofInt 0) x

end Binary64

end AutoDiff
