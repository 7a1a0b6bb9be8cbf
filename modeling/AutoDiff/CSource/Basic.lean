import AutoDiff.Trace.Text

/-!
Straight-line C: functions that return a constant, and kernels that compute one local variable after
another from their buffers and store some of them in a result buffer.
-/

namespace AutoDiff.CSource

/-- A constant of type `double`. -/
inductive Literal where
  | nan
  | infinity (negative : Bool)
  | decimal (numeral : Numeral)
  deriving DecidableEq, Repr

inductive Buffer where
  | x | w | y | jac | hess
  deriving DecidableEq, Repr

/-- The arithmetic operators of two operands. -/
inductive Operator where
  | plus | minus | times | divided
  deriving DecidableEq, Repr

/-- The functions of one argument that kernels call. -/
inductive MathFunction where
  | sin | cos | tan | exp | log | sqrt | tanh
  deriving DecidableEq, Repr

/-- Variables are numbered: `v0`, `v1` and so on. -/
inductive Expr where
  | element (buffer : Buffer) (index : Nat)
  | literal (value : Literal)
  | negation (v : Nat)
  | call (f : MathFunction) (v : Nat)
  | operation (op : Operator) (u v : Nat)
  | pow (u v : Nat)
  /-- `pow` with a literal whole exponent. -/
  | wholePow (v : Nat) (exponent : Int32)
  deriving DecidableEq, Repr

inductive Statement where
  /-- A use of a parameter that has no effect. -/
  | mention (buffer : Buffer)
  | declare (v : Nat) (value : Expr)
  | store (buffer : Buffer) (slot v : Nat)
  deriving DecidableEq, Repr

structure Kernel where
  symbol : String
  arguments : List Buffer
  result : Buffer
  body : List Statement
  deriving DecidableEq, Repr

/-- A function without parameters that returns a number. -/
structure Constant where
  type : String
  symbol : String
  value : Nat
  deriving DecidableEq, Repr

structure TranslationUnit where
  title : String
  constants : List Constant
  kernels : List Kernel
  deriving DecidableEq, Repr

namespace TranslationUnit

def symbols (u : TranslationUnit) : List String := u.constants.map (·.symbol) ++ u.kernels.map (·.symbol)

def constant? (u : TranslationUnit) (symbol : String) : Option Nat :=
  (u.constants.find? (·.symbol == symbol)).map (·.value)

def kernel? (u : TranslationUnit) (symbol : String) : Option Kernel :=
  u.kernels.find? (·.symbol == symbol)

end TranslationUnit

end AutoDiff.CSource
