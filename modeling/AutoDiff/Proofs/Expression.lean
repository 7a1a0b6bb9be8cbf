import AutoDiff.Arithmetic
import Mathlib.Algebra.Field.Basic

namespace AutoDiff

/-- The exponents of integer powers are integers here; those of traces are 32-bit words. -/
inductive Expression (α : Type) where
  | input (index : Nat)
  | weight (index : Nat)
  | const (value : α)
  | unary (op : UnaryOp) (a : Expression α)
  | binary (op : BinaryOp) (a b : Expression α)
  | power (a : Expression α) (exponent : Int)
  deriving DecidableEq, Repr

def Expression.map {α β : Type} (f : α → β) : Expression α → Expression β
  | input index => input index
  | weight index => weight index
  | const value => const (f value)
  | unary op a => unary op (a.map f)
  | binary op a b => binary op (a.map f) (b.map f)
  | power a exponent => power (a.map f) exponent

theorem Expression.map_self {α : Type} (a : Expression α) : a.map (fun c => c) = a := by
  induction a with
  | input | weight | const => rfl
  | unary op a ih => rw [map, ih]
  | binary op a b left right => rw [map, left, right]
  | power a exponent ih => rw [map, ih]

/-- Exact arithmetic of a field. The transcendental functions are arbitrary, and so are powers but for
the exponents zero and one. -/
class FieldArithmetic (F : Type) [Field F] extends Arithmetic F where
  wholePower : F → Int → F
  ofInt_eq (n : Int) : ofInt n = (n : F)
  neg_eq (a : F) : unary .neg a = -a
  add_eq (a b : F) : binary .add a b = a + b
  sub_eq (a b : F) : binary .sub a b = a - b
  mul_eq (a b : F) : binary .mul a b = a * b
  div_eq (a b : F) : binary .div a b = a / b
  pow_zero (a : F) : binary .pow a 0 = 1
  pow_one (a : F) : binary .pow a 1 = a
  power_eq (a : F) (exponent : Int32) : power a exponent = wholePower a exponent.toInt
  wholePower_zero (a : F) : wholePower a 0 = 1
  wholePower_one (a : F) : wholePower a 1 = a
  equal_iff (a b : F) : equal a b = true ↔ a = b

attribute [simp] FieldArithmetic.ofInt_eq FieldArithmetic.neg_eq FieldArithmetic.add_eq
  FieldArithmetic.sub_eq FieldArithmetic.mul_eq FieldArithmetic.div_eq FieldArithmetic.pow_zero
  FieldArithmetic.pow_one FieldArithmetic.power_eq FieldArithmetic.wholePower_zero
  FieldArithmetic.wholePower_one FieldArithmetic.equal_iff

namespace Expression

section Derivative

variable {α : Type} [Arithmetic α]

def ofInt (n : Int) : Expression α := const (Arithmetic.ofInt n)

def slope (a : Expression α) : UnaryOp → Expression α
  | .neg => ofInt (-1)
  | .sin => unary .cos a
  | .cos => unary .neg (unary .sin a)
  | .tan => binary .add (ofInt 1) (binary .mul (unary .tan a) (unary .tan a))
  | .exp => unary .exp a
  | .ln => binary .div (ofInt 1) a
  | .sqrt => binary .div (ofInt 1) (binary .mul (ofInt 2) (unary .sqrt a))
  | .tanh => binary .sub (ofInt 1) (binary .mul (unary .tanh a) (unary .tanh a))

def combine (a b a' b' : Expression α) : BinaryOp → Expression α
  | .add => binary .add a' b'
  | .sub => binary .sub a' b'
  | .mul => binary .add (binary .mul a' b) (binary .mul a b')
  | .div => binary .div (binary .sub (binary .mul a' b) (binary .mul a b')) (binary .mul b b)
  | .pow =>
    binary .add (binary .mul (binary .mul b (binary .pow a (binary .sub b (ofInt 1)))) a')
      (binary .mul (binary .mul (binary .pow a b) (unary .ln a)) b')

def deriv (j : Nat) : Expression α → Expression α
  | input i => ofInt (if i = j then 1 else 0)
  | weight _ => ofInt 0
  | const _ => ofInt 0
  | unary op a => binary .mul (slope a op) (deriv j a)
  | binary op a b => combine a b (deriv j a) (deriv j b) op
  | power a n => binary .mul (binary .mul (ofInt n) (power a (n - 1))) (deriv j a)

/-- The derivative where the exponent before an exponent need not be one less. -/
def derivBy (before : Int → Int) (j : Nat) : Expression α → Expression α
  | input i => ofInt (if i = j then 1 else 0)
  | weight _ => ofInt 0
  | const _ => ofInt 0
  | unary op a => binary .mul (slope a op) (derivBy before j a)
  | binary op a b => combine a b (derivBy before j a) (derivBy before j b) op
  | power a n => binary .mul (binary .mul (ofInt n) (power a (before n))) (derivBy before j a)

theorem derivBy_sub_one (j : Nat) (a : Expression α) : derivBy (· - 1) j a = deriv j a := by
  induction a with
  | input | weight | const => rfl
  | unary op a ih => rw [derivBy, deriv, ih]
  | binary op a b left right => rw [derivBy, deriv, left, right]
  | power a n ih => rw [derivBy, deriv, ih]

end Derivative

variable {F : Type} [Field F] [FieldArithmetic F]

/-- The value at inputs `x` and weights `w`; those beyond the end count as zero. -/
def eval (x w : Array F) : Expression F → F
  | input i => x.getD i 0
  | weight i => w.getD i 0
  | const c => c
  | unary op a => Arithmetic.unary op (eval x w a)
  | binary op a b => Arithmetic.binary op (eval x w a) (eval x w b)
  | power a n => FieldArithmetic.wholePower (eval x w a) n

section Weightless

def Weightless {α : Type} : Expression α → Prop
  | input _ | const _ => True
  | weight _ => False
  | unary _ a => a.Weightless
  | binary _ a b => a.Weightless ∧ b.Weightless
  | power a _ => a.Weightless

theorem eval_weightless {a : Expression F} (weightless : a.Weightless) (x v w : Array F) :
    eval x v a = eval x w a := by
  induction a with
  | input | const => rfl
  | weight => exact weightless.elim
  | unary op a ih => rw [eval, eval, ih weightless]
  | binary op a b left right => rw [eval, eval, left weightless.1, right weightless.2]
  | power a n ih => rw [eval, eval, ih weightless]

theorem Weightless.map {α β : Type} (f : α → β) {a : Expression α} (weightless : a.Weightless) :
    (a.map f).Weightless := by
  induction a with
  | input | const => trivial
  | weight => exact weightless
  | unary op a ih => exact ih weightless
  | binary op a b left right => exact ⟨left weightless.1, right weightless.2⟩
  | power a n ih => exact ih weightless

theorem Weightless.derivBy {α : Type} [Arithmetic α] {before : Int → Int} {a : Expression α}
    (weightless : a.Weightless) (j : Nat) : (a.derivBy before j).Weightless := by
  induction a with
  | input | const => trivial
  | weight => exact weightless.elim
  | unary op a ih =>
      refine ⟨?_, ih weightless⟩
      cases op <;> simp_all [slope, ofInt, Weightless]
  | binary op a b left right =>
      have first := left weightless.1
      have second := right weightless.2
      cases op <;> simp_all [Expression.derivBy, combine, ofInt, Weightless]
  | power a n ih => exact ⟨⟨trivial, weightless⟩, ih weightless⟩

end Weightless

end Expression

end AutoDiff
