import AutoDiff.Proofs.Equivalence
import Mathlib.Algebra.Ring.PUnit

/-!
Interpretations of expressions in commutative rings. What is proved of traces under every
interpretation holds of the classes of their expressions, and under the interpretation in the ring with
one element it says that nothing fails.
-/

namespace AutoDiff

/-- A ring in which constants are calculated with as they are folded. -/
class Interpretation (α M : Type) [Arithmetic α] [CommRing M] where
  input : Nat → M
  weight : Nat → M
  const : α → M
  unary : UnaryOp → M → M
  inv : M → M
  pow : M → M → M
  power : Int → M → M
  const_ofInt (n : Int) : const (Arithmetic.ofInt n) = n
  const_of_equal (c : α) (n : Int) : Arithmetic.equal c (Arithmetic.ofInt n) = true → const c = n
  unary_neg (x : M) : unary .neg x = -x
  unary_const (op : UnaryOp) (c : α) : unary op (const c) = const (Arithmetic.unary op c)
  add_const (c d : α) : const c + const d = const (Arithmetic.binary .add c d)
  sub_const (c d : α) : const c - const d = const (Arithmetic.binary .sub c d)
  mul_const (c d : α) : const c * const d = const (Arithmetic.binary .mul c d)
  div_const (c d : α) : const c * inv (const d) = const (Arithmetic.binary .div c d)
  pow_const (c d : α) : pow (const c) (const d) = const (Arithmetic.binary .pow c d)
  power_const (c : α) (n : Int32) : power n.toInt (const c) = const (Arithmetic.power c n)
  inv_one : inv 1 = 1
  pow_zero (x : M) : pow x 0 = 1
  pow_one (x : M) : pow x 1 = x
  power_zero (x : M) : power 0 x = 1
  power_one (x : M) : power 1 x = x

namespace Interpretation

variable (α : Type) {M : Type} [Arithmetic α] [CommRing M] [Interpretation α M]

def binary : BinaryOp → M → M → M
  | .add, x, y => x + y
  | .sub, x, y => x - y
  | .mul, x, y => x * y
  | .div, x, y => x * inv α y
  | .pow, x, y => pow α x y

theorem binary_const (op : BinaryOp) (c d : α) :
    binary α op (const c) (const d) = (const (Arithmetic.binary op c d) : M) := by
  cases op
  · exact add_const c d
  · exact sub_const c d
  · exact mul_const c d
  · exact div_const c d
  · exact pow_const c d

def slope (x : M) : UnaryOp → M
  | .neg => -1
  | .sin => unary α .cos x
  | .cos => -unary α .sin x
  | .tan => 1 + unary α .tan x * unary α .tan x
  | .exp => unary α .exp x
  | .ln => inv α x
  | .sqrt => inv α (2 * unary α .sqrt x)
  | .tanh => 1 - unary α .tanh x * unary α .tanh x

end Interpretation

/-- The word before an exponent is its predecessor, except at the least one. -/
theorem Int32.toInt_sub_one {n : Int32} (above : Int32.minValue.toInt < n.toInt) :
    (n - 1).toInt = n.toInt - 1 := by
  have below := n.toInt_lt
  have least : Int32.minValue.toInt = -2147483648 := by decide
  rw [least] at above
  rw [Int32.toInt_sub, Int32.toInt_one]
  exact Int.bmod_eq_of_le (by omega) (by omega)

theorem Int32.le_toInt_sub_one (n : Int32) : n.toInt - 1 ≤ (n - 1).toInt := by
  rcases Int.lt_or_le Int32.minValue.toInt n.toInt with above | below
  · rw [Int32.toInt_sub_one above]
  · have lowest := (n - 1).minValue_le_toInt
    omega

/-- Which exponent comes before another one; above `least` it is that of 32-bit words. -/
structure Predecessor where
  before : Int → Int
  least : Int
  least_le : least ≤ Int32.minValue.toInt
  before_toInt (n : Int32) : least < n.toInt → before n.toInt = (n - 1).toInt
  before_one : before 1 = 0

namespace Predecessor

def exact : Predecessor where
  before n := n - 1
  least := Int32.minValue.toInt
  least_le := Int.le_refl _
  before_toInt _ above := (Int32.toInt_sub_one above).symm
  before_one := rfl

/-- The predecessor in 32-bit arithmetic, where the greatest exponent comes before the least. -/
def words : Predecessor where
  before n := (Int32.ofInt n - 1).toInt
  least := Int32.minValue.toInt - 2
  least_le := by omega
  before_toInt n _ := by rw [Int32.ofInt_toInt]
  before_one := by decide

end Predecessor

open Interpretation in
/-- An interpretation with derivatives, which obey the chain rule. -/
class Differential (α M : Type) [Arithmetic α] [CommRing M] extends Interpretation α M where
  exponents : Predecessor
  deriv : Nat → M → M
  deriv_input (j i : Nat) : deriv j (input i) = if i = j then 1 else 0
  deriv_weight (j i : Nat) : deriv j (weight i) = 0
  deriv_const (j : Nat) (c : α) : deriv j (const c) = 0
  deriv_unary (j : Nat) (op : UnaryOp) (x : M) : deriv j (unary op x) = slope α x op * deriv j x
  deriv_add (j : Nat) (x y : M) : deriv j (x + y) = deriv j x + deriv j y
  deriv_sub (j : Nat) (x y : M) : deriv j (x - y) = deriv j x - deriv j y
  deriv_mul (j : Nat) (x y : M) : deriv j (x * y) = deriv j x * y + x * deriv j y
  deriv_inv (j : Nat) (x : M) : deriv j (inv x) = -(inv x * inv x) * deriv j x
  deriv_pow (j : Nat) (x y : M) :
    deriv j (pow x y) = y * pow x (y - 1) * deriv j x + pow x y * unary .ln x * deriv j y
  deriv_power (j : Nat) (n : Int) (x : M) : deriv j (power n x) = n * power (exponents.before n) x * deriv j x

@[reducible]
def Differential.unit (α : Type) [Arithmetic α] (p : Predecessor) : Differential α PUnit where
  input _ := 0
  weight _ := 0
  const _ := 0
  unary _ _ := 0
  inv _ := 0
  pow _ _ := 0
  power _ _ := 0
  const_ofInt _ := rfl
  const_of_equal _ _ _ := rfl
  unary_neg _ := rfl
  unary_const _ _ := rfl
  add_const _ _ := rfl
  sub_const _ _ := rfl
  mul_const _ _ := rfl
  div_const _ _ := rfl
  pow_const _ _ := rfl
  power_const _ _ := rfl
  inv_one := rfl
  pow_zero _ := rfl
  pow_one _ := rfl
  power_zero _ := rfl
  power_one _ := rfl
  exponents := p
  deriv _ _ := 0
  deriv_input _ _ := rfl
  deriv_weight _ _ := rfl
  deriv_const _ _ := rfl
  deriv_unary _ _ _ := rfl
  deriv_add _ _ _ := rfl
  deriv_sub _ _ _ := rfl
  deriv_mul _ _ _ := rfl
  deriv_inv _ _ := rfl
  deriv_pow _ _ _ := rfl
  deriv_power _ _ _ := rfl

instance (α : Type) [Arithmetic α] : Differential α PUnit := .unit α .exact

namespace Expression

section

variable {α : Type} (M : Type) [Arithmetic α] [CommRing M] [Interpretation α M]

def interpret : Expression α → M
  | input i => Interpretation.input α i
  | weight i => Interpretation.weight α i
  | const c => Interpretation.const c
  | unary op a => Interpretation.unary α op (interpret a)
  | binary op a b => Interpretation.binary α op (interpret a) (interpret b)
  | power a n => Interpretation.power α n (interpret a)

end

end Expression

/-- Constants that are calculated with as their values in a field. -/
class Reading (α F : Type) [Arithmetic α] [Field F] [FieldArithmetic F] where
  value : α → F
  value_ofInt (n : Int) : value (Arithmetic.ofInt n) = n
  value_of_equal (c : α) (n : Int) : Arithmetic.equal c (Arithmetic.ofInt n) = true → value c = n
  value_unary (op : UnaryOp) (c : α) : value (Arithmetic.unary op c) = Arithmetic.unary op (value c)
  value_binary (op : BinaryOp) (c d : α) :
    value (Arithmetic.binary op c d) = Arithmetic.binary op (value c) (value d)
  value_power (c : α) (n : Int32) : value (Arithmetic.power c n) = Arithmetic.power (value c) n

variable {F : Type} [Field F] [FieldArithmetic F]

instance : Reading F F where
  value c := c
  value_ofInt := FieldArithmetic.ofInt_eq
  value_of_equal c n same := by rw [(FieldArithmetic.equal_iff _ _).mp same, FieldArithmetic.ofInt_eq]
  value_unary _ _ := rfl
  value_binary _ _ _ := rfl
  value_power _ _ := rfl

namespace Expression

/-- The quotient rule, with the quotient itself in place of its numerator. -/
theorem Class.derivBy_inv {before : Int → Int} (one : before 1 = 0) (j : Nat) (x : Class F) :
    derivBy one j (inv x) = -(inv x * inv x) * derivBy one j x := by
  induction x using Class.ind with
  | _ a =>
      have rule := toClass_derivBy one j (.binary .div (.const 1) a)
      simp only [Expression.derivBy, combine, toClass_sub, toClass_mul, toClass_div, toClass_const,
        toClass_ofInt, Class.inv_mul, Class.const_one, Int.cast_zero, toClass_derivBy one, one_mul] at rule
      linear_combination -rule

/-- The classes of expressions, with constants read as their values. -/
instance Class.interpretation (α : Type) [Arithmetic α] [Reading α F] : Interpretation α (Class F) where
  input i := toClass (.input i)
  weight i := toClass (.weight i)
  const c := Class.const (Reading.value c)
  unary := Class.unary
  inv := Class.inv
  pow := Class.binary .pow
  power := Class.power
  const_ofInt n := by rw [Reading.value_ofInt, ← FieldArithmetic.ofInt_eq, Class.const_ofInt]
  const_of_equal c n same := by
    rw [Reading.value_of_equal c n same, ← FieldArithmetic.ofInt_eq, Class.const_ofInt]
  unary_neg _ := rfl
  unary_const op c := by rw [Class.unary_const, Reading.value_unary]
  add_const c d := by rw [Reading.value_binary]; exact Class.binary_const .add _ _
  sub_const c d := by rw [Reading.value_binary]; exact Class.binary_const .sub _ _
  mul_const c d := by rw [Reading.value_binary]; exact Class.binary_const .mul _ _
  div_const c d := by rw [Reading.value_binary, ← Class.binary_div, Class.binary_const]
  pow_const c d := by rw [Reading.value_binary]; exact Class.binary_const .pow _ _
  power_const c n := by rw [Class.power_const, Reading.value_power, FieldArithmetic.power_eq]
  inv_one := Class.inv_one
  pow_zero := Class.pow_zero
  pow_one := Class.pow_one
  power_zero := Class.power_zero
  power_one := Class.power_one

@[reducible]
def Class.differential (α F : Type) [Arithmetic α] [Field F] [FieldArithmetic F] [Reading α F]
    (p : Predecessor) : Differential α (Class F) where
  exponents := p
  deriv := Class.derivBy p.before_one
  deriv_input j i := by
    refine (toClass_derivBy p.before_one j (.input i)).symm.trans ?_
    rw [Expression.derivBy, toClass_ofInt]
    split <;> simp
  deriv_weight j i := (toClass_derivBy p.before_one j (.weight i)).symm.trans (by simp [Expression.derivBy])
  deriv_const j c := (toClass_derivBy p.before_one j (.const _)).symm.trans (by simp [Expression.derivBy])
  deriv_unary j op x := by
    induction x using Class.ind with
    | _ a =>
        have rule := toClass_derivBy p.before_one j (.unary op a)
        cases op <;>
          · simp only [Expression.derivBy, Expression.slope, toClass_unary, toClass_add, toClass_sub,
              toClass_mul, toClass_div, toClass_ofInt, Int.cast_neg, Int.cast_one, Int.cast_ofNat, one_mul] at rule
            exact rule.symm
  deriv_add j x y := by
    induction x using Class.ind with | _ a => induction y using Class.ind with | _ b =>
    exact (toClass_derivBy p.before_one j (.binary .add a b)).symm
  deriv_sub j x y := by
    induction x using Class.ind with | _ a => induction y using Class.ind with | _ b =>
    exact (toClass_derivBy p.before_one j (.binary .sub a b)).symm
  deriv_mul j x y := by
    induction x using Class.ind with | _ a => induction y using Class.ind with | _ b =>
    exact (toClass_derivBy p.before_one j (.binary .mul a b)).symm
  deriv_inv := Class.derivBy_inv p.before_one
  deriv_pow j x y := by
    induction x using Class.ind with | _ a => induction y using Class.ind with | _ b =>
    have rule := toClass_derivBy p.before_one j (.binary .pow a b)
    simp only [Expression.derivBy, combine, toClass_unary, toClass_add, toClass_sub, toClass_mul, toClass_pow,
      toClass_ofInt, Int.cast_one] at rule
    exact rule.symm
  deriv_power j n x := by
    induction x using Class.ind with
    | _ a =>
        have rule := toClass_derivBy p.before_one j (.power a n)
        simp only [Expression.derivBy, toClass_mul, toClass_power, toClass_ofInt] at rule
        exact rule.symm

instance : Differential F (Class F) := Class.differential F F .exact

@[simp] theorem deriv_toClass (j : Nat) (a : Expression F) :
    Differential.deriv F j (toClass a) = toClass (a.deriv j) := by
  rw [← derivBy_sub_one]
  exact (toClass_derivBy Predecessor.exact.before_one j a).symm

theorem interpret_reading {α : Type} [Arithmetic α] [Reading α F] (a : Expression α) :
    a.interpret (Class F) = toClass (a.map Reading.value) := by
  induction a with
  | input | weight | const => rfl
  | unary op a ih => rw [interpret, ih]; rfl
  | power a n ih => rw [interpret, ih]; rfl
  | binary op a b left right =>
      rw [interpret, left, right]
      cases op with
      | div => exact (toClass_div _ _).symm
      | add | sub | mul | pow => rfl

theorem interpret_class (a : Expression F) : a.interpret (Class F) = toClass a := by
  rw [interpret_reading]
  exact congrArg toClass a.map_self

end Expression

end AutoDiff
