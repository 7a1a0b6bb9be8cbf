import AutoDiff.Proofs.Expression
import Mathlib.Tactic.Ring
import Mathlib.Tactic.LinearCombination

/-!
An equational theory of expressions that is sound for values and closed under derivatives, so that
equivalent expressions also have the same derivatives of every order. Modulo the theory expressions are
a commutative ring, in which derivatives are calculated.
-/

namespace AutoDiff.Expression

variable {F : Type} [Field F] [FieldArithmetic F]

/-- The field laws without cancellation, the folding of constants, and the laws of powers. -/
inductive Equiv : Expression F → Expression F → Prop
  | refl (a) : Equiv a a
  | symm {a b} : Equiv a b → Equiv b a
  | trans {a b c} : Equiv a b → Equiv b c → Equiv a c
  | unary (op) {a b} : Equiv a b → Equiv (unary op a) (unary op b)
  | binary (op) {a b c d} : Equiv a c → Equiv b d → Equiv (binary op a b) (binary op c d)
  | power (n) {a b} : Equiv a b → Equiv (power a n) (power b n)
  | add_comm (a b) : Equiv (.binary .add a b) (.binary .add b a)
  | add_assoc (a b c) :
    Equiv (.binary .add (.binary .add a b) c) (.binary .add a (.binary .add b c))
  | zero_add (a) : Equiv (.binary .add (const 0) a) a
  | neg_add_cancel (a) : Equiv (.binary .add (.unary .neg a) a) (const 0)
  | sub_eq (a b) : Equiv (.binary .sub a b) (.binary .add a (.unary .neg b))
  | mul_comm (a b) : Equiv (.binary .mul a b) (.binary .mul b a)
  | mul_assoc (a b c) :
    Equiv (.binary .mul (.binary .mul a b) c) (.binary .mul a (.binary .mul b c))
  | one_mul (a) : Equiv (.binary .mul (const 1) a) a
  | mul_add (a b c) :
    Equiv (.binary .mul a (.binary .add b c)) (.binary .add (.binary .mul a b) (.binary .mul a c))
  | div_eq (a b) : Equiv (.binary .div a b) (.binary .mul a (.binary .div (const 1) b))
  | inv_mul (a b) :
    Equiv (.binary .div (const 1) (.binary .mul a b))
      (.binary .mul (.binary .div (const 1) a) (.binary .div (const 1) b))
  /-- This holds of zero too, whose inverse is zero. -/
  | mul_inv_inv (a) :
    Equiv (.binary .mul a (.binary .mul (.binary .div (const 1) a) (.binary .div (const 1) a)))
      (.binary .div (const 1) a)
  | fold_unary (op) (c : F) : Equiv (.unary op (const c)) (const (Arithmetic.unary op c))
  | fold_binary (op) (c d : F) :
    Equiv (.binary op (const c) (const d)) (const (Arithmetic.binary op c d))
  | fold_power (c : F) (n) : Equiv (.power (const c) n) (const (FieldArithmetic.wholePower c n))
  | pow_zero (a) : Equiv (.binary .pow a (const 0)) (const 1)
  | pow_one (a) : Equiv (.binary .pow a (const 1)) a
  | power_zero (a) : Equiv (.power a 0) (const 1)
  | power_one (a) : Equiv (.power a 1) a

theorem eval_eq_of_equiv {a b : Expression F} (same : Equiv a b) (x w : Array F) :
    eval x w a = eval x w b := by
  induction same with
  | refl => rfl
  | symm _ ih => exact ih.symm
  | trans _ _ first second => exact first.trans second
  | unary op _ ih => simp only [eval, ih]
  | binary op _ _ left right => simp only [eval, left, right]
  | power n _ ih => simp only [eval, ih]
  | mul_inv_inv a =>
      simp only [eval, FieldArithmetic.mul_eq, FieldArithmetic.div_eq, one_div]
      by_cases zero : eval x w a = 0
      · simp [zero]
      · rw [← mul_assoc, mul_inv_cancel₀ zero, one_mul]
  | add_comm | add_assoc | mul_comm | mul_assoc | mul_add | sub_eq =>
      simp only [eval, FieldArithmetic.add_eq, FieldArithmetic.sub_eq, FieldArithmetic.mul_eq,
        FieldArithmetic.neg_eq]
      ring
  | zero_add | neg_add_cancel | one_mul | pow_zero | pow_one | power_zero | power_one =>
      simp [eval]
  | div_eq a b => simp [eval, div_eq_mul_inv]
  | inv_mul a b => simp [eval, mul_comm]
  | fold_unary | fold_binary | fold_power => rfl

variable (F) in
def setoid : Setoid (Expression F) := ⟨Equiv, .refl, .symm, .trans⟩

variable (F) in
def Class : Type := Quotient (setoid F)

def toClass (a : Expression F) : Class F := Quotient.mk (setoid F) a

theorem toClass_eq_iff {a b : Expression F} : toClass a = toClass b ↔ Equiv a b :=
  Quotient.eq (r := setoid F)

theorem Equiv.toClass_eq {a b : Expression F} (same : Equiv a b) : toClass a = toClass b :=
  toClass_eq_iff.mpr same

namespace Class

theorem ind {P : Class F → Prop} (each : ∀ a, P (toClass a)) (x : Class F) : P x :=
  Quotient.ind each x

def unary (op : UnaryOp) : Class F → Class F :=
  Quotient.map (Expression.unary op) fun _ _ same => .unary op same

def binary (op : BinaryOp) : Class F → Class F → Class F :=
  Quotient.map₂ (Expression.binary op) fun _ _ left _ _ right => .binary op left right

def power (n : Int) (x : Class F) : Class F :=
  Quotient.map (Expression.power · n) (fun _ _ same => .power n same) x

def const (c : F) : Class F := toClass (.const c)

def inv : Class F → Class F := binary .div (const 1)

instance : Zero (Class F) := ⟨const 0⟩
instance : One (Class F) := ⟨const 1⟩
instance : Add (Class F) := ⟨binary .add⟩
instance : Mul (Class F) := ⟨binary .mul⟩
instance : Neg (Class F) := ⟨unary .neg⟩
instance : Sub (Class F) := ⟨binary .sub⟩

protected theorem add_comm (x y : Class F) : x + y = y + x := by
  induction x using ind with | _ a => induction y using ind with | _ b =>
  exact (Equiv.add_comm a b).toClass_eq

protected theorem mul_comm (x y : Class F) : x * y = y * x := by
  induction x using ind with | _ a => induction y using ind with | _ b =>
  exact (Equiv.mul_comm a b).toClass_eq

protected theorem zero_add (x : Class F) : 0 + x = x := by
  induction x using ind with | _ a => exact (Equiv.zero_add a).toClass_eq

protected theorem one_mul (x : Class F) : 1 * x = x := by
  induction x using ind with | _ a => exact (Equiv.one_mul a).toClass_eq

protected theorem mul_add (x y z : Class F) : x * (y + z) = x * y + x * z := by
  induction x using ind with | _ a => induction y using ind with | _ b =>
  induction z using ind with | _ c => exact (Equiv.mul_add a b c).toClass_eq

protected theorem add_assoc (x y z : Class F) : x + y + z = x + (y + z) := by
  induction x using ind with | _ a => induction y using ind with | _ b =>
  induction z using ind with | _ c => exact (Equiv.add_assoc a b c).toClass_eq

protected theorem mul_assoc (x y z : Class F) : x * y * z = x * (y * z) := by
  induction x using ind with | _ a => induction y using ind with | _ b =>
  induction z using ind with | _ c => exact (Equiv.mul_assoc a b c).toClass_eq

protected theorem neg_add_cancel (x : Class F) : -x + x = 0 := by
  induction x using ind with | _ a => exact (Equiv.neg_add_cancel a).toClass_eq

protected theorem sub_eq (x y : Class F) : x - y = x + -y := by
  induction x using ind with | _ a => induction y using ind with | _ b =>
  exact (Equiv.sub_eq a b).toClass_eq

/-- No axiom says this of a product with zero: it follows by adding the product to itself. -/
protected theorem zero_mul (x : Class F) : 0 * x = 0 := by
  have double : x * 0 + x * 0 = x * 0 := by rw [← Class.mul_add, Class.zero_add]
  calc
    0 * x = 0 + x * 0 := by rw [Class.zero_add, Class.mul_comm]
    _ = -(x * 0) + (x * 0 + x * 0) := by rw [← Class.add_assoc, Class.neg_add_cancel]
    _ = 0 := by rw [double, Class.neg_add_cancel]

instance : CommRing (Class F) where
  add_assoc := Class.add_assoc
  zero_add := Class.zero_add
  add_zero x := by rw [Class.add_comm, Class.zero_add]
  add_comm := Class.add_comm
  mul_assoc := Class.mul_assoc
  one_mul := Class.one_mul
  mul_one x := by rw [Class.mul_comm, Class.one_mul]
  left_distrib := Class.mul_add
  right_distrib x y z := by rw [Class.mul_comm, Class.mul_add, Class.mul_comm z x, Class.mul_comm z y]
  zero_mul := Class.zero_mul
  mul_zero x := by rw [Class.mul_comm, Class.zero_mul]
  mul_comm := Class.mul_comm
  neg_add_cancel := Class.neg_add_cancel
  sub_eq_add_neg := Class.sub_eq
  nsmul := nsmulRec
  zsmul := zsmulRec

theorem inv_mul (x y : Class F) : inv (x * y) = inv x * inv y := by
  induction x using ind with | _ a => induction y using ind with | _ b =>
  exact (Equiv.inv_mul a b).toClass_eq

theorem mul_inv_inv (x : Class F) : x * (inv x * inv x) = inv x := by
  induction x using ind with | _ a => exact (Equiv.mul_inv_inv a).toClass_eq

theorem binary_div (x y : Class F) : binary .div x y = x * inv y := by
  induction x using ind with | _ a => induction y using ind with | _ b =>
  exact (Equiv.div_eq a b).toClass_eq

theorem pow_zero (x : Class F) : binary .pow x 0 = 1 := by
  induction x using ind with | _ a => exact (Equiv.pow_zero a).toClass_eq

theorem pow_one (x : Class F) : binary .pow x 1 = x := by
  induction x using ind with | _ a => exact (Equiv.pow_one a).toClass_eq

theorem power_zero (x : Class F) : power 0 x = 1 := by
  induction x using ind with | _ a => exact (Equiv.power_zero a).toClass_eq

theorem power_one (x : Class F) : power 1 x = x := by
  induction x using ind with | _ a => exact (Equiv.power_one a).toClass_eq

@[simp] theorem unary_neg (x : Class F) : unary .neg x = -x := rfl

theorem unary_const (op : UnaryOp) (c : F) : unary op (const c) = const (Arithmetic.unary op c) :=
  (Equiv.fold_unary op c).toClass_eq

theorem binary_const (op : BinaryOp) (c d : F) :
    binary op (const c) (const d) = const (Arithmetic.binary op c d) :=
  (Equiv.fold_binary op c d).toClass_eq

theorem power_const (n : Int) (c : F) : power n (const c) = const (FieldArithmetic.wholePower c n) :=
  (Equiv.fold_power c n).toClass_eq

def constHom : F →+* Class F where
  toFun := const
  map_zero' := rfl
  map_one' := rfl
  map_add' c d := by rw [← FieldArithmetic.add_eq, ← binary_const]; rfl
  map_mul' c d := by rw [← FieldArithmetic.mul_eq, ← binary_const]; rfl

theorem const_ofInt (n : Int) : const (Arithmetic.ofInt n) = (n : Class F) := by
  rw [FieldArithmetic.ofInt_eq]
  exact map_intCast constHom n

@[simp] theorem const_zero : const (0 : F) = 0 := rfl
@[simp] theorem const_one : const (1 : F) = 1 := rfl

theorem inv_one : inv (1 : Class F) = 1 := by
  have folded := binary_const .div (1 : F) 1
  rw [FieldArithmetic.div_eq, div_one] at folded
  exact folded

end Class

section ToClass

variable (a b : Expression F)

@[simp] theorem toClass_const (c : F) : toClass (const c) = Class.const c := rfl
@[simp] theorem toClass_ofInt (n : Int) : toClass (ofInt n) = (n : Class F) := Class.const_ofInt n
@[simp] theorem toClass_add : toClass (binary .add a b) = toClass a + toClass b := rfl
@[simp] theorem toClass_sub : toClass (binary .sub a b) = toClass a - toClass b := rfl
@[simp] theorem toClass_mul : toClass (binary .mul a b) = toClass a * toClass b := rfl
@[simp] theorem toClass_neg : toClass (unary .neg a) = -toClass a := rfl
@[simp] theorem toClass_power (n : Int) : toClass (power a n) = .power n (toClass a) := rfl

@[simp] theorem toClass_pow : toClass (binary .pow a b) = .binary .pow (toClass a) (toClass b) := rfl

@[simp] theorem toClass_div : toClass (binary .div a b) = toClass a * (toClass b).inv :=
  Class.binary_div (toClass a) (toClass b)

theorem toClass_unary (op : UnaryOp) : toClass (unary op a) = .unary op (toClass a) := rfl

end ToClass

theorem slope_congr {a b : Expression F} (same : Equiv a b) (op : UnaryOp) :
    Equiv (slope a op) (slope b op) := by
  rw [← toClass_eq_iff]
  cases op <;> simp [slope, toClass_unary, same.toClass_eq]

theorem combine_congr {a b a' b' c d c' d' : Expression F} (left : Equiv a c) (right : Equiv b d)
    (left' : Equiv a' c') (right' : Equiv b' d') (op : BinaryOp) :
    Equiv (combine a b a' b' op) (combine c d c' d' op) := by
  rw [← toClass_eq_iff]
  cases op <;> simp [combine, toClass_unary, left.toClass_eq, right.toClass_eq,
    left'.toClass_eq, right'.toClass_eq]

section Derivative

variable {before : Int → Int} (one : before 1 = 0)
include one

theorem Equiv.derivBy {a b : Expression F} (same : Equiv a b) (j : Nat) :
    Equiv (derivBy before j a) (derivBy before j b) := by
  induction same with
  | refl a => exact .refl _
  | symm _ ih => exact ih.symm
  | trans _ _ first second => exact first.trans second
  | unary op same ih => exact .binary .mul (slope_congr same op) ih
  | binary op left right first second => exact combine_congr left right first second op
  | power n same ih => exact .binary .mul (.binary .mul (.refl _) (.power _ same)) ih
  | zero_add | one_mul | neg_add_cancel =>
      rw [← toClass_eq_iff]
      simp [Expression.derivBy, combine, slope]
  | add_comm | add_assoc | mul_comm | mul_assoc | mul_add | sub_eq =>
      rw [← toClass_eq_iff]
      simp only [Expression.derivBy, combine, slope, toClass_add, toClass_sub, toClass_mul, toClass_ofInt]
      push_cast
      ring
  | div_eq a b =>
      rw [← toClass_eq_iff]
      simp only [Expression.derivBy, combine, toClass_add, toClass_sub, toClass_mul, toClass_div,
        toClass_const, toClass_ofInt, Class.inv_mul, Class.const_one, Int.cast_zero]
      linear_combination (Expression.derivBy before j a).toClass * Class.mul_inv_inv b.toClass
  | inv_mul a b =>
      rw [← toClass_eq_iff]
      simp only [Expression.derivBy, combine, toClass_add, toClass_sub, toClass_mul, toClass_div,
        toClass_const, toClass_ofInt, Class.inv_mul, Class.const_one, Int.cast_zero]
      linear_combination
        -(Expression.derivBy before j a).toClass * a.toClass.inv ^ 2 * Class.mul_inv_inv b.toClass
          - (Expression.derivBy before j b).toClass * b.toClass.inv ^ 2 * Class.mul_inv_inv a.toClass
  | mul_inv_inv a =>
      rw [← toClass_eq_iff]
      simp only [Expression.derivBy, combine, toClass_add, toClass_sub, toClass_mul, toClass_div,
        toClass_const, toClass_ofInt, Class.inv_mul, Class.const_one, Int.cast_zero]
      linear_combination
        -2 * (Expression.derivBy before j a).toClass * a.toClass.inv * Class.mul_inv_inv a.toClass
  | fold_unary op c =>
      rw [← toClass_eq_iff]
      simp [Expression.derivBy]
  | fold_binary op c d =>
      rw [← toClass_eq_iff]
      cases op <;> simp [Expression.derivBy, combine]
  | fold_power c n =>
      rw [← toClass_eq_iff]
      simp [Expression.derivBy]
  | pow_zero a =>
      rw [← toClass_eq_iff]
      simp [Expression.derivBy, combine]
  | pow_one a =>
      rw [← toClass_eq_iff]
      simp [Expression.derivBy, combine, Class.pow_zero]
  | power_zero a =>
      rw [← toClass_eq_iff]
      simp [Expression.derivBy]
  | power_one a =>
      rw [← toClass_eq_iff]
      simp [Expression.derivBy, one, Class.power_zero]

def Class.derivBy (j : Nat) : Class F → Class F :=
  Quotient.map (Expression.derivBy before j) fun _ _ same => same.derivBy one j

@[simp] theorem toClass_derivBy (j : Nat) (a : Expression F) :
    toClass (Expression.derivBy before j a) = (toClass a).derivBy one j :=
  rfl

end Derivative

end AutoDiff.Expression
