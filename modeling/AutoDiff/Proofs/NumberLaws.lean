import AutoDiff.Proofs.Equivalence

/-!
Laws of arithmetic in which numbers need not be finite and zeros may have a sign. One set of laws is about results
that are finite, another one about all results, infinities and numbers that are none among them; with what zeros do
where their sign may be told, the second set gives the first one. Fields obey the first set.
-/

namespace AutoDiff

/-- Which numbers are finite, which are zeros, and which are no numbers at all. -/
class NumberKinds (E : Type) where
  isFinite : E → Bool
  isZero : E → Bool
  isNaN : E → Bool

open NumberKinds

section Near

variable {E : Type} [NumberKinds E] {x y z : E}

/-- The same number but for the sign of a zero. -/
def Near (x y : E) : Prop := x = y ∨ isZero x = true ∧ isZero y = true

theorem Near.refl (x : E) : Near x x := .inl rfl

theorem Near.symm (near : Near x y) : Near y x := by
  rcases near with rfl | ⟨first, second⟩
  · exact .inl rfl
  · exact .inr ⟨second, first⟩

theorem Near.trans (first : Near x y) (second : Near y z) : Near x z := by
  rcases first with rfl | ⟨left, middle⟩
  · exact second
  · rcases second with rfl | ⟨_, right⟩
    · exact .inr ⟨left, middle⟩
    · exact .inr ⟨left, right⟩

end Near

open Arithmetic in
/-- The laws of floating-point arithmetic that optimization rests on. They hold of finite results, and up to the sign
of a zero. -/
class FiniteLaws (E : Type) [Arithmetic E] [NumberKinds E] : Prop where
  isFinite_of_isZero (x : E) : isZero x = true → isFinite x = true
  near_of_equal (c : E) (n : Int) : equal c (ofInt n) = true → Near c (ofInt n)
  near_unary (op : UnaryOp) {x y : E} : Near x y → isFinite (unary op x) = true → Near (unary op x) (unary op y)
  near_binary (op : BinaryOp) {x y u v : E} : Near x u → Near y v → isFinite (binary op x y) = true →
    Near (binary op x y) (binary op u v)
  near_power (n : Int32) {x y : E} : Near x y → isFinite (power x n) = true → Near (power x n) (power y n)
  comm (op : BinaryOp) (x y : E) : op.isCommutative = true → isFinite (binary op x y) = true →
    Near (binary op x y) (binary op y x)
  add_zero (x : E) : isFinite (binary .add x (ofInt 0)) = true → Near (binary .add x (ofInt 0)) x
  sub_zero (x : E) : isFinite (binary .sub x (ofInt 0)) = true → Near (binary .sub x (ofInt 0)) x
  zero_sub (x : E) : isFinite (binary .sub (ofInt 0) x) = true → Near (binary .sub (ofInt 0) x) (unary .neg x)
  neg_neg (x : E) : isFinite (unary .neg (unary .neg x)) = true → Near (unary .neg (unary .neg x)) x
  zero_mul (x : E) : isFinite (binary .mul (ofInt 0) x) = true → Near (binary .mul (ofInt 0) x) (ofInt 0)
  one_mul (x : E) : isFinite (binary .mul (ofInt 1) x) = true → Near (binary .mul (ofInt 1) x) x
  minus_mul (x : E) : isFinite (binary .mul (ofInt (-1)) x) = true → Near (binary .mul (ofInt (-1)) x) (unary .neg x)
  zero_div (x : E) : isFinite (binary .div (ofInt 0) x) = true → Near (binary .div (ofInt 0) x) (ofInt 0)
  div_one (x : E) : isFinite (binary .div x (ofInt 1)) = true → Near (binary .div x (ofInt 1)) x
  pow_zero (x : E) : isFinite (binary .pow x (ofInt 0)) = true → Near (binary .pow x (ofInt 0)) (ofInt 1)
  pow_one (x : E) : isFinite (binary .pow x (ofInt 1)) = true → Near (binary .pow x (ofInt 1)) x
  power_zero (x : E) : isFinite (power x 0) = true → Near (power x 0) (ofInt 1)
  power_one (x : E) : isFinite (power x 1) = true → Near (power x 1) x

section Agree

variable {E : Type} [NumberKinds E] {x y z : E}

def Same (x y : E) : Prop := x = y ∨ isNaN x = true ∧ isNaN y = true

/-- The same but for the sign of a zero. -/
def Agree (x y : E) : Prop := Same x y ∨ isZero x = true ∧ isZero y = true

theorem Same.refl (x : E) : Same x x := .inl rfl

theorem Same.symm (same : Same x y) : Same y x := by
  rcases same with rfl | ⟨first, second⟩
  · exact .inl rfl
  · exact .inr ⟨second, first⟩

theorem Same.trans (first : Same x y) (second : Same y z) : Same x z := by
  rcases first with rfl | ⟨left, middle⟩
  · exact second
  · rcases second with rfl | ⟨_, right⟩
    · exact .inr ⟨left, middle⟩
    · exact .inr ⟨left, right⟩

theorem Same.agree (same : Same x y) : Agree x y := .inl same

theorem Near.agree (near : Near x y) : Agree x y := by
  rcases near with rfl | zeros
  · exact .inl (.refl _)
  · exact .inr zeros

theorem Agree.near (agree : Agree x y) (number : isNaN x = false) : Near x y := by
  rcases agree with (rfl | ⟨none, _⟩) | zeros
  · exact .refl _
  · rw [number] at none
    cases none
  · exact .inr zeros

end Agree

open Arithmetic in
/-- Laws of floating-point arithmetic about all numbers. Those of a zero hold of both zeros. -/
class SpecialLaws (E : Type) [Arithmetic E] [NumberKinds E] : Prop where
  isFinite_of_isZero (x : E) : isZero x = true → isFinite x = true
  isNaN_of_isFinite (x : E) : isFinite x = true → isNaN x = false
  equal_zero_iff (c : E) : equal c (ofInt 0) = true ↔ isZero c = true
  eq_of_equal (c : E) (n : Int) : n = 1 ∨ n = -1 → equal c (ofInt n) = true → c = ofInt n
  isZero_unit (n : Int) : n = 1 ∨ n = -1 → isZero (ofInt n : E) = false
  nan_unary (op : UnaryOp) (x y : E) : isNaN x = true → isNaN y = true → Same (unary op x) (unary op y)
  nan_left (op : BinaryOp) (x y z : E) : isNaN x = true → isNaN y = true → Same (binary op x z) (binary op y z)
  nan_right (op : BinaryOp) (x y z : E) : isNaN y = true → isNaN z = true → Same (binary op x y) (binary op x z)
  nan_power (n : Int32) (x y : E) : isNaN x = true → isNaN y = true → Same (power x n) (power y n)
  comm (op : BinaryOp) (x y : E) : op.isCommutative = true → Same (binary op x y) (binary op y x)
  add_zero (x c : E) : isZero c = true → Agree (binary .add x c) x
  sub_zero (x c : E) : isZero c = true → Agree (binary .sub x c) x
  zero_sub (c x : E) : isZero c = true → Agree (binary .sub c x) (unary .neg x)
  neg_neg (x : E) : Same (unary .neg (unary .neg x)) x
  zero_mul (c x : E) : isZero c = true → isFinite x = true → isZero (binary .mul c x) = true
  one_mul (x : E) : Same (binary .mul (ofInt 1) x) x
  minus_mul (x : E) : Same (binary .mul (ofInt (-1)) x) (unary .neg x)
  zero_div (c x : E) : isZero c = true → isZero x = false → isNaN x = false → isZero (binary .div c x) = true
  div_one (x : E) : Same (binary .div x (ofInt 1)) x
  pow_zero (x c : E) : isZero c = true → Same (binary .pow x c) (ofInt 1)
  pow_one (x : E) : Same (binary .pow x (ofInt 1)) x
  power_zero (x : E) : Same (power x 0) (ofInt 1)
  power_one (x : E) : Same (power x 1) x

open Arithmetic in
/-- Laws about zeros where they matter: the sign of a zero that is divided by, or is the base of a power, may be
told. -/
class ZeroLaws (E : Type) [Arithmetic E] [NumberKinds E] : Prop where
  isZero_ofInt : isZero (ofInt 0 : E) = true
  near_of_equal (c : E) (n : Int) : equal c (ofInt n) = true → Near c (ofInt n)
  zero_unary (op : UnaryOp) (x y : E) : isZero x = true → isZero y = true → Agree (unary op x) (unary op y)
  mul_special (c x : E) : isZero c = true → isFinite x = false → isNaN (binary .mul c x) = true
  div_special (c x : E) : isZero c = true → isZero x = true ∨ isNaN x = true → isNaN (binary .div c x) = true
  div_zero (x c : E) : isZero c = true → isFinite (binary .div x c) = false
  zero_pow (x y z : E) : isZero x = true → isZero y = true → isFinite (binary .pow x z) = true →
    Near (binary .pow x z) (binary .pow y z)
  zero_power (n : Int32) (x y : E) : isZero x = true → isZero y = true → isFinite (power x n) = true →
    Near (power x n) (power y n)
  zero_power_nonneg (n : Int32) (x y : E) : isZero x = true → isZero y = true → 0 ≤ n.toInt →
    Agree (power x n) (power y n)

section Special

variable {E : Type} [Arithmetic E] [NumberKinds E] [SpecialLaws E] {x y z u v : E}

theorem Same.isZero (same : Same x y) (zero : isZero x = true) : isZero y = true := by
  rcases same with rfl | ⟨none, _⟩
  · exact zero
  · rw [SpecialLaws.isNaN_of_isFinite x (SpecialLaws.isFinite_of_isZero x zero)] at none
    cases none

theorem isFinite_of_near (near : Near x y) (finite : isFinite x = true) : isFinite y = true := by
  rcases near with rfl | ⟨_, zero⟩
  · exact finite
  · exact SpecialLaws.isFinite_of_isZero y zero

omit [Arithmetic E] [SpecialLaws E] in
theorem Agree.symm (agree : Agree x y) : Agree y x := by
  rcases agree with same | ⟨first, second⟩
  · exact .inl same.symm
  · exact .inr ⟨second, first⟩

theorem Agree.trans (first : Agree x y) (second : Agree y z) : Agree x z := by
  rcases first with same | ⟨left, middle⟩
  · rcases second with also | ⟨middle, right⟩
    · exact .inl (same.trans also)
    · exact .inr ⟨same.symm.isZero middle, right⟩
  · rcases second with same | ⟨_, right⟩
    · exact .inr ⟨left, same.isZero middle⟩
    · exact .inr ⟨left, right⟩

theorem near_of_agree (agree : Agree x y) (finite : isFinite x = true) : Near x y :=
  agree.near (SpecialLaws.isNaN_of_isFinite x finite)

theorem same_binary (op : BinaryOp) (left : Same x u) (right : Same y v) :
    Same (Arithmetic.binary op x y) (Arithmetic.binary op u v) := by
  have first : Same (Arithmetic.binary op x y) (Arithmetic.binary op u y) := by
    rcases left with rfl | ⟨one, two⟩
    · exact .refl _
    · exact SpecialLaws.nan_left op x u y one two
  refine first.trans ?_
  rcases right with rfl | ⟨one, two⟩
  · exact .refl _
  · exact SpecialLaws.nan_right op u y v one two

theorem agree_add (left : Agree x u) (right : Agree y v) :
    Agree (Arithmetic.binary .add x y) (Arithmetic.binary .add u v) := by
  have second (a : E) : Agree (Arithmetic.binary .add a y) (Arithmetic.binary .add a v) := by
    rcases right with same | ⟨zero, also⟩
    · exact .inl (same_binary .add (.refl a) same)
    · exact (SpecialLaws.add_zero a y zero).trans (SpecialLaws.add_zero a v also).symm
  refine Agree.trans ?_ (second u)
  rcases left with same | ⟨zero, also⟩
  · exact .inl (same_binary .add same (.refl y))
  · have one := (SpecialLaws.comm .add x y rfl).agree.trans (SpecialLaws.add_zero y x zero)
    have two := (SpecialLaws.comm .add u y rfl).agree.trans (SpecialLaws.add_zero y u also)
    exact one.trans two.symm

theorem agree_sub (left : Agree x u) (right : Agree y v) :
    Agree (Arithmetic.binary .sub x y) (Arithmetic.binary .sub u v) := by
  have second (a : E) : Agree (Arithmetic.binary .sub a y) (Arithmetic.binary .sub a v) := by
    rcases right with same | ⟨zero, also⟩
    · exact .inl (same_binary .sub (.refl a) same)
    · exact (SpecialLaws.sub_zero a y zero).trans (SpecialLaws.sub_zero a v also).symm
  refine Agree.trans ?_ (second u)
  rcases left with same | ⟨zero, also⟩
  · exact .inl (same_binary .sub same (.refl y))
  · exact (SpecialLaws.zero_sub x y zero).trans (SpecialLaws.zero_sub u y also).symm

theorem agree_pow_right (x : E) (right : Agree y v) :
    Agree (Arithmetic.binary .pow x y) (Arithmetic.binary .pow x v) := by
  rcases right with same | ⟨zero, also⟩
  · exact .inl (same_binary .pow (.refl x) same)
  · exact .inl ((SpecialLaws.pow_zero x y zero).trans (SpecialLaws.pow_zero x v also).symm)

/-- The product of a zero and a number is a zero, or no number, whichever zero it is. -/
theorem agree_mul_of_special
    (special : ∀ c x : E, isZero c = true → isFinite x = false → isNaN (Arithmetic.binary .mul c x) = true)
    (left : Agree x u) (right : Agree y v) : Agree (Arithmetic.binary .mul x y) (Arithmetic.binary .mul u v) := by
  have first {a b : E} (c : E) (agree : Agree a b) :
      Agree (Arithmetic.binary .mul a c) (Arithmetic.binary .mul b c) := by
    rcases agree with same | ⟨zero, also⟩
    · exact .inl (same_binary .mul same (.refl c))
    · cases finite : isFinite c with
      | true => exact .inr ⟨SpecialLaws.zero_mul a c zero finite, SpecialLaws.zero_mul b c also finite⟩
      | false => exact .inl (.inr ⟨special a c zero finite, special b c also finite⟩)
  have swapped := (SpecialLaws.comm .mul u y rfl).agree.trans (first u right)
  exact (first y left).trans (swapped.trans (SpecialLaws.comm .mul v u rfl).agree)

variable [ZeroLaws E]

theorem agree_unary (op : UnaryOp) (agree : Agree x y) : Agree (Arithmetic.unary op x) (Arithmetic.unary op y) := by
  rcases agree with (rfl | ⟨none, also⟩) | ⟨zero, also⟩
  · exact .inl (.refl _)
  · exact .inl (SpecialLaws.nan_unary op x y none also)
  · exact ZeroLaws.zero_unary op x y zero also

theorem agree_mul (left : Agree x u) (right : Agree y v) :
    Agree (Arithmetic.binary .mul x y) (Arithmetic.binary .mul u v) :=
  agree_mul_of_special ZeroLaws.mul_special left right

theorem agree_div_left (y : E) (left : Agree x u) :
    Agree (Arithmetic.binary .div x y) (Arithmetic.binary .div u y) := by
  rcases left with same | ⟨zero, also⟩
  · exact .inl (same_binary .div same (.refl y))
  · by_cases special : isZero y = true ∨ isNaN y = true
    · exact .inl (.inr ⟨ZeroLaws.div_special x y zero special, ZeroLaws.div_special u y also special⟩)
    · obtain ⟨nonzero, number⟩ := not_or.mp special
      rw [Bool.not_eq_true] at nonzero number
      exact .inr ⟨SpecialLaws.zero_div x y zero nonzero number, SpecialLaws.zero_div u y also nonzero number⟩

theorem agree_power {n : Int32} (upward : 0 ≤ n.toInt) (agree : Agree x y) :
    Agree (Arithmetic.power x n) (Arithmetic.power y n) := by
  rcases agree with (rfl | ⟨none, also⟩) | ⟨zero, also⟩
  · exact .inl (.refl _)
  · exact .inl (SpecialLaws.nan_power n x y none also)
  · exact ZeroLaws.zero_power_nonneg n x y zero also upward

theorem near_binary_of_near (op : BinaryOp) (left : Near x u) (right : Near y v)
    (finite : isFinite (Arithmetic.binary op x y) = true) :
    Near (Arithmetic.binary op x y) (Arithmetic.binary op u v) := by
  cases op with
  | add => exact near_of_agree (agree_add left.agree right.agree) finite
  | sub => exact near_of_agree (agree_sub left.agree right.agree) finite
  | mul => exact near_of_agree (agree_mul left.agree right.agree) finite
  | div =>
      rcases right with rfl | ⟨zero, _⟩
      · exact near_of_agree (agree_div_left y left.agree) finite
      · rw [ZeroLaws.div_zero x y zero] at finite
        cases finite
  | pow =>
      have first : Near (Arithmetic.binary .pow x y) (Arithmetic.binary .pow u y) := by
        rcases left with rfl | ⟨zero, also⟩
        · exact .refl _
        · exact ZeroLaws.zero_pow x u y zero also finite
      exact first.trans (near_of_agree (agree_pow_right u right.agree) (isFinite_of_near first finite))

instance : FiniteLaws E where
  isFinite_of_isZero := SpecialLaws.isFinite_of_isZero
  near_of_equal := ZeroLaws.near_of_equal
  near_unary op _ _ near finite := near_of_agree (agree_unary op near.agree) finite
  near_binary op _ _ _ _ := near_binary_of_near op
  near_power n x y near finite := by
    rcases near with rfl | ⟨zero, also⟩
    · exact .refl _
    · exact ZeroLaws.zero_power n x y zero also finite
  comm op x y commutes finite := near_of_agree (SpecialLaws.comm op x y commutes).agree finite
  add_zero x finite := near_of_agree (SpecialLaws.add_zero x _ ZeroLaws.isZero_ofInt) finite
  sub_zero x finite := near_of_agree (SpecialLaws.sub_zero x _ ZeroLaws.isZero_ofInt) finite
  zero_sub x finite := near_of_agree (SpecialLaws.zero_sub _ x ZeroLaws.isZero_ofInt) finite
  neg_neg x finite := near_of_agree (SpecialLaws.neg_neg x).agree finite
  zero_mul x finite := by
    refine .inr ⟨SpecialLaws.zero_mul _ x ZeroLaws.isZero_ofInt ?_, ZeroLaws.isZero_ofInt⟩
    by_contra infinite
    rw [Bool.not_eq_true] at infinite
    have none := ZeroLaws.mul_special _ x ZeroLaws.isZero_ofInt infinite
    rw [SpecialLaws.isNaN_of_isFinite _ finite] at none
    cases none
  one_mul x finite := near_of_agree (SpecialLaws.one_mul x).agree finite
  minus_mul x finite := near_of_agree (SpecialLaws.minus_mul x).agree finite
  zero_div x finite := by
    by_cases special : isZero x = true ∨ isNaN x = true
    · have none := ZeroLaws.div_special _ x ZeroLaws.isZero_ofInt special
      rw [SpecialLaws.isNaN_of_isFinite _ finite] at none
      cases none
    · obtain ⟨nonzero, number⟩ := not_or.mp special
      rw [Bool.not_eq_true] at nonzero number
      exact .inr ⟨SpecialLaws.zero_div _ x ZeroLaws.isZero_ofInt nonzero number, ZeroLaws.isZero_ofInt⟩
  div_one x finite := near_of_agree (SpecialLaws.div_one x).agree finite
  pow_zero x finite := near_of_agree (SpecialLaws.pow_zero x _ ZeroLaws.isZero_ofInt).agree finite
  pow_one x finite := near_of_agree (SpecialLaws.pow_one x).agree finite
  power_zero x finite := near_of_agree (SpecialLaws.power_zero x).agree finite
  power_one x finite := near_of_agree (SpecialLaws.power_one x).agree finite

end Special

section

variable {F : Type} [Field F] [FieldArithmetic F]

instance : NumberKinds F where
  isFinite _ := true
  isZero a := Arithmetic.equal a (Arithmetic.ofInt 0)
  isNaN _ := false

theorem near_iff_eq (a b : F) : Near a b ↔ a = b := by
  refine ⟨fun near => ?_, fun same => .inl same⟩
  rcases near with same | ⟨first, second⟩
  · exact same
  · rw [(FieldArithmetic.equal_iff _ _).mp first, (FieldArithmetic.equal_iff _ _).mp second]

instance : FiniteLaws F where
  isFinite_of_isZero _ _ := rfl
  near_of_equal c n same := .inl ((FieldArithmetic.equal_iff _ _).mp same)
  near_unary op a b near _ := by rw [(near_iff_eq a b).mp near]; exact .refl _
  near_binary op a b c d first second _ := by
    rw [(near_iff_eq a c).mp first, (near_iff_eq b d).mp second]
    exact .refl _
  near_power n a b near _ := by rw [(near_iff_eq a b).mp near]; exact .refl _
  comm op a b commutes _ := by
    cases op with
    | add => exact .inl (by simp [add_comm])
    | mul => exact .inl (by simp [mul_comm])
    | sub | div | pow => cases commutes
  add_zero a _ := .inl (by simp)
  sub_zero a _ := .inl (by simp)
  zero_sub a _ := .inl (by simp)
  neg_neg a _ := .inl (by simp)
  zero_mul a _ := .inl (by simp)
  one_mul a _ := .inl (by simp)
  minus_mul a _ := .inl (by simp)
  zero_div a _ := .inl (by simp)
  div_one a _ := .inl (by simp)
  pow_zero a _ := .inl (by simp)
  pow_one a _ := .inl (by simp)
  power_zero a _ := .inl (by simp)
  power_one a _ := .inl (by simp)

end

end AutoDiff
