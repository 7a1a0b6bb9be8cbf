import AutoDiff.Arithmetic
import Mathlib.Data.List.Forall2
import Mathlib.Data.Nat.Bits

namespace AutoDiff

namespace Binary64

open Float.Model (UnpackedFloat Format)

theorem exponentField_eq (x : Binary64) :
    x.exponentField = (@UnpackedFloat.unpackExponent Format.binary64 x.bits.toBitVec).toNat := by
  simp only [exponentField, UInt64.toNat_and, UInt64.toNat_shiftRight]
  change (x.bits.toNat >>> 52) &&& (2 ^ 11 - 1) = (x.bits.toNat >>> 52) % 2 ^ 11
  rw [Nat.and_two_pow_sub_one_eq_mod]

theorem fractionField_eq (x : Binary64) :
    x.fractionField = (@UnpackedFloat.unpackMantissa Format.binary64 x.bits.toBitVec).toNat := by
  simp only [fractionField, UInt64.toNat_and]
  change x.bits.toNat &&& (2 ^ 52 - 1) = (x.bits.toNat >>> 0) % 2 ^ 52
  rw [Nat.and_two_pow_sub_one_eq_mod, Nat.shiftRight_zero]

theorem exponentField_eq_iff (x : Binary64) :
    x.exponentField = 0x7ff ↔ @UnpackedFloat.unpackExponent Format.binary64 x.bits.toBitVec = -1#_ := by
  rw [exponentField_eq, ← BitVec.toNat_inj]
  rfl

theorem fractionField_eq_iff (x : Binary64) :
    x.fractionField = 0 ↔ @UnpackedFloat.unpackMantissa Format.binary64 x.bits.toBitVec = 0#_ := by
  rw [fractionField_eq, ← BitVec.toNat_inj]
  rfl

theorem toFloat_of_isNaN {x : Binary64} (nan : x.isNaN = true) :
    x.toFloat = .ofModel (.pack .notANumber) := by
  simp only [isNaN, Bool.and_eq_true, beq_iff_eq, bne_iff_ne, ne_eq] at nan
  have unpacked : UnpackedFloat.unpack Format.binary64 x.bits.toBitVec = .notANumber :=
    (if_pos ((exponentField_eq_iff x).mp nan.1)).trans (if_neg (mt (fractionField_eq_iff x).mpr nan.2))
  exact congrArg (fun unpacked => Float.ofModel (.pack unpacked)) unpacked

/-- The same number; a NaN is like every other NaN. -/
def Alike (x y : Binary64) : Prop := x = y ∨ x.isNaN = true ∧ y.isNaN = true

theorem Alike.refl (x : Binary64) : Alike x x := .inl rfl

theorem Alike.isNaN_eq {x y : Binary64} (alike : Alike x y) : x.isNaN = y.isNaN := by
  rcases alike with rfl | ⟨first, second⟩
  · rfl
  · rw [first, second]

theorem Alike.toFloat_eq {x y : Binary64} (alike : Alike x y) : x.toFloat = y.toFloat := by
  rcases alike with rfl | ⟨first, second⟩
  · rfl
  · rw [toFloat_of_isNaN first, toFloat_of_isNaN second]

theorem alike_settle {first second : List Binary64} (operands : List.Forall₂ Alike first second)
    (result : Float) : Alike (settle first result) (settle second result) := by
  unfold settle
  split
  · induction operands with
    | nil => exact .refl invalid
    | @cons x y xs ys alike _ ih =>
        cases nan : x.isNaN with
        | true =>
            have also : y.isNaN = true := alike.isNaN_eq ▸ nan
            simp only [List.find?_cons_of_pos nan, List.find?_cons_of_pos also, Option.getD_some]
            exact .inr ⟨nan, also⟩
        | false =>
            have also : y.isNaN = false := alike.isNaN_eq ▸ nan
            simpa [List.find?_cons, nan, also] using ih
  · exact .refl _

theorem alike_lift (f : Float → Float) {x y : Binary64} (alike : Alike x y) : Alike (lift f x) (lift f y) := by
  unfold lift
  rw [alike.toFloat_eq]
  exact alike_settle (.cons alike .nil) _

theorem alike_lift₂ (f : Float → Float → Float) {x y u v : Binary64} (left : Alike x y) (right : Alike u v) :
    Alike (lift₂ f x u) (lift₂ f y v) := by
  unfold lift₂
  rw [left.toFloat_eq, right.toFloat_eq]
  exact alike_settle (.cons left (.cons right .nil)) _

theorem exponentField_neg (x : Binary64) : x.neg.exponentField = x.exponentField := by
  simp only [exponentField, neg, UInt64.toNat_and, UInt64.toNat_shiftRight, UInt64.toNat_xor,
    Nat.shiftRight_xor_distrib, Nat.and_xor_distrib_right]
  exact Nat.xor_zero _

theorem fractionField_neg (x : Binary64) : x.neg.fractionField = x.fractionField := by
  simp only [fractionField, neg, UInt64.toNat_and, UInt64.toNat_xor, Nat.and_xor_distrib_right]
  exact Nat.xor_zero _

theorem isNaN_neg (x : Binary64) : x.neg.isNaN = x.isNaN := by
  rw [isNaN, isNaN, exponentField_neg, fractionField_neg]

theorem alike_neg {x y : Binary64} (alike : Alike x y) : Alike x.neg y.neg := by
  rcases alike with rfl | ⟨first, second⟩
  · exact .refl _
  · exact .inr ⟨(isNaN_neg x).trans first, (isNaN_neg y).trans second⟩

theorem powerLoop_eq (result base : Binary64) (n : Nat) :
    powerLoop result base n =
      if n / 2 = 0 then (if n % 2 = 1 then mul result base else result)
      else powerLoop (if n % 2 = 1 then mul result base else result) (mul base base) (n / 2) := by
  rw [powerLoop]

theorem powerLoop_congr {R : Binary64 → Binary64 → Prop}
    (keep : ∀ {x y u v : Binary64}, R x y → R u v → R (mul x u) (mul y v)) {result other base same : Binary64}
    (results : R result other) (bases : R base same) (n : Nat) :
    R (powerLoop result base n) (powerLoop other same n) := by
  induction n using Nat.strongRecOn generalizing result other base same with
  | ind n ih =>
      have next : R (if n % 2 = 1 then mul result base else result) (if n % 2 = 1 then mul other same else other) := by
        split
        · exact keep results bases
        · exact results
      rw [powerLoop_eq result, powerLoop_eq other]
      by_cases last : n / 2 = 0
      · simpa only [last, if_true] using next
      · simp only [last, if_false]
        exact ih (n / 2) (by omega) next (keep bases bases)

theorem alike_power {x y : Binary64} (alike : Alike x y) (exponent : Int) :
    Alike (x.power exponent) (y.power exponent) := by
  have positive := powerLoop_congr (alike_lift₂ Float.mul) (Alike.refl (ofNat 1)) alike exponent.natAbs
  unfold power
  dsimp only
  split
  · exact alike_lift₂ Float.div (.refl _) positive
  · exact positive

end Binary64

variable [MathLibrary]

/-- A relation of numbers that all operations of traces keep. -/
structure Congruence (R : Binary64 → Binary64 → Prop) : Prop where
  refl : ∀ x, R x x
  unary : ∀ op {x y}, R x y → R (Arithmetic.unary op x) (Arithmetic.unary op y)
  binary : ∀ op {x y u v}, R x y → R u v → R (Arithmetic.binary op x u) (Arithmetic.binary op y v)
  power : ∀ exponent {x y}, R x y → R (Arithmetic.power x exponent) (Arithmetic.power y exponent)

theorem congruence_eq : Congruence Eq where
  refl _ := rfl
  unary _ := congrArg _
  binary _ := congrArg₂ _
  power _ := congrArg (Arithmetic.power · _)

theorem congruence_alike : Congruence Binary64.Alike where
  refl := .refl
  unary op _ _ alike := by
    cases op with
    | neg => exact Binary64.alike_neg alike
    | sin | cos | tan | exp | ln | sqrt | tanh => exact Binary64.alike_lift _ alike
  binary op _ _ _ _ left right := by
    cases op <;> exact Binary64.alike_lift₂ _ left right
  power exponent _ _ alike := Binary64.alike_power alike exponent.toInt

end AutoDiff
