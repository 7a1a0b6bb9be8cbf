import Mathlib
import AutoDiff.Proofs.Alike
import AutoDiff.Proofs.NumberLaws

/-!
Words and the numbers that they stand for. An operation unpacks its operands, calculates and rounds, and packs the
result; so a law of it is one of the unpacked numbers. Numbers that come from words are left alone by rounding.
-/

namespace AutoDiff

open NumberKinds

namespace Binary64

open Float.Model (UnpackedFloat Format)
open Float.Model.UnpackedFloat (Sign)

def unpacked (x : Binary64) : UnpackedFloat := .unpack Format.binary64 x.bits.toBitVec

def ofUnpacked (u : UnpackedFloat) : Binary64 := ⟨(Float.Model.pack u).toBits⟩

theorem isNaN_unpacked (x : Binary64) : x.unpacked.isNaN = x.isNaN := by
  unfold isNaN unpacked UnpackedFloat.unpack
  dsimp only
  split_ifs with special fraction zero none
  · simp [(exponentField_eq_iff x).mpr special, (fractionField_eq_iff x).mpr fraction, UnpackedFloat.isNaN]
  · simp [(exponentField_eq_iff x).mpr special, mt (fractionField_eq_iff x).mp fraction, UnpackedFloat.isNaN]
  all_goals simp [mt (exponentField_eq_iff x).mp special, UnpackedFloat.isNaN]

theorem isFinite_unpacked (x : Binary64) : x.unpacked.isFinite = x.isFinite := by
  unfold isFinite unpacked UnpackedFloat.unpack
  dsimp only
  split_ifs with special fraction zero none
  · simp [(exponentField_eq_iff x).mpr special, UnpackedFloat.isFinite]
  · simp [(exponentField_eq_iff x).mpr special, UnpackedFloat.isFinite]
  all_goals simp [mt (exponentField_eq_iff x).mp special, UnpackedFloat.isFinite]

theorem isNaNBits_bits (x : Binary64) :
    @UnpackedFloat.isNaNBits Format.binary64 x.bits.toBitVec = x.isNaN := by
  rw [← isNaN_unpacked, UnpackedFloat.isNaNBits]
  unfold unpacked UnpackedFloat.unpack
  dsimp only
  split_ifs <;> simp_all [UnpackedFloat.isNaN]

/-- A number goes through its words unharmed; all words of a NaN are the same number. -/
theorem unpack_toFloat (x : Binary64) : x.toFloat.toModel.unpack = x.unpacked := by
  change UnpackedFloat.unpack Format.binary64 (UnpackedFloat.pack Format.binary64 x.unpacked) = x.unpacked
  rw [unpacked, UnpackedFloat.pack_unpack, isNaNBits_bits]
  split
  · next none =>
      rw [UnpackedFloat.unpack_packedNaN]
      rw [← isNaN_unpacked, UnpackedFloat.isNaN_iff] at none
      exact none.symm
  · rfl

theorem ofUnpacked_unpacked {x : Binary64} (number : x.isNaN = false) : ofUnpacked x.unpacked = x := by
  have same : UnpackedFloat.pack Format.binary64 x.unpacked = x.bits.toBitVec := by
    rw [unpacked, UnpackedFloat.pack_unpack, isNaNBits_bits, number]
    rfl
  change (⟨⟨UnpackedFloat.pack Format.binary64 x.unpacked⟩⟩ : Binary64) = x
  rw [same]

instance : NumberKinds Binary64 where
  isFinite := isFinite
  isZero x := x.exponentField == 0 && x.fractionField == 0
  isNaN := isNaN

theorem isZero_iff (x : Binary64) : isZero x = true ↔ ∃ sign, x.unpacked = .zero sign := by
  have exponent : x.exponentField = 0 ↔ @UnpackedFloat.unpackExponent Format.binary64 x.bits.toBitVec = 0#_ := by
    rw [exponentField_eq, ← BitVec.toNat_inj]
    rfl
  simp only [isZero, Bool.and_eq_true, beq_iff_eq, exponent, fractionField_eq_iff]
  unfold unpacked UnpackedFloat.unpack
  dsimp only
  split_ifs with special fraction none fraction
  all_goals simp_all

theorem same_unpacked (x : Binary64) : Same (ofUnpacked x.unpacked) x := by
  cases number : x.isNaN with
  | false => exact .inl (ofUnpacked_unpacked number)
  | true =>
      rw [← isNaN_unpacked, UnpackedFloat.isNaN_iff] at number
      refine .inr ⟨?_, ?_⟩
      · rw [number]
        rfl
      · change x.isNaN = true
        rw [← isNaN_unpacked, number]
        rfl

theorem isNaN_settle (operands : List Binary64) : ((operands.find? isNaN).getD invalid).isNaN = true := by
  cases found : operands.find? isNaN with
  | none => decide
  | some x => exact List.find?_some found

theorem same_settle (operands : List Binary64) (u : UnpackedFloat) :
    Same (settle operands (.ofModel (.pack u))) (ofUnpacked u) := by
  unfold settle
  split
  · next none =>
      refine .inr ⟨isNaN_settle operands, ?_⟩
      have packed := (UnpackedFloat.isNaN_unpack_iff_of_valid (Float.Model.pack u).valid).mp none
      change Binary64.isNaN ⟨⟨(Float.Model.pack u).toBits.toBitVec⟩⟩ = true
      rw [packed]
      rfl
  · exact .inl rfl

theorem isZero_of_same {x : Binary64} {sign : Sign} (same : Same x (ofUnpacked (.zero sign))) :
    isZero x = true := by
  rcases same with rfl | ⟨_, none⟩
  · cases sign <;> rfl
  · have number : NumberKinds.isNaN (ofUnpacked (.zero sign)) = false := by cases sign <;> rfl
    rw [number] at none
    cases none

section

variable {f : Float → Float → Float} {g : UnpackedFloat → UnpackedFloat → UnpackedFloat}
  (packs : ∀ a b : Float, f a b = .ofModel (.pack (g a.toModel.unpack b.toModel.unpack)))
include packs

theorem same_lift₂ (x y : Binary64) : Same (lift₂ f x y) (ofUnpacked (g x.unpacked y.unpacked)) := by
  rw [lift₂, packs, unpack_toFloat, unpack_toFloat]
  exact same_settle _ _

theorem same_of_unpacked {x y z : Binary64} (result : g x.unpacked y.unpacked = z.unpacked) :
    Same (lift₂ f x y) z := by
  have computed := same_lift₂ packs x y
  rw [result] at computed
  exact computed.trans (same_unpacked z)

theorem same_of_same {x y z w : Binary64} (result : g x.unpacked y.unpacked = g z.unpacked w.unpacked) :
    Same (lift₂ f x y) (lift₂ f z w) := by
  have computed := same_lift₂ packs x y
  rw [result] at computed
  exact computed.trans (same_lift₂ packs z w).symm

theorem isZero_of_unpacked {x y : Binary64} {sign : Sign} (result : g x.unpacked y.unpacked = .zero sign) :
    isZero (lift₂ f x y) = true := by
  have computed := same_lift₂ packs x y
  rw [result] at computed
  exact isZero_of_same computed

theorem agree_of_unpacked {x y z : Binary64} (result : g x.unpacked y.unpacked = z.unpacked ∨
      ∃ sign other, z.unpacked = .zero sign ∧ g x.unpacked y.unpacked = .zero other) : Agree (lift₂ f x y) z := by
  rcases result with same | ⟨sign, other, zero, same⟩
  · exact (same_of_unpacked packs same).agree
  · exact .inr ⟨isZero_of_unpacked packs same, (isZero_iff z).mpr ⟨sign, zero⟩⟩

theorem isNaN_of_unpacked {x y : Binary64} (result : g x.unpacked y.unpacked = .notANumber) :
    (lift₂ f x y).isNaN = true := by
  have computed := same_lift₂ packs x y
  have none : (ofUnpacked .notANumber).isNaN = true := by rfl
  rw [result] at computed
  rcases computed with same | ⟨also, _⟩
  · rw [same, none]
  · exact also

end

theorem shiftRightOne_twice (m : Nat) :
    (⟨2 * m, false, false⟩ : UnpackedFloat.ExtendedMantissa).shiftRightOne = ⟨m, false, false⟩ := by
  simp [UnpackedFloat.ExtendedMantissa.shiftRightOne]

theorem shiftRight_exact (m k : Nat) :
    ((⟨2 ^ k * m, false, false⟩ : UnpackedFloat.ExtendedMantissa) >>> k) = ⟨m, false, false⟩ := by
  change Nat.repeat _ k _ = _
  induction k generalizing m with
  | zero => simp [Nat.repeat]
  | succ k ih =>
      rw [Nat.repeat, Nat.pow_succ, Nat.mul_assoc, ih (2 * m)]
      exact shiftRightOne_twice m

/-- A mantissa and an exponent that rounding leaves alone. -/
def Canonical (m : Nat) (e : Int) : Prop :=
  Format.binary64.targetExponent (Float.Model.totalExponent m e) = e

theorem totalExponent_shift {m : Nat} (positive : 0 < m) (e : Int) (k : Nat) :
    Float.Model.totalExponent (2 ^ k * m) (e - k) = Float.Model.totalExponent m e := by
  have log : (2 ^ k * m).log2 = m.log2 + k := by
    induction k with
    | zero => simp
    | succ k ih =>
        rw [Nat.pow_succ', Nat.mul_assoc, Nat.log2_two_mul (by positivity), ih]
        rfl
  simp only [Float.Model.totalExponent, log]
  push_cast
  ring

theorem shift_canonical {m : Nat} (positive : 0 < m) {e : Int} (canonical : Canonical m e) (k : Nat) :
    UnpackedFloat.shiftToTargetExponent Format.binary64 (2 ^ k * m) (e - k) .exact = (⟨m, false, false⟩, e) := by
  rw [UnpackedFloat.shiftToTargetExponent, totalExponent_shift positive, canonical]
  simp [UnpackedFloat.shiftToExponent, UnpackedFloat.ExtendedMantissa.ofMantissaAndAccuracy, shiftRight_exact]

theorem round_canonical (sign : Sign) {m : Nat} (positive : 0 < m) {e : Int} (canonical : Canonical m e) (k : Nat) :
    UnpackedFloat.roundWithAccuracy Format.binary64 sign (2 ^ k * m) (e - k) .exact = .finite sign m e positive := by
  have first := shift_canonical positive canonical k
  have second := shift_canonical positive canonical 0
  rw [Nat.pow_zero, Nat.one_mul, Nat.cast_zero, Int.sub_zero] at second
  have rounded : (⟨m, false, false⟩ : UnpackedFloat.ExtendedMantissa).roundedMantissa = m := rfl
  simp [UnpackedFloat.roundWithAccuracy, first, rounded, second, positive.ne']

theorem canonical_of_small {m : Nat} (positive : 0 < m) (small : m < 2 ^ 53) {e : Int} (least : -1074 ≤ e)
    (normal : 2 ^ 52 ≤ m ∨ e = -1074) : Canonical m e := by
  have log : m.log2 < 53 := (Nat.log2_lt positive.ne').mpr small
  change max ((m.log2 : Int) + 1 + e - (53 : Nat)) (-1074) = e
  rcases normal with large | rfl
  · have same : m.log2 = 52 := (Nat.log2_eq_iff positive.ne').mpr ⟨large, small⟩
    omega
  · omega

theorem toNat_implicit (fraction : BitVec 52) : (1#1 ++ fraction).toNat = 2 ^ 52 + fraction.toNat := by
  rw [BitVec.toNat_append, ← Nat.shiftLeft_add_eq_or_of_lt fraction.isLt]
  rfl

theorem canonical_unpacked {x : Binary64} {sign : Sign} {m : Nat} {e : Int} {positive : 0 < m}
    (same : x.unpacked = .finite sign m e positive) : Canonical m e := by
  have bias : (Format.binary64.exponentBias : Int) = 1023 := rfl
  unfold unpacked UnpackedFloat.unpack at same
  dsimp only at same
  split_ifs at same with special fraction subnormal zero
  · obtain ⟨-, rfl, rfl⟩ := UnpackedFloat.finite.inj same
    have small := (@UnpackedFloat.unpackMantissa Format.binary64 x.bits.toBitVec).isLt
    have least : ((@UnpackedFloat.unpackExponent Format.binary64 x.bits.toBitVec).toNat : Int) = 0 := by
      rw [subnormal]
      rfl
    change _ < 2 ^ 52 at small
    rw [bias, least]
    exact canonical_of_small positive (by omega) (by omega) (.inr (by omega))
  · obtain ⟨-, rfl, rfl⟩ := UnpackedFloat.finite.inj same
    have small := (@UnpackedFloat.unpackMantissa Format.binary64 x.bits.toBitVec).isLt
    have least : 0 < (@UnpackedFloat.unpackExponent Format.binary64 x.bits.toBitVec).toNat :=
      Nat.pos_of_ne_zero fun none => subnormal (BitVec.toNat_inj.mp none)
    change _ < 2 ^ 52 at small
    have mantissa := toNat_implicit (@UnpackedFloat.unpackMantissa Format.binary64 x.bits.toBitVec)
    rw [bias]
    exact canonical_of_small positive (by omega) (by omega) (.inl (by omega))

theorem sign_neg (x : Binary64) :
    Sign.ofBitVec (@UnpackedFloat.unpackSign Format.binary64 x.neg.bits.toBitVec) =
      -Sign.ofBitVec (@UnpackedFloat.unpackSign Format.binary64 x.bits.toBitVec) := by
  have turned (b : BitVec 1) : Sign.ofBitVec (b ^^^ 1#1) = -Sign.ofBitVec b := by
    have bits : b = 0#1 ∨ b = 1#1 := by
      revert b
      decide
    rcases bits with rfl | rfl <;> rfl
  rw [← turned]
  refine congrArg _ ?_
  change BitVec.extractLsb' 63 1 (x.bits.toBitVec ^^^ 0x8000000000000000#64) =
    BitVec.extractLsb' 63 1 x.bits.toBitVec ^^^ 1#1
  rw [BitVec.extractLsb'_xor]
  rfl

theorem unpacked_neg (x : Binary64) : x.neg.unpacked = x.unpacked.neg := by
  have exponent : @UnpackedFloat.unpackExponent Format.binary64 x.neg.bits.toBitVec =
      @UnpackedFloat.unpackExponent Format.binary64 x.bits.toBitVec := by
    rw [← BitVec.toNat_inj, ← exponentField_eq, ← exponentField_eq, exponentField_neg]
  have fraction : @UnpackedFloat.unpackMantissa Format.binary64 x.neg.bits.toBitVec =
      @UnpackedFloat.unpackMantissa Format.binary64 x.bits.toBitVec := by
    rw [← BitVec.toNat_inj, ← fractionField_eq, ← fractionField_eq, fractionField_neg]
  unfold unpacked UnpackedFloat.unpack
  simp only [exponent, fraction, sign_neg]
  split_ifs <;> rfl

theorem equal_iff (x y : Binary64) : equal x y = true ↔ x.unpacked ≠ .notANumber ∧ y.unpacked ≠ .notANumber ∧
    (x.unpacked = y.unpacked ∨ isZero x = true ∧ isZero y = true) := by
  have compared : equal x y = x.unpacked.beq y.unpacked := by
    rw [← unpack_toFloat, ← unpack_toFloat]
    rfl
  rw [compared, UnpackedFloat.beq_iff_ne_notANumber_and_eq, isZero_iff, isZero_iff]
  refine and_congr_right fun _ => and_congr_right fun _ => ⟨?_, ?_⟩
  · rintro (same | ⟨first, second⟩ | ⟨first, second⟩)
    · exact .inl same
    · exact .inr ⟨⟨_, first⟩, ⟨_, second⟩⟩
    · exact .inr ⟨⟨_, first⟩, ⟨_, second⟩⟩
  · rintro (same | ⟨⟨sign, first⟩, ⟨other, second⟩⟩)
    · exact .inl same
    · rw [first, second]
      cases sign <;> cases other <;> simp

theorem unpacked_ne_of_isNaN_eq_false {x : Binary64} : x.unpacked ≠ .notANumber ↔ x.isNaN = false := by
  rw [← isNaN_unpacked, ← Bool.not_eq_true, UnpackedFloat.isNaN_iff]

theorem near_of_equal {x y : Binary64} (same : equal x y = true) : Near x y := by
  obtain ⟨first, second, same | zeros⟩ := (equal_iff x y).mp same
  · rw [unpacked_ne_of_isNaN_eq_false] at first second
    exact .inl (by rw [← ofUnpacked_unpacked first, same, ofUnpacked_unpacked second])
  · exact .inr zeros

theorem isFinite_of_isZero {x : Binary64} (zero : isZero x = true) : x.isFinite = true := by
  obtain ⟨sign, same⟩ := (isZero_iff x).mp zero
  rw [← isFinite_unpacked, same]
  rfl

theorem isNaN_of_isFinite {x : Binary64} (finite : x.isFinite = true) : x.isNaN = false := by
  rw [← isFinite_unpacked] at finite
  rw [← isNaN_unpacked]
  cases same : x.unpacked <;> simp_all [UnpackedFloat.isFinite, UnpackedFloat.isNaN]

theorem isZero_zero : isZero (ofInt 0) = true := by rfl

theorem neg_neg (x : Binary64) : x.neg.neg = x := by
  simp [neg]

theorem isZero_neg {x : Binary64} (zero : isZero x = true) : isZero x.neg = true := by
  obtain ⟨sign, same⟩ := (isZero_iff x).mp zero
  exact (isZero_iff x.neg).mpr ⟨-sign, by rw [unpacked_neg, same]; rfl⟩

end Binary64

end AutoDiff
