import Mathlib
import AutoDiff.Binary64.Shortest
import AutoDiff.Json.Number
import AutoDiff.Proofs.ExactRounding

namespace AutoDiff

namespace Binary64

open Float.Model (UnpackedFloat Format)
open Float.Model.UnpackedFloat (Sign)

variable {x y z : Binary64}

theorem exponentField_toNat (x : Binary64) : x.exponentField = x.bits.toNat / 2 ^ 52 % 2 ^ 11 := by
  rw [exponentField_eq, ← Nat.shiftRight_eq_div_pow]
  rfl

theorem fractionField_toNat (x : Binary64) : x.fractionField = x.bits.toNat % 2 ^ 52 := by
  rw [fractionField_eq]
  rfl

theorem isNegative_iff (x : Binary64) : x.isNegative = true ↔ 2 ^ 63 ≤ x.bits.toNat := by
  have word := x.bits.toNat_lt
  rw [isNegative, beq_iff_eq, ← UInt64.toNat_inj]
  change x.bits.toNat >>> 63 = 1 ↔ _
  rw [Nat.shiftRight_eq_div_pow]
  omega

def ofFields (negative : Bool) (exponent fraction : Nat) : Binary64 :=
  ⟨.ofNat ((if negative then 2 ^ 63 else 0) + exponent * 2 ^ 52 + fraction)⟩

theorem eq_ofFields (x : Binary64) : x = ofFields x.isNegative x.exponentField x.fractionField := by
  have word := x.bits.toNat_lt
  have sign := isNegative_iff x
  have bits : x.bits.toNat = (if x.isNegative then 2 ^ 63 else 0) + x.exponentField * 2 ^ 52 + x.fractionField := by
    rw [exponentField_toNat, fractionField_toNat]
    cases negative : x.isNegative <;> simp only [negative, true_iff, Bool.false_eq_true, false_iff] at sign
    · simp only [Bool.false_eq_true, if_false]
      omega
    · simp only [if_true]
      omega
  rw [ofFields, ← bits]
  exact congrArg mk UInt64.ofNat_toNat.symm

theorem significand_eq (x : Binary64) :
    x.significand = if x.exponentField = 0 then x.fractionField else 2 ^ 52 + x.fractionField := rfl

theorem sign_eq (x : Binary64) : Sign.ofBitVec (@UnpackedFloat.unpackSign Format.binary64 x.bits.toBitVec) =
    if x.isNegative then .negative else .positive := by
  have negative : x.isNegative = true ↔ @UnpackedFloat.unpackSign Format.binary64 x.bits.toBitVec ≠ 0#1 := by
    have word := x.bits.toNat_lt
    rw [isNegative_iff, Ne, ← BitVec.toNat_inj]
    change _ ↔ ¬(x.bits.toNat >>> 63) % 2 ^ 1 = 0
    rw [Nat.shiftRight_eq_div_pow]
    omega
  rw [Sign.ofBitVec]
  split_ifs <;> simp_all

theorem unpacked_eq (finite : x.isFinite = true) (positive : 0 < x.significand) : x.unpacked =
    .finite (if x.isNegative then .negative else .positive) x.significand x.scale positive := by
  have exponent := exponentField_eq x
  have fraction := fractionField_eq x
  have bias : (Format.binary64.exponentBias : Int) = 1023 := rfl
  rw [← sign_eq]
  unfold unpacked UnpackedFloat.unpack
  dsimp only
  split_ifs with special none subnormal zero
  · simp [isFinite, (exponentField_eq_iff x).mpr special] at finite
  · simp [isFinite, (exponentField_eq_iff x).mpr special] at finite
  · rw [subnormal] at exponent
    rw [zero] at fraction
    have least : x.exponentField = 0 := exponent
    rw [significand, if_pos least, fraction] at positive
    cases positive
  · rw [subnormal] at exponent
    have least : x.exponentField = 0 := exponent
    simp only [significand, scale, least, if_true, fraction, subnormal, bias, UnpackedFloat.finite.injEq, true_and]
    rfl
  · have normal : x.exponentField ≠ 0 := by
      rw [exponent]
      exact fun none => subnormal (BitVec.toNat_inj.mp none)
    have mantissa := toNat_implicit (@UnpackedFloat.unpackMantissa Format.binary64 x.bits.toBitVec)
    simp only [significand, scale, if_neg normal, UnpackedFloat.finite.injEq, true_and]
    refine ⟨mantissa.trans (by rw [fraction]; rfl), ?_⟩
    rw [← exponent, bias]
    change _ - (1023 + 52) = _
    omega

theorem isNumber_significand (positive : 0 < x.significand) : IsNumber x.significand x.scale := by
  have fraction := fractionField_toNat x
  refine ⟨positive, ?_, ?_, ?_⟩
  · rw [significand_eq]
    split_ifs <;> omega
  · rw [scale]
    omega
  · rw [significand_eq, scale]
    split_ifs <;> omega

structure IsPositive (x : Binary64) : Prop where
  finite : x.isFinite = true
  sign : x.isNegative = false
  significand : 0 < x.significand

def value (x : Binary64) : ℚ := x.significand * 2 ^ x.scale

/-- No other number is nearer to the value, and an even one wins a tie. -/
def Nearest (x : Binary64) (v : ℚ) : Prop := RoundsTo x.significand x.scale v

theorem value_eq {n : Nat} (exact : x.significand * 2 ^ x.scale.toNat = n * 2 ^ (-x.scale).toNat) : x.value = n := by
  have scale : (2 : ℚ) ^ x.scale.toNat = 2 ^ x.scale * 2 ^ (-x.scale).toNat := by
    rw [← two_zpow_add_nat, ← zpow_natCast]
    congr 1
    omega
  have product : (x.significand : ℚ) * 2 ^ x.scale.toNat = n * 2 ^ (-x.scale).toNat := by exact_mod_cast exact
  rw [scale, ← mul_assoc] at product
  exact mul_right_cancel₀ (pow_ne_zero _ two_ne_zero) product

theorem nearest_value (x : Binary64) : x.Nearest x.value := by
  have exact : x.value / 2 ^ x.scale = x.significand := mul_div_cancel_right₀ _ (two_zpow_pos _).ne'
  rw [Nearest, RoundsTo, exact]
  have reach := below_pos x.significand x.scale
  exact .inl ⟨by linarith, by linarith⟩

namespace IsPositive

theorem unpacked (positive : x.IsPositive) :
    x.unpacked = .finite .positive x.significand x.scale positive.significand := by
  rw [unpacked_eq positive.finite positive.significand, if_neg (by rw [positive.sign]; decide)]

theorem isNumber (positive : x.IsPositive) : IsNumber x.significand x.scale := isNumber_significand positive.significand

theorem scale_le (positive : x.IsPositive) : x.scale ≤ 971 := by
  have field := exponentField_toNat x
  have other : x.exponentField ≠ 0x7ff := bne_iff_ne.mp positive.finite
  rw [scale]
  omega

theorem value_pos (positive : x.IsPositive) : 0 < x.value :=
  mul_pos (by exact_mod_cast positive.significand) (two_zpow_pos _)

theorem eq_of_same (positive : z.IsPositive) (same : Same x z) : x = z := by
  rcases same with rfl | ⟨-, none⟩
  · rfl
  · have number : z.isNaN = false := isNaN_of_isFinite positive.finite
    rw [show NumberKinds.isNaN z = z.isNaN from rfl, number] at none
    cases none

theorem mul_unpacked (first : x.IsPositive) (second : y.IsPositive) (result : z.IsPositive)
    (nearest : z.Nearest (x.value * y.value)) :
    UnpackedFloat.mul Format.binary64 x.unpacked y.unpacked = z.unpacked := by
  have fits : 2 ^ 52 ≤ x.significand * y.significand ∨ x.scale + y.scale ≤ -1074 := by
    rcases first.isNumber.normal with large | tiny
    · exact .inl (large.trans (Nat.le_mul_of_pos_right _ second.significand))
    · rcases second.isNumber.normal with large | small
      · exact .inl (large.trans (Nat.le_mul_of_pos_left _ first.significand))
      · exact .inr (by omega)
  rw [first.unpacked, second.unpacked, result.unpacked]
  exact mul_finite result.isNumber fits nearest

theorem div_unpacked (first : x.IsPositive) (second : y.IsPositive) (result : z.IsPositive)
    (nearest : z.Nearest (x.value / y.value)) :
    UnpackedFloat.div Format.binary64 x.unpacked y.unpacked = z.unpacked := by
  rw [first.unpacked, second.unpacked, result.unpacked]
  exact div_finite result.isNumber nearest

theorem mul_eq (first : x.IsPositive) (second : y.IsPositive) (result : z.IsPositive)
    (nearest : z.Nearest (x.value * y.value)) : x.mul y = z :=
  result.eq_of_same (same_of_unpacked (fun _ _ => rfl) (first.mul_unpacked second result nearest))

theorem div_eq (first : x.IsPositive) (second : y.IsPositive) (result : z.IsPositive)
    (nearest : z.Nearest (x.value / y.value)) : x.div y = z :=
  result.eq_of_same (same_of_unpacked (fun _ _ => rfl) (first.div_unpacked second result nearest))

end IsPositive

theorem exists_word {m : Nat} {e : Int} (number : IsNumber m e) (most : e ≤ 971) :
    ∃ x : Binary64, x.IsPositive ∧ x.significand = m ∧ x.scale = e := by
  obtain ⟨positive, small, least, normal⟩ := number
  obtain ⟨field, place, bound, subnormal⟩ : ∃ field : Nat, (max field 1 : Int) = e + 1075 ∧ field ≤ 2046 ∧
      (field = 0 ↔ m < 2 ^ 52) := by
    rcases Nat.lt_or_ge m (2 ^ 52) with less | large
    · exact ⟨0, by omega, by omega, by omega⟩
    · exact ⟨(e + 1075).toNat, by omega, by omega, by omega⟩
  have word : field * 2 ^ 52 + m % 2 ^ 52 < 2 ^ 63 := by omega
  let x : Binary64 := ⟨.ofNat (field * 2 ^ 52 + m % 2 ^ 52)⟩
  have bits : x.bits.toNat = field * 2 ^ 52 + m % 2 ^ 52 := UInt64.toNat_ofNat_of_lt (word.trans (by decide))
  have exponent : x.exponentField = field := by
    rw [exponentField_toNat, bits]
    omega
  have fraction : x.fractionField = m % 2 ^ 52 := by
    rw [fractionField_toNat, bits]
    omega
  have mantissa : x.significand = m := by
    rw [significand_eq, exponent, fraction]
    split_ifs <;> omega
  have sign : ¬x.isNegative = true := by
    rw [isNegative_iff, bits]
    omega
  refine ⟨x, ⟨?_, ?_, ?_⟩, mantissa, ?_⟩
  · exact bne_iff_ne.mpr (by omega)
  · exact Bool.eq_false_of_not_eq_true sign
  · rwa [mantissa]
  · rw [scale, exponent]
    omega

theorem Nearest.interval {v : ℚ} (nearest : x.Nearest v) :
    (x.significand - below x.significand x.scale) * 2 ^ x.scale ≤ v ∧ v ≤ (x.significand + 1 / 2) * 2 ^ x.scale := by
  obtain ⟨lower, upper⟩ := Within.bounds nearest
  rw [le_div_iff₀ (two_zpow_pos _)] at lower
  rw [div_le_iff₀ (two_zpow_pos _)] at upper
  exact ⟨lower, upper⟩

theorem Nearest.bounds (positive : x.IsPositive) {v : ℚ} (nearest : x.Nearest v) :
    2 ^ (-1075 : Int) ≤ v ∧ v < 2 ^ (1024 : Int) := by
  have number := positive.isNumber
  have reach := below_le x.significand x.scale
  obtain ⟨lower, upper⟩ := nearest.interval
  constructor
  · have least : (1 : ℚ) ≤ x.significand := by exact_mod_cast number.positive
    calc (2 : ℚ) ^ (-1075 : Int) = 2 ^ (-1 : Int) * 2 ^ (-1074 : Int) := by
          rw [show (-1075 : Int) = -1 + -1074 from rfl, two_zpow_add]
      _ = 1 / 2 * 2 ^ (-1074 : Int) := by rw [zpow_neg_one, one_div]
      _ ≤ 1 / 2 * 2 ^ x.scale := mul_le_mul_of_nonneg_left (two_zpow_mono number.least) (by norm_num)
      _ ≤ (x.significand - below x.significand x.scale) * 2 ^ x.scale :=
          mul_le_mul_of_nonneg_right (by linarith) (two_zpow_pos _).le
      _ ≤ v := lower
  · have most : (x.significand : ℚ) + 1 ≤ 2 ^ 53 := by exact_mod_cast number.small
    calc v ≤ (x.significand + 1 / 2) * 2 ^ x.scale := upper
      _ < 2 ^ 53 * 2 ^ x.scale := mul_lt_mul_of_pos_right (by linarith) (two_zpow_pos _)
      _ ≤ 2 ^ 53 * 2 ^ (971 : Int) := mul_le_mul_of_nonneg_left (two_zpow_mono positive.scale_le) (by norm_num)
      _ = 2 ^ (1024 : Int) := (two_zpow_add 53 971).symm

/-- Values from here on have no nearest number. -/
def limit : ℚ := (2 ^ 53 - 1 / 2) * 2 ^ (971 : Int)

theorem exists_nearest {v : ℚ} (least : 2 ^ (-1074 : Int) ≤ v) (most : v < limit) :
    ∃ x : Binary64, x.IsPositive ∧ x.Nearest v := by
  obtain ⟨m, e, number, range, rounds⟩ := exists_roundsTo least most
  obtain ⟨x, positive, rfl, rfl⟩ := exists_word number range
  exact ⟨x, positive, rounds⟩

theorem unpacked_ofNat {n k : Nat} (positive : 0 < n) (shift : n.log2 + k = 52) (number : IsNumber (n * 2 ^ k) (-k)) :
    UnpackedFloat.ofNat Format.binary64 n = .finite .positive (n * 2 ^ k) (-k) number.positive := by
  have greater : compare (n : Int) 0 = .gt := compare_gt_iff_gt.mpr (Int.natCast_pos.mpr positive)
  have target : roundingExponent n 0 = -k := by
    rw [roundingExponent_eq]
    omega
  have amount : (0 - -(k : Int)).toNat = k := by omega
  have rounded := round_canonical .positive number.positive number.canonical 0
  rw [Nat.pow_zero, Nat.one_mul, Nat.cast_zero, Int.sub_zero] at rounded
  rw [UnpackedFloat.ofNat, UnpackedFloat.ofInt, UnpackedFloat.normalize, greater]
  change UnpackedFloat.round Format.binary64 .positive n 0 = _
  rw [UnpackedFloat.round, ← roundingExponent, target, UnpackedFloat.decreaseExponent, amount, Nat.shiftLeft_eq,
    Int.zero_sub]
  exact rounded

theorem exists_whole {n : Nat} (positive : 0 < n) (small : n < 2 ^ 53) : ∃ y : Binary64, y.IsPositive ∧
    y.value = n ∧ n.toUInt64.toFloat.toModel.unpack = y.unpacked ∧ 2 ^ 52 ≤ y.significand ∧ y.scale ≤ 0 := by
  have log : n.log2 < 53 := (Nat.log2_lt positive.ne').mpr small
  obtain ⟨k, shift⟩ : ∃ k : Nat, n.log2 + k = 52 := ⟨52 - n.log2, by omega⟩
  have lower : 2 ^ 52 ≤ n * 2 ^ k := by
    rw [← shift, Nat.pow_add]
    exact Nat.mul_le_mul_right _ (Nat.log2_self_le positive.ne')
  have upper : n * 2 ^ k < 2 ^ 53 := by
    rw [show 53 = n.log2 + 1 + k by omega, Nat.pow_add]
    exact Nat.mul_lt_mul_of_pos_right Nat.lt_log2_self (Nat.pow_pos two_pos)
  have number : IsNumber (n * 2 ^ k) (-k) := ⟨by omega, upper, by omega, .inl lower⟩
  obtain ⟨y, isPositive, significand, scale⟩ := exists_word number (by omega)
  refine ⟨y, isPositive, ?_, ?_, by rwa [significand], by omega⟩
  · apply value_eq
    rw [significand, scale, Int.neg_neg, Int.toNat_natCast, show (-(k : Int)).toNat = 0 by omega, Nat.pow_zero,
      Nat.mul_one]
  · have word : n.toUInt64.toNat = n := UInt64.toNat_ofNat_of_lt (small.trans (by decide))
    have unpacked : y.unpacked = UnpackedFloat.ofUInt64 Format.binary64 n.toUInt64 := by
      rw [UnpackedFloat.ofUInt64, word, unpacked_ofNat positive shift number, isPositive.unpacked]
      simp only [significand, scale]
    change UnpackedFloat.unpack Format.binary64
      (UnpackedFloat.pack Format.binary64 (UnpackedFloat.ofUInt64 Format.binary64 n.toUInt64)) = _
    rw [← unpacked]
    exact unpack_toFloat y

theorem powers_exact : ∀ k : Fin Float.exactlyRepresentablePowersOfTen.size,
    let t : Binary64 := ⟨Float.exactlyRepresentablePowersOfTen[k].toBits⟩
    t.isFinite = true ∧ t.isNegative = false ∧ 0 < t.significand ∧
      t.significand * 2 ^ t.scale.toNat = 10 ^ k.val * 2 ^ (-t.scale).toNat := by
  decide

theorem exists_power {k : Nat} (small : k < Float.exactlyRepresentablePowersOfTen.size) : ∃ t : Binary64,
    t.IsPositive ∧ t.value = 10 ^ k ∧ Float.exactlyRepresentablePowersOfTen[k].toModel.unpack = t.unpacked := by
  obtain ⟨finite, sign, positive, exact⟩ := powers_exact ⟨k, small⟩
  refine ⟨⟨Float.exactlyRepresentablePowersOfTen[k].toBits⟩, ⟨finite, sign, positive⟩, ?_, rfl⟩
  exact_mod_cast value_eq exact

theorem ten_zpow_of_nonneg {e : Int} (up : 0 ≤ e) : (10 : ℚ) ^ e = 10 ^ e.natAbs := by
  rw [← zpow_natCast, Int.natAbs_of_nonneg up]

theorem ten_zpow_of_neg {e : Int} (down : e < 0) : (10 : ℚ) ^ e = (10 ^ e.natAbs)⁻¹ := by
  rw [← zpow_natCast, ← zpow_neg, Int.ofNat_natAbs_of_nonpos down.le, Int.neg_neg]

section

variable {n : Nat} {e : Int} (positive : x.IsPositive) (nearest : x.Nearest (n * 10 ^ e))
include positive nearest

theorem pos_of_nearest : 0 < n := by
  apply Nat.pos_of_ne_zero
  rintro rfl
  have lower := (nearest.bounds positive).1
  rw [Nat.cast_zero, zero_mul] at lower
  exact absurd (two_zpow_pos (-1075)) (not_lt.mpr lower)

theorem exponent_le_of_nearest : e ≤ 1024 := by
  by_contra large
  have upper := (nearest.bounds positive).2
  have whole : (1 : ℚ) ≤ n := by exact_mod_cast pos_of_nearest positive nearest
  have five : (1 : ℚ) ≤ 5 ^ e := one_le_zpow₀ (by norm_num) (by omega)
  have power : (2 : ℚ) ^ (1024 : Int) ≤ 2 ^ e := two_zpow_mono (by omega)
  have ten : (2 : ℚ) ^ e ≤ 10 ^ e := by
    rw [show (10 : ℚ) = 2 * 5 by norm_num, mul_zpow]
    exact le_mul_of_one_le_right (two_zpow_pos e).le five
  have product : (10 : ℚ) ^ e ≤ n * 10 ^ e := le_mul_of_one_le_left (by positivity) whole
  linarith

theorem le_exponent_of_nearest : -(1077 + n.log2) ≤ e := by
  by_contra small
  have lower := (nearest.bounds positive).1
  have five : (5 : ℚ) ^ e ≤ 1 := zpow_le_one_of_nonpos₀ (by norm_num) (by omega)
  have ten : (10 : ℚ) ^ e ≤ 2 ^ e := by
    rw [show (10 : ℚ) = 2 * 5 by norm_num, mul_zpow]
    exact mul_le_of_le_one_right (two_zpow_pos e).le five
  have product : (n : ℚ) * 10 ^ e ≤ n * 2 ^ e := mul_le_mul_of_nonneg_left ten (Nat.cast_nonneg n)
  have value : (n : ℚ) * 2 ^ e < 2 ^ (n.log2 + 1 + e) := lt_two_zpow (lt_add_one _)
  have power : (2 : ℚ) ^ (n.log2 + 1 + e) ≤ 2 ^ (-1075 : Int) := two_zpow_mono (by omega)
  linarith

theorem unpacked_scientific : UnpackedFloat.ofScientific Format.binary64 n e = x.unpacked := by
  have some := pos_of_nearest positive nearest
  have most := exponent_le_of_nearest positive nearest
  have least := le_exponent_of_nearest positive nearest
  have range : (2 : Int) ^ Format.binary64.exponentBits = 2048 := rfl
  rw [UnpackedFloat.ofScientific, dif_neg some.ne', if_neg (by omega), if_neg (by omega), positive.unpacked]
  split_ifs with up
  · have value : ((n <<< 53 : Nat) * 2 ^ (-53 : Int) * ((10 ^ e.toNat : Nat) * 2 ^ (0 : Int)) : ℚ) = n * 10 ^ e := by
      have whole : e.toNat = e.natAbs := by omega
      rw [ten_zpow_of_nonneg up, Nat.shiftLeft_eq, whole]
      have cancel : (2 : ℚ) ^ 53 * 2 ^ (-53 : Int) = 1 := by norm_num
      simp only [Nat.cast_mul, Nat.cast_pow, Nat.cast_ofNat, zpow_zero, mul_one]
      rw [mul_assoc (n : ℚ), cancel, mul_one]
    have digits : 2 ^ 52 ≤ n <<< 53 * 10 ^ e.toNat := by
      rw [Nat.shiftLeft_eq]
      calc 2 ^ 52 ≤ 1 * 2 ^ 53 * 1 := by decide
        _ ≤ n * 2 ^ 53 * 10 ^ e.toNat :=
            Nat.mul_le_mul (Nat.mul_le_mul_right _ some) (Nat.one_le_pow _ _ (by decide))
    apply mul_finite positive.isNumber (.inl digits)
    change RoundsTo _ _ ((n <<< 53 : Nat) * 2 ^ (-53 : Int) * ((10 ^ e.toNat : Nat) * 2 ^ (0 : Int)))
    rw [value]
    exact nearest
  · have value : (n * 2 ^ (0 : Int) / ((10 ^ (-e).toNat : Nat) * 2 ^ (0 : Int)) : ℚ) = n * 10 ^ e := by
      have whole : (-e).toNat = e.natAbs := by omega
      rw [ten_zpow_of_neg (by omega), whole, zpow_zero, mul_one, mul_one, div_eq_mul_inv]
      push_cast
      rfl
    apply div_finite positive.isNumber
    rw [value]
    exact nearest

end

section

variable {n : Nat} {e : Int} (whole : y.value = n) (power : z.value = 10 ^ e.natAbs)
include whole power

theorem div_power (down : e < 0) : y.value / z.value = n * 10 ^ e := by
  rw [whole, power, ten_zpow_of_neg down, div_eq_mul_inv]

theorem mul_power (up : 0 ≤ e) : y.value * z.value = n * 10 ^ e := by
  rw [whole, power, ten_zpow_of_nonneg up]

end

theorem ofScientific_eq (positive : x.IsPositive) {n : Nat} {e : Int} (nearest : x.Nearest (n * 10 ^ e)) :
    ofScientific n e = x := by
  have number : ofUnpacked x.unpacked = x := ofUnpacked_unpacked (isNaN_of_isFinite positive.finite)
  by_cases fast : n < 2 ^ 53 ∧ e.natAbs ≤ 22
  · have small : e.natAbs < Float.exactlyRepresentablePowersOfTen.size := Nat.lt_succ_of_le fast.2
    obtain ⟨y, whole, wholeValue, wholeUnpacked, -⟩ := exists_whole (pos_of_nearest positive nearest) fast.1
    obtain ⟨t, power, powerValue, powerUnpacked⟩ := exists_power small
    rw [ofScientific, Float.ofScientific, dif_pos fast]
    by_cases down : e < 0
    · rw [if_pos (decide_eq_true down)]
      change ofUnpacked (UnpackedFloat.div Format.binary64 n.toUInt64.toFloat.toModel.unpack
        Float.exactlyRepresentablePowersOfTen[e.natAbs].toModel.unpack) = x
      rw [← div_power wholeValue powerValue down] at nearest
      rw [wholeUnpacked, powerUnpacked, whole.div_unpacked power positive nearest, number]
    · rw [if_neg (by simpa using down)]
      change ofUnpacked (UnpackedFloat.mul Format.binary64 n.toUInt64.toFloat.toModel.unpack
        Float.exactlyRepresentablePowersOfTen[e.natAbs].toModel.unpack) = x
      rw [← mul_power wholeValue powerValue (not_lt.mp down)] at nearest
      rw [wholeUnpacked, powerUnpacked, whole.mul_unpacked power positive nearest, number]
  · have exponent : (if decide (e < 0) = true then Int.negOfNat e.natAbs else Int.ofNat e.natAbs) = e := by
      split_ifs with down
      · have negative := of_decide_eq_true down
        rw [Int.negOfNat_eq]
        change -(e.natAbs : Int) = e
        omega
      · have other := of_decide_eq_false (Bool.eq_false_of_not_eq_true down)
        change (e.natAbs : Int) = e
        omega
    rw [ofScientific, Float.ofScientific, dif_neg fast]
    change ofUnpacked (UnpackedFloat.ofScientific Format.binary64 n
      (if decide (e < 0) = true then Int.negOfNat e.natAbs else Int.ofNat e.natAbs)) = x
    rw [exponent, unpacked_scientific positive nearest, number]

theorem exists_ofNat {n m k : Nat} (digits : n = m * 2 ^ k) (small : m < 2 ^ 53) (positive : 0 < n)
    (word : n < UInt64.size) : ∃ y : Binary64, y.IsPositive ∧ y.value = n ∧ ofNat n = y := by
  have odd : 0 < m := Nat.pos_of_mul_pos_right (digits ▸ positive)
  have places : k < 64 := by
    have power : 2 ^ k < 2 ^ 64 := (digits ▸ Nat.le_mul_of_pos_left _ odd).trans_lt word
    exact (Nat.pow_lt_pow_iff_right one_lt_two).mp power
  obtain ⟨z, whole, value, -, normal, scale⟩ := exists_whole odd small
  have number := whole.isNumber
  have shifted : IsNumber z.significand (z.scale + k) :=
    ⟨number.positive, number.small, by have := number.least; omega, .inl normal⟩
  obtain ⟨y, isPositive, mantissa, exponent⟩ := exists_word shifted (by omega)
  have exact : y.value = n := by
    rw [Binary64.value, mantissa, exponent, two_zpow_add_nat, ← mul_assoc, ← Binary64.value, value, digits]
    push_cast
    rfl
  refine ⟨y, isPositive, exact, ofScientific_eq isPositive ?_⟩
  rw [zpow_zero, mul_one, ← exact]
  exact y.nearest_value

theorem exists_ofScientific_one {k : Nat} (small : k ≤ 22) :
    ∃ t : Binary64, t.IsPositive ∧ t.value = 10 ^ k ∧ ofScientific 1 k = t := by
  have entry : k < Float.exactlyRepresentablePowersOfTen.size := Nat.lt_succ_of_le small
  obtain ⟨t, power, value, -⟩ := exists_power entry
  refine ⟨t, power, value, ofScientific_eq power ?_⟩
  rw [Nat.cast_one, one_mul, zpow_natCast, ← value]
  exact t.nearest_value

end Binary64

namespace Numeral

def coefficient (n : Numeral) : Nat := Digit.value (n.whole ++ n.fraction)

def place (n : Numeral) : Int := n.exponent.getD 0 - n.fraction.length

/-- Digits and a power of ten that are both converted exactly, so that only their product or quotient is rounded. -/
structure Short (n : Numeral) : Prop where
  word : n.coefficient < UInt64.size
  digits : ∃ m k, n.coefficient = m * 2 ^ k ∧ m < 2 ^ 53
  place : n.place.natAbs ≤ 22

theorem le_foldl_digits (ds : List Digit) (n : Nat) : n ≤ ds.foldl (fun n d => 10 * n + d.val) n := by
  induction ds generalizing n with
  | nil => exact Nat.le_refl n
  | cons d ds ih =>
      have rest := ih (10 * n + d.val)
      rw [List.foldl_cons]
      omega

theorem absorb_eq {ds : List Digit} {n : Nat} (word : ds.foldl (fun n d => 10 * n + d.val) n < UInt64.size) :
    absorb n ds = (ds.foldl (fun n d => 10 * n + d.val) n, 0) := by
  induction ds generalizing n with
  | nil => rfl
  | cons d ds ih =>
      rw [List.foldl_cons] at word ⊢
      rw [absorb, if_pos ((le_foldl_digits ds _).trans_lt word), ih word]

theorem scaled_eq {n : Numeral} (word : n.coefficient < UInt64.size) : n.scaled = (n.coefficient, n.place) := by
  rw [coefficient, Digit.value, List.foldl_append] at word
  have whole := absorb_eq ((le_foldl_digits n.fraction _).trans_lt word)
  simp only [scaled, whole, absorb_eq word, coefficient, place, Digit.value, List.foldl_append]
  simp

theorem read?_eq {n : Numeral} (word : n.coefficient < UInt64.size) :
    n.read? = (scale? (.ofNat n.coefficient) n.place).map (·.negIf n.negative) := by
  simp only [read?, scaled_eq word]
  cases scale? (.ofNat n.coefficient) n.place <;> rfl

variable {c : Binary64} (positive : c.IsPositive)
include positive

theorem scale?_eq {n : Numeral} (short : n.Short) (nearest : c.Nearest (n.coefficient * 10 ^ n.place)) :
    scale? (.ofNat n.coefficient) n.place = some c := by
  obtain ⟨word, ⟨m, k, digits, small⟩, near⟩ := short
  generalize n.coefficient = s at word digits nearest ⊢
  generalize n.place = e at near nearest ⊢
  obtain ⟨y, whole, wholeValue, converted⟩ :=
    Binary64.exists_ofNat digits small (Binary64.pos_of_nearest positive nearest) word
  obtain ⟨t, power, powerValue, ten⟩ := Binary64.exists_ofScientific_one near
  rw [scale?, if_neg (by omega), if_neg (by omega), converted]
  by_cases down : e < 0
  · rw [← Binary64.div_power wholeValue powerValue down] at nearest
    rw [if_pos down, ten, whole.div_eq power positive nearest]
  · have up : (e.natAbs : Int) = e := by omega
    rw [up] at ten
    rw [← Binary64.mul_power wholeValue powerValue (not_lt.mp down)] at nearest
    simp only [if_neg down, ten, whole.mul_eq power positive nearest, positive.finite, if_true]

theorem read?_of_short {n : Numeral} (short : n.Short) (nearest : c.Nearest (n.coefficient * 10 ^ n.place)) :
    n.read? = some (c.negIf n.negative) := by
  rw [read?_eq short.word, scale?_eq positive short nearest, Option.map_some]

theorem nearest_eq {n : Numeral} (nearest : c.Nearest (n.coefficient * 10 ^ n.place)) :
    n.nearest = c.negIf n.negative :=
  congrArg (Binary64.negIf n.negative) (Binary64.ofScientific_eq positive nearest)

end Numeral

end AutoDiff
