import Mathlib
import AutoDiff.Proofs.RoundingErrors
import AutoDiff.Proofs.ShortestDigits

/-!
Finite numbers that are read again. The digits of a finite number make an integer that is a word, and what the reader
makes of it stays in the range of the numbers. So a finite number is always read as some number: if not as itself, as
one that is close to it.
-/

namespace AutoDiff

namespace Digit

theorem value_lt (ds : List Digit) : value ds < 10 ^ ds.length := by
  induction ds using List.reverseRecOn with
  | nil => decide
  | append_singleton ds d ih =>
      rw [value_append_singleton, List.length_append, List.length_singleton, Nat.pow_succ]
      omega

end Digit

namespace Decimal

theorem value_digits_le (n : Nat) (e : Int) : Digit.value (ofScaled n e).digits ≤ n := by
  obtain ⟨k, zeros⟩ := exists_zeros (Digit.ofNat n)
  have digits := congrArg Digit.value zeros
  rw [Digit.value_ofNat, Digit.value_append_zeros] at digits
  change Digit.value (trimZeros (Digit.ofNat n)) ≤ n
  exact (Nat.le_mul_of_pos_right _ (Nat.pow_pos (by decide))).trans digits.ge

end Decimal

namespace Binary64

variable {x : Binary64}

theorem coefficient_scientific (d : Decimal) : (scientific d).coefficient = Digit.value d.digits := by
  rw [Numeral.coefficient, scientific, List.take_append_drop]

theorem coefficient_positional_le {d : Decimal} (near : d.point ≤ 16) {bound : Nat}
    (digits : Digit.value d.digits ≤ bound) : (positional d).coefficient ≤ max bound (10 ^ 17) := by
  rcases positional_cases d with ⟨coefficient, -⟩ | ⟨k, point, coefficient, -⟩
  · rw [coefficient]
    omega
  · have places : 10 ^ (d.digits.length + (k + 1)) ≤ 10 ^ 17 := Nat.pow_le_pow_right (by decide) (by omega)
    have product : Digit.value d.digits * 10 ^ (k + 1) ≤ 10 ^ d.digits.length * 10 ^ (k + 1) :=
      Nat.mul_le_mul_right _ (Digit.value_lt d.digits).le
    rw [← Nat.pow_add] at product
    rw [coefficient]
    omega

theorem coefficient_le (positive : 0 < x.significand) : (x.numeral jsonLayout).coefficient ≤ 10 ^ 17 := by
  obtain ⟨n, e, -, small, shortest, -⟩ := exists_shortest positive jsonLayout.tie
  have digits : Digit.value (x.shortest jsonLayout.tie).digits ≤ 10 ^ 17 := by
    rw [shortest]
    exact (Decimal.value_digits_le n e).trans small
  unfold numeral
  rw [if_neg positive.ne']
  dsimp only
  split_ifs with layout
  · have near : (x.shortest jsonLayout.tie).point ≤ 16 := by
      have highest : (x.shortest jsonLayout.tie).point - 1 ≤ 15 := layout.2
      omega
    have bounded := coefficient_positional_le near digits
    rw [max_self] at bounded
    exact bounded
  · exact (coefficient_scientific _).trans_le digits

/-- The exponent of the first digit is the only one that fits. -/
theorem leadingExponent_eq {num den : Nat} (numerator : 0 < num) (denominator : 0 < den) {e : Int}
    (lower : (10 : ℚ) ^ e ≤ num / den) (upper : (num : ℚ) / den < 10 ^ (e + 1)) : leadingExponent num den = e := by
  obtain ⟨least, most⟩ := leadingExponent_spec numerator denominator
  have first := (zpow_lt_zpow_iff_right₀ (by norm_num)).mp (least.trans_lt upper)
  have second := (zpow_lt_zpow_iff_right₀ (by norm_num)).mp (lower.trans_lt most)
  omega

def numeralAt (layout : Layout) (leading : Int) (x : Binary64) : Numeral :=
  let d := shortestFrom layout.tie x leading 17
  { (if layout.lowest ≤ d.firstExponent ∧ d.firstExponent ≤ layout.highest then positional d else scientific d) with
    negative := x.isNegative }

theorem numeral_eq_numeralAt (layout : Layout) (positive : 0 < x.significand) {e : Int} (lower : 10 ^ e ≤ x.value)
    (upper : x.value < 10 ^ (e + 1)) : x.numeral layout = numeralAt layout e x := by
  obtain ⟨denominator, magnitude⟩ := x.magnitude_spec
  rw [← magnitude] at lower upper
  have leading := leadingExponent_eq (magnitude_pos positive.ne') denominator lower upper
  rw [numeral, if_neg positive.ne', shortest, leading]
  rfl

namespace Close

variable {c d : Binary64}

theorem refl (finite : c.isFinite = true) : c.Close c := by
  refine ⟨finite, rfl, ?_⟩
  rw [sub_self, abs_zero]
  exact mul_nonneg (by norm_num) (two_zpow_pos _).le

theorem neg (close : c.Close d) : c.neg.Close d.neg := by
  constructor
  · exact (isFinite_neg d).trans close.finite
  · rw [isNegative_neg, isNegative_neg, close.sign]
  · rw [value, value, significand_neg, significand_neg, scale_neg, scale_neg]
    exact close.error

theorem negIf (close : c.Close d) (negative : Bool) : (c.negIf negative).Close (d.negIf negative) := by
  cases negative with
  | false => exact close
  | true => exact close.neg

end Close

theorem least_read? : ∀ negative : Bool,
    (numeralAt jsonLayout (-324) (ofFields negative 0 1)).read? = some (ofFields negative 0 1) := by
  decide +kernel

theorem read?_of_least (least : x.significand = 1) : (x.numeral jsonLayout).read? = some x := by
  have fields : x.exponentField = 0 ∧ x.fractionField = 1 := by
    rw [significand_eq] at least
    split_ifs at least with subnormal
    · exact ⟨subnormal, least⟩
    · omega
  have scale : x.scale = (-(1074 : Nat) : Int) := by
    rw [scale, fields.1]
    rfl
  have value : x.value = 2 ^ (-(1074 : Nat) : Int) := by rw [Binary64.value, least, scale, Nat.cast_one, one_mul]
  have lower : (10 : ℚ) ^ (-324 : Int) ≤ x.value := by
    have less : (10 : ℚ) ^ (-324 : Int) < 2 ^ (-1075 : Int) :=
      zpow_neg_lt (a := 2) (b := 10) (j := 1075) (k := 324) two_pos powers_below.1
    rw [value]
    exact less.le.trans (two_zpow_mono (by decide))
  have upper : x.value < (10 : ℚ) ^ (-324 + 1 : Int) := by
    rw [value]
    exact zpow_neg_lt (a := 10) (b := 2) (j := 323) (k := 1074) (by decide) powers_below.2
  have read := least_read? x.isNegative
  have same := eq_ofFields x
  rw [fields.1, fields.2] at same
  rwa [← same, ← numeral_eq_numeralAt jsonLayout (by omega) lower upper] at read

theorem greatest_read? : ∀ (i : Fin 2) (negative : Bool),
    (numeralAt jsonLayout 308 (ofFields negative 2046 (2 ^ 52 - 1 - i.val))).read? =
      some (ofFields negative 2046 (2 ^ 52 - 1)) := by
  decide +kernel

theorem greatest_spec : ∀ negative : Bool, (ofFields negative 2046 (2 ^ 52 - 1)).isFinite = true ∧
    (ofFields negative 2046 (2 ^ 52 - 1)).isNegative = negative ∧
    (ofFields negative 2046 (2 ^ 52 - 1)).significand = 2 ^ 53 - 1 ∧
    (ofFields negative 2046 (2 ^ 52 - 1)).scale = 971 := by
  decide

/-- The greatest number and the one before it, which leave no room for errors, are both read as the greatest one. -/
theorem read?_of_greatest (exponent : x.exponentField = 2046) (fraction : 2 ^ 52 - 2 ≤ x.fractionField) :
    ∃ d, (x.numeral jsonLayout).read? = some d ∧ x.Close d := by
  have field := fractionField_toNat x
  have scale : x.scale = 971 := by
    rw [scale, exponent]
    rfl
  have significand : x.significand = 2 ^ 52 + x.fractionField := by rw [significand_eq, exponent, if_neg (by decide)]
  have positive : 0 < x.significand := by omega
  have value : x.value = (x.significand * 2 ^ 971 : Nat) := by
    rw [Binary64.value, scale, Nat.cast_mul, Nat.cast_pow, Nat.cast_ofNat]
    exact congrArg _ (zpow_natCast 2 971)
  have ten (k : Nat) : (10 : ℚ) ^ (k : Int) = (10 ^ k : Nat) := by rw [zpow_natCast, Nat.cast_pow, Nat.cast_ofNat]
  have lower : (10 : ℚ) ^ ((308 : Nat) : Int) ≤ x.value := by
    rw [value, ten]
    exact Nat.cast_le.mpr (powers_above.1.le.trans (Nat.mul_le_mul_right _ (by omega)))
  have upper : x.value < (10 : ℚ) ^ ((309 : Nat) : Int) := by
    have less : x.significand * 2 ^ 971 < 2 ^ 53 * 2 ^ 971 := Nat.mul_lt_mul_of_pos_right (by omega) (by positivity)
    rw [value, ten]
    exact Nat.cast_lt.mpr (less.trans powers_above.2.1)
  obtain ⟨i, few, same⟩ : ∃ i, i < 2 ∧ x.fractionField = 2 ^ 52 - 1 - i :=
    ⟨2 ^ 52 - 1 - x.fractionField, by omega, by omega⟩
  have laidOut : x.numeral jsonLayout = numeralAt jsonLayout 308 x :=
    numeral_eq_numeralAt jsonLayout positive lower upper
  have read := greatest_read? ⟨i, few⟩ x.isNegative
  have fields := eq_ofFields x
  rw [exponent, same] at fields
  dsimp only at read
  rw [← fields, ← laidOut] at read
  obtain ⟨finite, sign, mantissa, place⟩ := greatest_spec x.isNegative
  refine ⟨_, read, finite, sign, ?_⟩
  have gap : |((2 ^ 53 - 1 : Nat) : ℚ) - x.significand| ≤ 8 := by
    have least : 2 ^ 53 ≤ x.significand + 2 := by omega
    have most : x.significand + 1 ≤ 2 ^ 53 := by omega
    have lower : (2 : ℚ) ^ 53 ≤ x.significand + 2 := by exact_mod_cast least
    have upper : (x.significand : ℚ) + 1 ≤ 2 ^ 53 := by exact_mod_cast most
    rw [abs_le]
    norm_num
    constructor <;> linarith
  have unit := two_zpow_pos 971
  rw [Binary64.value, Binary64.value, mantissa, place, scale, ← sub_mul, abs_mul, abs_of_pos unit]
  exact mul_le_mul_of_nonneg_right gap unit.le

theorem room_of_nearest (positive : 0 < x.significand) {v : ℚ} (nearest : x.Nearest v) (finite : x.isFinite = true)
    (other : ¬(x.exponentField = 2046 ∧ 2 ^ 52 - 2 ≤ x.fractionField)) : v * roundingFactor ^ 2 < limit := by
  have small := (isNumber_significand positive).small
  have upper := nearest.interval.2
  have exponent : x.exponentField < 2047 := by
    have other : x.exponentField ≠ 2047 := bne_iff_ne.mp finite
    have field := exponentField_toNat x
    omega
  have double : (2 : ℚ) ^ (971 : Int) = 2 * 2 ^ (970 : Int) := two_zpow_add 1 970
  have power : (0 : ℚ) < 2 ^ (970 : Int) := two_zpow_pos 970
  have bound : v ≤ (2 ^ 53 - 5 / 2) * (2 * 2 ^ (970 : Int)) := by
    by_cases last : x.exponentField = 2046
    · have scale : x.scale = 971 := by
        rw [scale, last]
        rfl
      have room : x.significand + 3 ≤ 2 ^ 53 := by
        rw [significand_eq, last, if_neg (by decide)]
        omega
      have mantissa : (x.significand : ℚ) + 3 ≤ 2 ^ 53 := by exact_mod_cast room
      rw [scale, double] at upper
      exact upper.trans (mul_le_mul_of_nonneg_right (by linarith) (by positivity))
    · have scale : x.scale ≤ 970 := by
        rw [scale]
        omega
      have mantissa : (x.significand : ℚ) + 1 ≤ 2 ^ 53 := by exact_mod_cast small
      calc v ≤ (x.significand + 1 / 2) * 2 ^ x.scale := upper
        _ ≤ 2 ^ 53 * 2 ^ (970 : Int) :=
            mul_le_mul (by linarith) (two_zpow_mono scale) (two_zpow_pos _).le (by norm_num)
        _ ≤ (2 ^ 53 - 5 / 2) * 2 * 2 ^ (970 : Int) := mul_le_mul_of_nonneg_right (by norm_num) power.le
        _ = (2 ^ 53 - 5 / 2) * (2 * 2 ^ (970 : Int)) := mul_assoc ..
  have errors : (2 ^ 53 - 5 / 2) * roundingFactor ^ 2 < 2 ^ 53 - 1 / 2 := by norm_num [roundingFactor]
  have factor : 0 ≤ roundingFactor ^ 2 := (roundingFactor_pow_pos 2).le
  rw [limit, double]
  calc v * roundingFactor ^ 2 ≤ (2 ^ 53 - 5 / 2) * (2 * 2 ^ (970 : Int)) * roundingFactor ^ 2 :=
        mul_le_mul_of_nonneg_right bound factor
    _ = (2 ^ 53 - 5 / 2) * roundingFactor ^ 2 * (2 * 2 ^ (970 : Int)) := mul_right_comm ..
    _ < (2 ^ 53 - 1 / 2) * (2 * 2 ^ (970 : Int)) := mul_lt_mul_of_pos_right errors (mul_pos two_pos power)

/-- A finite number is read as a number that is close to it. -/
theorem exists_read? (finite : x.isFinite = true) : ∃ d, (x.numeral jsonLayout).read? = some d ∧ x.Close d := by
  rcases Nat.eq_zero_or_pos x.significand with zero | positive
  · exact ⟨x, read?_of_significand_eq_zero jsonLayout zero, Close.refl finite⟩
  by_cases least : x.significand = 1
  · exact ⟨x, read?_of_least least, Close.refl finite⟩
  by_cases greatest : x.exponentField = 2046 ∧ 2 ^ 52 - 2 ≤ x.fractionField
  · exact read?_of_greatest greatest.1 greatest.2
  have nearest := nearest_numeral jsonLayout positive
  have room := room_of_nearest positive nearest finite greatest
  have digits := coefficient_le positive
  obtain ⟨isPositive, same⟩ := isPositive_negIf finite positive
  have second : 2 ≤ (x.negIf x.isNegative).significand := by
    rw [significand_negIf]
    omega
  have scaled : ∃ z : Binary64, z.IsPositive ∧
      Numeral.scale? (.ofNat (x.numeral jsonLayout).coefficient) (x.numeral jsonLayout).place = some z ∧
      (x.negIf x.isNegative).Close z := by
    rcases lt_or_ge (x.numeral jsonLayout).place 0 with down | up
    · exact exists_scale?_down isPositive (same _ nearest) second digits down
    · obtain ⟨k, place⟩ := Int.eq_ofNat_of_zero_le up
      rw [place] at nearest room ⊢
      exact exists_scale?_up isPositive (same _ nearest) second room
  obtain ⟨z, -, read, close⟩ := scaled
  have restored := close.negIf x.isNegative
  rw [negIf_negIf] at restored
  refine ⟨z.negIf x.isNegative, ?_, restored⟩
  rw [Numeral.read?_eq (digits.trans_lt (by decide)), read]
  rfl

end Binary64

end AutoDiff
