import Mathlib
import AutoDiff.Proofs.DecimalReading

/-!
Errors of several roundings. A rounding changes a value that is not tiny by a factor near one, and the factors of
products and quotients are multiplied. What is rounded once more after that is within a few units of the last place.
-/

namespace AutoDiff

namespace Binary64

variable {x y c : Binary64}

/-- The largest factor by which one rounding changes a value that is not tiny. -/
def roundingFactor : ℚ := 1 + 1 / 2 ^ 53

theorem one_le_roundingFactor : 1 ≤ roundingFactor := by norm_num [roundingFactor]

theorem roundingFactor_pow_pos (k : Nat) : 0 < roundingFactor ^ k :=
  pow_pos (zero_lt_one.trans_le one_le_roundingFactor) k

/-- Each of two values is at most the other with the errors of `k` roundings. -/
structure Off (k : Nat) (v w : ℚ) : Prop where
  upper : w ≤ v * roundingFactor ^ k
  lower : v ≤ w * roundingFactor ^ k

namespace Off

variable {j k : Nat} {v w v' w' q : ℚ}

theorem trans (first : Off j v w) (second : Off k w q) : Off (j + k) v q := by
  constructor
  · calc q ≤ w * roundingFactor ^ k := second.upper
      _ ≤ v * roundingFactor ^ j * roundingFactor ^ k :=
          mul_le_mul_of_nonneg_right first.upper (roundingFactor_pow_pos k).le
      _ = v * roundingFactor ^ (j + k) := by rw [mul_assoc, ← pow_add]
  · calc v ≤ w * roundingFactor ^ j := first.lower
      _ ≤ q * roundingFactor ^ k * roundingFactor ^ j :=
          mul_le_mul_of_nonneg_right second.lower (roundingFactor_pow_pos j).le
      _ = q * roundingFactor ^ (j + k) := by rw [mul_assoc, ← pow_add, add_comm]

theorem mul (first : Off j v w) (second : Off k v' w') (positive : 0 < v) (after : 0 < w) (positive' : 0 < v')
    (after' : 0 < w') : Off (j + k) (v * v') (w * w') := by
  constructor
  · calc w * w' ≤ v * roundingFactor ^ j * (v' * roundingFactor ^ k) :=
          mul_le_mul first.upper second.upper after'.le (mul_pos positive (roundingFactor_pow_pos j)).le
      _ = v * v' * roundingFactor ^ (j + k) := by rw [pow_add, mul_mul_mul_comm]
  · calc v * v' ≤ w * roundingFactor ^ j * (w' * roundingFactor ^ k) :=
          mul_le_mul first.lower second.lower positive'.le (mul_pos after (roundingFactor_pow_pos j)).le
      _ = w * w' * roundingFactor ^ (j + k) := by rw [pow_add, mul_mul_mul_comm]

theorem inv (off : Off k v w) (positive : 0 < v) (after : 0 < w) : Off k v⁻¹ w⁻¹ := by
  constructor
  · rw [inv_le_iff_one_le_mul₀ after, mul_assoc, le_inv_mul_iff₀ positive, mul_one, mul_comm]
    exact off.lower
  · rw [inv_le_iff_one_le_mul₀ positive, mul_assoc, le_inv_mul_iff₀ after, mul_one, mul_comm]
    exact off.upper

theorem div (first : Off j v w) (second : Off k v' w') (positive : 0 < v) (after : 0 < w) (positive' : 0 < v')
    (after' : 0 < w') : Off (j + k) (v / v') (w / w') := by
  rw [div_eq_mul_inv, div_eq_mul_inv]
  exact first.mul (second.inv positive' after') positive after (inv_pos.mpr positive') (inv_pos.mpr after')

end Off

theorem Nearest.error_le {v : ℚ} (nearest : x.Nearest v) : |x.value - v| ≤ 1 / 2 * 2 ^ x.scale := by
  obtain ⟨lower, upper⟩ := nearest.interval
  have place := two_zpow_pos x.scale
  have reach := below_le x.significand x.scale
  rw [abs_le, value]
  constructor <;> nlinarith

/-- One rounding of a value that is not tiny. -/
theorem Nearest.off (positive : x.IsPositive) {v : ℚ} (nearest : x.Nearest v) (large : 1 ≤ v) : Off 1 v x.value := by
  obtain ⟨lower, upper⟩ := nearest.interval
  have number := positive.isNumber
  have place := two_zpow_pos x.scale
  have small : (x.significand : ℚ) + 1 ≤ 2 ^ 53 := by exact_mod_cast number.small
  have scale : -1074 < x.scale := by
    by_contra subnormal
    have tiny : (2 : ℚ) ^ 53 * 2 ^ x.scale < 1 := by
      rw [show x.scale = -1074 by have := number.least; omega, mul_comm, ← two_zpow_add_nat]
      exact zpow_lt_one_of_neg₀ one_lt_two (by decide)
    nlinarith
  have normal : 2 ^ 52 ≤ x.significand := number.normal.resolve_right scale.ne'
  rw [value]
  constructor
  · rw [pow_one, roundingFactor]
    rcases Nat.lt_or_ge (2 ^ 52) x.significand with above | most
    · have mantissa : (2 : ℚ) ^ 52 + 1 ≤ x.significand := by exact_mod_cast above
      have reach := below_le x.significand x.scale
      nlinarith
    · have same : x.significand = 2 ^ 52 := le_antisymm most normal
      rw [below, if_pos ⟨same, scale⟩] at lower
      have mantissa : (x.significand : ℚ) = 2 ^ 52 := by exact_mod_cast same
      rw [mantissa] at lower ⊢
      nlinarith
  · have mantissa : (2 : ℚ) ^ 52 ≤ x.significand := by exact_mod_cast normal
    rw [pow_one, roundingFactor]
    nlinarith

theorem Nearest.off_three (positive : x.IsPositive) {v : ℚ} (nearest : x.Nearest v)
    (least : 2 * 2 ^ (-1022 : Int) ≤ 5 * v) : Off 3 v x.value := by
  have error := nearest.error_le
  have place := two_zpow_pos x.scale
  have valuePositive := positive.value_pos
  have some : 0 < v := by linarith [two_zpow_pos (-1022)]
  have half : 1 / 2 * 2 ^ x.scale ≤ 5 / 2 * (1 / 2 ^ 53) * v := by
    rcases positive.isNumber.normal with normal | subnormal
    · have mantissa : (2 : ℚ) ^ 52 ≤ x.significand := by exact_mod_cast normal
      have upper := (abs_le.mp error).2
      rw [value] at upper
      nlinarith
    · rw [show (-1022 : Int) = -1074 + (52 : Nat) from rfl, two_zpow_add_nat] at least
      rw [subnormal]
      linarith
  obtain ⟨lower, upper⟩ := abs_le.mp (error.trans half)
  have factor : 1 + 3 * (1 / 2 ^ 53) ≤ roundingFactor ^ 3 := by norm_num [roundingFactor]
  constructor
  · nlinarith
  · nlinarith

/-- The sign of a number, and its value up to eight units of its last place. -/
structure Close (c d : Binary64) : Prop where
  finite : d.isFinite = true
  sign : d.isNegative = c.isNegative
  error : |d.value - c.value| ≤ 8 * 2 ^ c.scale

theorem Off.of_few {k : Nat} {v w : ℚ} (off : Off k v w) (few : k ≤ 6) (positive : 0 < v) :
    w ≤ v * (1 + 25 / 4 * (1 / 2 ^ 53)) ∧ v ≤ w * (1 + 25 / 4 * (1 / 2 ^ 53)) := by
  have powers : roundingFactor ^ k ≤ roundingFactor ^ 6 := pow_le_pow_right₀ one_le_roundingFactor few
  have factor : roundingFactor ^ 6 ≤ 1 + 25 / 4 * (1 / 2 ^ 53) := by norm_num [roundingFactor]
  have after : 0 < w := pos_of_mul_pos_left (positive.trans_le off.lower) (roundingFactor_pow_pos k).le
  constructor
  · exact off.upper.trans (mul_le_mul_of_nonneg_left (powers.trans factor) positive.le)
  · exact off.lower.trans (mul_le_mul_of_nonneg_left (powers.trans factor) after.le)

theorem Nearest.scale_le (positive : x.IsPositive) {v : ℚ} (nearest : x.Nearest v) {e : Int} (least : -1074 ≤ e)
    (bound : v < (2 ^ 54 - 2) * 2 ^ e) : x.scale ≤ e + 1 := by
  by_contra far
  have normal : 2 ^ 52 ≤ x.significand := positive.isNumber.normal.resolve_right (by omega)
  have mantissa : (2 : ℚ) ^ 52 ≤ x.significand := by exact_mod_cast normal
  have reach := below_le x.significand x.scale
  have power : (2 : ℚ) ^ e * 2 ^ 2 ≤ 2 ^ x.scale := by
    rw [← two_zpow_add_nat]
    exact two_zpow_mono (by omega)
  have product : (2 ^ 52 - 1 / 2) * (2 ^ e * 2 ^ 2) ≤ v := calc
    (2 ^ 52 - 1 / 2) * (2 ^ e * 2 ^ 2) ≤ (2 ^ 52 - 1 / 2 : ℚ) * 2 ^ x.scale :=
        mul_le_mul_of_nonneg_left power (by norm_num)
    _ ≤ (x.significand - below x.significand x.scale) * 2 ^ x.scale :=
        mul_le_mul_of_nonneg_right (by linarith) (two_zpow_pos _).le
    _ ≤ v := nearest.interval.1
  linarith

/-- What is rounded after a few roundings is close to what the value itself is rounded to. -/
theorem exists_close (positive : c.IsPositive) {v w : ℚ} (nearest : c.Nearest v) {k : Nat} (off : Off k v w)
    (few : k ≤ 6) (second : 2 ≤ c.significand) (room : w < limit) :
    ∃ z : Binary64, z.IsPositive ∧ z.Nearest w ∧ c.Close z := by
  obtain ⟨lower, upper⟩ := nearest.interval
  have place := two_zpow_pos c.scale
  have reach := below_le c.significand c.scale
  have mantissa : (2 : ℚ) ≤ c.significand := by exact_mod_cast second
  have small : (c.significand : ℚ) + 1 ≤ 2 ^ 53 := by exact_mod_cast positive.isNumber.small
  have least : (2 : ℚ) ^ (-1074 : Int) ≤ 2 ^ c.scale := two_zpow_mono positive.isNumber.least
  have smallest : 3 / 2 * 2 ^ c.scale ≤ v := (mul_le_mul_of_nonneg_right (by linarith) place.le).trans lower
  have largest : v ≤ (2 ^ 53 - 1 / 2) * 2 ^ c.scale :=
    upper.trans (mul_le_mul_of_nonneg_right (by linarith) place.le)
  obtain ⟨above, under⟩ := off.of_few few (by linarith)
  obtain ⟨z, isZ, nearZ⟩ := exists_nearest (v := w) (by linarith) room
  have scale := nearZ.scale_le isZ positive.isNumber.least (by linarith)
  have power : (2 : ℚ) ^ z.scale ≤ 2 ^ c.scale * 2 ^ 1 := by
    rw [← two_zpow_add_nat]
    exact two_zpow_mono scale
  have last : |z.value - w| ≤ 2 ^ c.scale := nearZ.error_le.trans (by linarith)
  have middle : |w - v| ≤ 13 / 2 * 2 ^ c.scale := by
    rw [abs_le]
    constructor <;> linarith
  have first : |v - c.value| ≤ 1 / 2 * 2 ^ c.scale := by
    rw [abs_sub_comm]
    exact nearest.error_le
  refine ⟨z, isZ, nearZ, isZ.finite, isZ.sign.trans positive.sign.symm, ?_⟩
  calc |z.value - c.value| ≤ |z.value - v| + |v - c.value| := abs_sub_le ..
    _ ≤ |z.value - w| + |w - v| + |v - c.value| := by linarith [abs_sub_le z.value w v]
    _ ≤ 8 * 2 ^ c.scale := by linarith

theorem powers_above : 10 ^ 308 < (2 ^ 53 - 2) * 2 ^ 971 ∧ 2 ^ 53 * 2 ^ 971 < 10 ^ 309 ∧
    22 * 10 ^ 308 ≤ 50 * 2 ^ 1022 := by
  decide +kernel

theorem powers_below : 2 ^ 1075 < 10 ^ 324 ∧ 10 ^ 323 < 2 ^ 1074 := by decide +kernel

theorem lt_limit {v : ℚ} {k : Nat} (bound : v ≤ 10 ^ k) (small : k ≤ 308) : v < limit := by
  have mantissa : ((2 ^ 53 - 2 : Nat) : ℚ) < 2 ^ 53 - 1 / 2 := by norm_num
  have power : (2 : ℚ) ^ (971 : Int) = 2 ^ 971 := zpow_natCast 2 971
  calc v ≤ 10 ^ k := bound
    _ ≤ 10 ^ 308 := pow_le_pow_right₀ (by norm_num) small
    _ = ((10 ^ 308 : Nat) : ℚ) := by rw [Nat.cast_pow, Nat.cast_ofNat]
    _ < (((2 ^ 53 - 2) * 2 ^ 971 : Nat) : ℚ) := Nat.cast_lt.mpr powers_above.1
    _ = ((2 ^ 53 - 2 : Nat) : ℚ) * 2 ^ (971 : Int) := by rw [power, Nat.cast_mul, Nat.cast_pow, Nat.cast_ofNat]
    _ < limit := mul_lt_mul_of_pos_right mantissa (two_zpow_pos 971)

/-- The conversion of a decimal that is neither tiny nor too large is one rounding. -/
theorem exists_rounded {n : Nat} {e : Int} (large : 1 ≤ (n * 10 ^ e : ℚ)) (room : (n * 10 ^ e : ℚ) < limit) :
    ∃ y : Binary64, y.IsPositive ∧ Off 1 (n * 10 ^ e) y.value ∧ ofScientific n e = y := by
  have tiny : (2 : ℚ) ^ (-1074 : Int) ≤ 1 := zpow_le_one_of_nonpos₀ one_le_two (by decide)
  obtain ⟨y, positive, nearest⟩ := exists_nearest (tiny.trans large) room
  exact ⟨y, positive, nearest.off positive large, ofScientific_eq positive nearest⟩

theorem exists_rounded_ofNat {n : Nat} (positive : 0 < n) (room : (n : ℚ) < limit) :
    ∃ y : Binary64, y.IsPositive ∧ Off 1 n y.value ∧ ofNat n = y := by
  have whole : (n : ℚ) * 10 ^ (0 : Int) = n := by rw [zpow_zero, mul_one]
  have large : (1 : ℚ) ≤ n := by exact_mod_cast positive
  rw [← whole] at large room ⊢
  exact exists_rounded large room

theorem exists_rounded_power {k : Nat} (small : k ≤ 308) :
    ∃ t : Binary64, t.IsPositive ∧ Off 1 (10 ^ k) t.value ∧ ofScientific 1 k = t := by
  have power : ((1 : Nat) : ℚ) * 10 ^ (k : Int) = 10 ^ k := by rw [Nat.cast_one, one_mul, zpow_natCast]
  have large : (1 : ℚ) ≤ 10 ^ k := one_le_pow₀ (by norm_num)
  have room : (10 : ℚ) ^ k < limit := lt_limit le_rfl small
  rw [← power] at large room ⊢
  exact exists_rounded large room

theorem exists_quotient (positive : c.IsPositive) (first : y.IsPositive) {v : ℚ} (some : 0 < v) {j k : Nat}
    (off : Off j v y.value) (few : j ≤ 5) (small : k ≤ 308) (nearest : c.Nearest (v / 10 ^ k))
    (second : 2 ≤ c.significand) (room : y.value ≤ 10 ^ 18) :
    ∃ z : Binary64, z.IsPositive ∧ y.div (ofScientific 1 k) = z ∧ c.Close z := by
  obtain ⟨t, isT, offT, convertedT⟩ := exists_rounded_power small
  have quotient := off.div offT some first.value_pos (by positivity) isT.value_pos
  have bound : y.value / t.value ≤ 10 ^ 19 := by
    have power : (1 : ℚ) ≤ 10 ^ k := one_le_pow₀ (by norm_num)
    have divisor := power.trans offT.lower
    rw [roundingFactor, pow_one] at divisor
    rw [div_le_iff₀ isT.value_pos]
    linarith
  obtain ⟨z, isZ, nearZ, close⟩ :=
    exists_close positive nearest quotient (by omega) second (lt_limit bound (by decide))
  exact ⟨z, isZ, by rw [convertedT, first.div_eq isT isZ nearZ], close⟩

theorem two_zpow_le_inv : 22 * (2 : ℚ) ^ (-1022 : Int) ≤ 50 * (10 ^ 308)⁻¹ := by
  have bound : (22 : ℚ) * 10 ^ 308 ≤ 50 * 2 ^ 1022 := by
    have cast := Nat.cast_le (α := ℚ).mpr powers_above.2.2
    rwa [Nat.cast_mul, Nat.cast_mul, Nat.cast_pow, Nat.cast_pow, Nat.cast_ofNat, Nat.cast_ofNat] at cast
  have power : (2 : ℚ) ^ (-1022 : Int) = (2 ^ 1022)⁻¹ := (zpow_neg 2 1022).trans (congrArg _ (zpow_natCast 2 1022))
  rw [power, ← div_eq_mul_inv, ← div_eq_mul_inv]
  exact (div_le_div_iff₀ (by positivity) (by positivity)).mpr bound

theorem exists_first_quotient {n : Nat} (first : y.IsPositive) (some : 0 < n) (small : n ≤ 10 ^ 17)
    (off : Off 1 n y.value) : ∃ z : Binary64, z.IsPositive ∧ y.div (ofScientific 1 308) = z ∧
      Off 5 (n / 10 ^ 308) z.value ∧ z.value ≤ 10 ^ 18 := by
  obtain ⟨t, isT, offT, convertedT⟩ := exists_rounded_power (le_refl 308)
  have least : (1 : ℚ) ≤ n := by exact_mod_cast some
  have most : (n : ℚ) ≤ 10 ^ 17 := by exact_mod_cast small
  have whole : (0 : ℚ) < n := zero_lt_one.trans_le least
  have power : (1 : ℚ) ≤ 10 ^ 308 := one_le_pow₀ (by norm_num)
  have quotient := off.div offT whole first.value_pos (zero_lt_one.trans_le power) isT.value_pos
  have positive : (0 : ℚ) < n / 10 ^ 308 := div_pos whole (zero_lt_one.trans_le power)
  have atMost : (n : ℚ) / 10 ^ 308 ≤ 10 ^ 17 := (div_le_self whole.le power).trans most
  have atLeast : 22 * (2 : ℚ) ^ (-1022 : Int) ≤ 50 * (n / 10 ^ 308) := by
    rw [div_eq_mul_inv]
    exact two_zpow_le_inv.trans (mul_le_mul_of_nonneg_left (le_mul_of_one_le_left (by positivity) least) (by norm_num))
  generalize (n : ℚ) / 10 ^ 308 = v at quotient positive atMost atLeast ⊢
  obtain ⟨above, under⟩ := quotient.of_few (by decide) positive
  have normal : 2 * (2 : ℚ) ^ (-1022 : Int) ≤ 5 * (y.value / t.value) := by
    generalize (2 : ℚ) ^ (-1022 : Int) = p at atLeast ⊢
    linarith
  have tiny : (2 : ℚ) ^ (-1074 : Int) ≤ y.value / t.value := by
    have wider : 3 * (2 : ℚ) ^ (-1074 : Int) ≤ 2 ^ (-1022 : Int) := by
      rw [show (-1022 : Int) = -1074 + (52 : Nat) from rfl, two_zpow_add_nat]
      linarith [two_zpow_pos (-1074)]
    linarith [two_zpow_pos (-1074)]
  have room : y.value / t.value ≤ 10 ^ 18 := by linarith
  obtain ⟨z, isZ, nearZ⟩ := exists_nearest tiny (lt_limit room (by decide))
  have offZ := quotient.trans (nearZ.off_three isZ normal)
  refine ⟨z, isZ, ?_, offZ, ?_⟩
  · change y.div (ofScientific 1 (308 : Nat)) = z
    rw [convertedT, first.div_eq isT isZ nearZ]
  · linarith [(offZ.of_few (by decide) positive).1]

theorem IsPositive.equal_zero (positive : x.IsPositive) : x.equal (.ofNat 0) = false := by
  apply Bool.eq_false_of_not_eq_true
  intro same
  have zero : NumberKinds.isZero x = true := by
    rcases near_of_equal same with rfl | ⟨zero, -⟩
    · rfl
    · exact zero
  obtain ⟨sign, unpacked⟩ := (isZero_iff x).mp zero
  rw [positive.unpacked] at unpacked
  cases unpacked

theorem zpow_neg_lt {a b j k : Nat} (positive : 0 < a) (less : a ^ j < b ^ k) :
    (b : ℚ) ^ (-k : Int) < (a : ℚ) ^ (-j : Int) := by
  have power : (0 : ℚ) < a ^ j := pow_pos (by exact_mod_cast positive) j
  have bound : (a : ℚ) ^ j < b ^ k := by
    have cast := Nat.cast_lt (α := ℚ).mpr less
    rwa [Nat.cast_pow, Nat.cast_pow] at cast
  rw [zpow_neg, zpow_neg, zpow_natCast, zpow_natCast]
  exact (inv_lt_inv₀ (power.trans bound) power).mpr bound

theorem le_place (positive : c.IsPositive) {n : Nat} (small : n ≤ 10 ^ 17) {e : Int}
    (nearest : c.Nearest (n * 10 ^ e)) : -340 ≤ e := by
  by_contra far
  have most : (n : ℚ) ≤ 10 ^ 17 := by exact_mod_cast small
  have ten : (1 : ℚ) ≤ 10 := by norm_num
  have wider : (10 : ℚ) ^ (-324 : Int) < 2 ^ (-1075 : Int) :=
    zpow_neg_lt (a := 2) (b := 10) (j := 1075) (k := 324) two_pos powers_below.1
  have less : (n : ℚ) * 10 ^ e < 2 ^ (-1075 : Int) := calc
    (n : ℚ) * 10 ^ e ≤ 10 ^ 17 * 10 ^ e := mul_le_mul_of_nonneg_right most (by positivity)
    _ = 10 ^ (17 + e) := (zpow_add₀ (by norm_num) 17 e).symm
    _ ≤ 10 ^ (-324 : Int) := zpow_le_zpow_right₀ ten (by omega)
    _ < 2 ^ (-1075 : Int) := wider
  exact absurd (nearest.bounds positive).1 less.not_ge

/-- Division by one power of ten, or by two if the first one is not enough. -/
theorem exists_scale?_down (positive : c.IsPositive) {n : Nat} {e : Int} (nearest : c.Nearest (n * 10 ^ e))
    (second : 2 ≤ c.significand) (small : n ≤ 10 ^ 17) (down : e < 0) :
    ∃ z : Binary64, z.IsPositive ∧ Numeral.scale? (.ofNat n) e = some z ∧ c.Close z := by
  have some := pos_of_nearest positive nearest
  have whole : (0 : ℚ) < n := by exact_mod_cast some
  have most : (n : ℚ) ≤ 10 ^ 17 := by exact_mod_cast small
  obtain ⟨y, isY, offY, converted⟩ := exists_rounded_ofNat some (lt_limit most (by decide))
  rw [converted, Numeral.scale?]
  by_cases far : e < -308
  · have near := le_place positive small nearest
    obtain ⟨f, isF, first, offF, room⟩ := exists_first_quotient isY some small offY
    have places : (n : ℚ) * 10 ^ e = n / 10 ^ 308 / 10 ^ (e + 308).natAbs := by
      have ten : (10 : ℚ) ≠ 0 := by norm_num
      have split : (10 : ℚ) ^ e = 10 ^ (e + 308) * 10 ^ (-(308 : Nat) : Int) := by
        rw [← zpow_add₀ ten]
        congr 1
        omega
      rw [split, ten_zpow_of_neg (by omega), zpow_neg, zpow_natCast, div_eq_mul_inv, div_eq_mul_inv, mul_assoc,
        mul_comm (10 ^ (e + 308).natAbs)⁻¹]
    rw [places] at nearest
    obtain ⟨z, isZ, quotient, close⟩ :=
      exists_quotient positive isF (by positivity) offF le_rfl (by omega) nearest second room
    refine ⟨z, isZ, ?_, close⟩
    rw [if_pos far, isY.equal_zero, if_neg (by decide), first, Numeral.scale?, if_neg (by omega), if_neg (by omega),
      if_pos (by omega), quotient]
  · have room : y.value ≤ 10 ^ 18 := by linarith [(offY.of_few (by decide) whole).1]
    rw [ten_zpow_of_neg down, ← div_eq_mul_inv] at nearest
    obtain ⟨z, isZ, quotient, close⟩ :=
      exists_quotient positive isY whole offY (by decide) (by omega) nearest second room
    refine ⟨z, isZ, ?_, close⟩
    rw [if_neg far, if_neg (by omega), if_pos down, quotient]

theorem place_le (positive : c.IsPositive) {n k : Nat} (nearest : c.Nearest (n * 10 ^ (k : Int))) : k ≤ 308 := by
  have whole := pos_of_nearest positive nearest
  have upper := (nearest.bounds positive).2
  have value : (n : ℚ) * 10 ^ (k : Int) = (n * 10 ^ k : Nat) := by
    rw [Nat.cast_mul, Nat.cast_pow, Nat.cast_ofNat, zpow_natCast]
  have power : (2 : ℚ) ^ (1024 : Int) = (2 ^ 53 * 2 ^ 971 : Nat) := by
    rw [Nat.cast_mul, Nat.cast_pow, Nat.cast_pow, Nat.cast_ofNat, ← pow_add]
    exact zpow_natCast 2 1024
  rw [value, power] at upper
  have less : 10 ^ k < 10 ^ 309 := calc
    10 ^ k ≤ n * 10 ^ k := Nat.le_mul_of_pos_left _ whole
    _ < 2 ^ 53 * 2 ^ 971 := Nat.cast_lt.mp upper
    _ < 10 ^ 309 := powers_above.2.1
  have before : k < 309 := (pow_lt_pow_iff_right₀ (by decide : 1 < 10)).mp less
  omega

/-- Multiplication by a power of ten, if there is room for the errors. -/
theorem exists_scale?_up (positive : c.IsPositive) {n k : Nat} (nearest : c.Nearest (n * 10 ^ (k : Int)))
    (second : 2 ≤ c.significand) (room : (n * 10 ^ (k : Int) : ℚ) * roundingFactor ^ 2 < limit) :
    ∃ z : Binary64, z.IsPositive ∧ Numeral.scale? (.ofNat n) k = some z ∧ c.Close z := by
  have some := pos_of_nearest positive nearest
  have small := place_le positive nearest
  rw [zpow_natCast] at nearest room
  have whole : (0 : ℚ) < n := by exact_mod_cast some
  have power : (1 : ℚ) ≤ 10 ^ k := one_le_pow₀ (by norm_num)
  have slack : 1 ≤ roundingFactor ^ 2 := one_le_pow₀ one_le_roundingFactor
  have first : (n : ℚ) < limit := calc
    (n : ℚ) ≤ n * 10 ^ k := le_mul_of_one_le_right whole.le power
    _ ≤ n * 10 ^ k * roundingFactor ^ 2 := le_mul_of_one_le_right (by positivity) slack
    _ < limit := room
  obtain ⟨y, isY, offY, convertedY⟩ := exists_rounded_ofNat some first
  obtain ⟨t, isT, offT, convertedT⟩ := exists_rounded_power small
  have off := offY.mul offT whole isY.value_pos (by positivity) isT.value_pos
  obtain ⟨z, isZ, nearZ, close⟩ := exists_close positive nearest off (by decide) second (off.upper.trans_lt room)
  refine ⟨z, isZ, ?_, close⟩
  rw [Numeral.scale?, if_neg (by omega), if_neg (by omega), if_neg (by omega), convertedY, convertedT,
    isY.mul_eq isT isZ nearZ]
  simp only [isZ.finite, if_true]

end Binary64

end AutoDiff
