import Mathlib
import AutoDiff.Proofs.DecimalReading
import AutoDiff.Proofs.Numerals

namespace AutoDiff

namespace Binary64

variable {x : Binary64}

theorem reach_eq (x : Binary64) : (x.reach.1 : ℚ) = 4 * below x.significand x.scale ∧ x.reach.2 = 2 := by
  have fraction := fractionField_toNat x
  have same : (x.fractionField = 0 ∧ 1 < x.exponentField) ↔ (x.significand = 2 ^ 52 ∧ -1074 < x.scale) := by
    rw [significand_eq, scale]
    split_ifs <;> omega
  rw [reach, below]
  by_cases power : x.fractionField = 0 ∧ 1 < x.exponentField
  · rw [if_pos power, if_pos (same.mp power)]
    norm_num
  · rw [if_neg power, if_neg (mt same.mpr power)]
    norm_num

theorem zpow_mul_eq {b : Nat} (positive : 0 < b) (k : Int) :
    (b : ℚ) ^ k * (if k < 0 then b ^ k.natAbs else 1 : Nat) = (if k < 0 then 1 else b ^ k.natAbs : Nat) := by
  have base : (b : ℚ) ≠ 0 := by exact_mod_cast positive.ne'
  split_ifs with down
  · rw [Nat.cast_pow, ← zpow_natCast, ← zpow_add₀ base, show k + k.natAbs = 0 by omega, zpow_zero, Nat.cast_one]
  · rw [Nat.cast_one, mul_one, Nat.cast_pow, ← zpow_natCast, show (k.natAbs : Int) = k by omega]

section

variable {y : ℚ} {c s : Nat} (a : Nat) (positive : 0 < s) (ratio : (c : ℚ) = y * s)
include positive ratio

theorem mul_le_iff : a * s ≤ c ↔ (a : ℚ) ≤ y := by
  have scale : (0 : ℚ) < s := by exact_mod_cast positive
  rw [← mul_le_mul_iff_left₀ scale, ← ratio]
  norm_cast

theorem le_mul_iff : c ≤ a * s ↔ y ≤ a := by
  have scale : (0 : ℚ) < s := by exact_mod_cast positive
  rw [← mul_le_mul_iff_left₀ scale, ← ratio]
  norm_cast

end

/-- The comparison of whole numbers decides whether a decimal is in the interval of a number. -/
theorem readsBack_iff (positive : 0 < x.significand) (n : Nat) (e : Int) :
    x.readsBack n e = true ↔ x.Nearest (n * 10 ^ e) := by
  obtain ⟨down, up⟩ := reach_eq x
  have fits : x.reach.1 ≤ 4 * x.significand := by
    have half := below_le x.significand x.scale
    have near : x.reach.1 ≤ 2 := by exact_mod_cast (by linarith : (x.reach.1 : ℚ) ≤ 2)
    omega
  obtain ⟨y, value⟩ : ∃ y : ℚ, y = n * 10 ^ e / 2 ^ x.scale := ⟨_, rfl⟩
  let s := (if x.scale - 2 < 0 then 1 else 2 ^ (x.scale - 2).natAbs) * (if e < 0 then 10 ^ e.natAbs else 1)
  let c := n * (if x.scale - 2 < 0 then 2 ^ (x.scale - 2).natAbs else 1) * (if e < 0 then 1 else 10 ^ e.natAbs)
  have some : 0 < s := by
    apply Nat.mul_pos <;> split_ifs <;> positivity
  have ratio : (c : ℚ) = 4 * y * s := by
    have two := zpow_mul_eq two_pos (x.scale - 2)
    have ten := zpow_mul_eq (by decide : 0 < 10) e
    rw [Nat.cast_ofNat] at two ten
    have quarter : (2 : ℚ) ^ x.scale = 4 * 2 ^ (x.scale - 2) := by
      rw [show x.scale = 2 + (x.scale - 2) by omega, two_zpow_add]
      norm_num
    have power := (two_zpow_pos (x.scale - 2)).ne'
    change ((n * _ * _ : Nat) : ℚ) = 4 * y * ((_ * _ : Nat) : ℚ)
    rw [Nat.cast_mul, Nat.cast_mul, Nat.cast_mul, ← two, ← ten, value, quarter]
    field_simp
  have low : ((4 * x.significand - x.reach.1 : Nat) : ℚ) = 4 * (x.significand - below x.significand x.scale) := by
    rw [Nat.cast_sub fits, down]
    push_cast
    ring
  have high : ((4 * x.significand + x.reach.2 : Nat) : ℚ) = 4 * (x.significand + 1 / 2) := by
    rw [up]
    push_cast
    ring
  have lower := mul_le_iff (4 * x.significand - x.reach.1) some ratio
  have upper := le_mul_iff (4 * x.significand + x.reach.2) some ratio
  have above := le_mul_iff (4 * x.significand - x.reach.1) some ratio
  have under := mul_le_iff (4 * x.significand + x.reach.2) some ratio
  rw [low, mul_le_mul_iff_right₀ four_pos] at lower above
  rw [high, mul_le_mul_iff_right₀ four_pos] at upper under
  have unfolded : x.readsBack n e = if x.significand % 2 = 0
      then decide ((4 * x.significand - x.reach.1) * s ≤ c) && decide (c ≤ (4 * x.significand + x.reach.2) * s)
      else decide ((4 * x.significand - x.reach.1) * s < c) && decide (c < (4 * x.significand + x.reach.2) * s) := rfl
  rw [unfolded, Nearest, RoundsTo, Within, ← value, Nat.even_iff]
  split_ifs with even
  · simp only [Bool.and_eq_true, decide_eq_true_eq, lower, upper, even, true_and]
    constructor
    · exact .inr
    · rintro (⟨lower, upper⟩ | bounds)
      · exact ⟨lower.le, upper.le⟩
      · exact bounds
  · rw [Bool.and_eq_true, decide_eq_true_eq, decide_eq_true_eq, ← not_le, ← not_le, above, under, not_le, not_le]
    simp [even]

theorem length_ofNat {n : Nat} (positive : 0 < n) :
    ∃ k, (Digit.ofNat n).length = k + 1 ∧ 10 ^ k ≤ n ∧ n < 10 ^ (k + 1) := by
  induction n using Nat.strongRecOn with
  | ind n ih =>
      rw [Digit.ofNat]
      split_ifs with small
      · exact ⟨0, rfl, positive, by simpa using small⟩
      · obtain ⟨k, length, lower, upper⟩ := ih (n / 10) (by omega) (by omega)
        refine ⟨k + 1, by rw [List.length_append, length]; rfl, ?_, ?_⟩
        · rw [Nat.pow_succ]
          omega
        · rw [Nat.pow_succ]
          omega

theorem leadingExponent_spec {num den : Nat} (numerator : 0 < num) (denominator : 0 < den) :
    (10 : ℚ) ^ leadingExponent num den ≤ num / den ∧ (num : ℚ) / den < 10 ^ (leadingExponent num den + 1) := by
  have positive : (0 : ℚ) < den := by exact_mod_cast denominator
  rw [leadingExponent]
  by_cases whole : den ≤ num
  · obtain ⟨k, length, lower, upper⟩ := length_ofNat (Nat.div_pos whole denominator)
    have exponent : ((Digit.ofNat (num / den)).length : Int) - 1 = k := by omega
    have least : 10 ^ k * den ≤ num := (Nat.le_div_iff_mul_le denominator).mp lower
    have most : num < 10 ^ (k + 1) * den := (Nat.div_lt_iff_lt_mul denominator).mp upper
    rw [if_pos whole, exponent, le_div_iff₀ positive, div_lt_iff₀ positive, ← Nat.cast_succ, zpow_natCast,
      zpow_natCast]
    exact ⟨by exact_mod_cast least, by exact_mod_cast most⟩
  · obtain ⟨k, length, lower, upper⟩ := length_ofNat (Nat.div_pos (not_le.mp whole).le numerator)
    have least : (10 : ℚ) ^ k * num ≤ den := by exact_mod_cast (Nat.le_div_iff_mul_le numerator).mp lower
    have most : (den : ℚ) < 10 ^ (k + 1) * num := by exact_mod_cast (Nat.div_lt_iff_lt_mul numerator).mp upper
    rw [if_neg whole, length]
    by_cases exact : num * Nat.pow 10 (k + 1 - 1) = den
    · have value : (num : ℚ) * 10 ^ k = den := by exact_mod_cast exact
      have quotient : (num : ℚ) / den = 10 ^ (-k : Int) := by
        rw [div_eq_iff positive.ne', ← value, zpow_neg, zpow_natCast]
        field_simp
      have exponent : 1 - ((k + 1 : Nat) : Int) = -k := by omega
      rw [if_pos exact, exponent, quotient]
      exact ⟨le_rfl, zpow_lt_zpow_right₀ (by norm_num) (by omega)⟩
    · have other : (10 : ℚ) ^ k * num ≠ den := by
        rw [mul_comm]
        exact_mod_cast exact
      have less := lt_of_le_of_ne least other
      rw [if_neg exact, le_div_iff₀ positive, div_lt_iff₀ positive]
      have exponent : -((k + 1 : Nat) : Int) + 1 = -k := by omega
      rw [exponent, zpow_neg, zpow_neg, zpow_natCast, zpow_natCast]
      constructor
      · rw [inv_mul_le_iff₀ (by positivity)]
        exact most.le
      · rw [lt_inv_mul_iff₀ (by positivity)]
        exact less

theorem magnitude_spec (x : Binary64) : 0 < x.magnitude.2 ∧ (x.magnitude.1 : ℚ) / x.magnitude.2 = x.value := by
  unfold magnitude value
  split_ifs with down
  · refine ⟨Nat.pow_pos two_pos, ?_⟩
    have exponent : x.scale = -(x.scale.natAbs : Int) := by omega
    rw [exponent, zpow_neg, zpow_natCast, Int.natAbs_neg, Int.natAbs_natCast, ← div_eq_mul_inv, Nat.pow_eq,
      Nat.cast_pow, Nat.cast_ofNat]
  · refine ⟨Nat.one_pos, ?_⟩
    have exponent : x.scale = (x.scale.natAbs : Int) := by omega
    rw [exponent, zpow_natCast, Int.natAbs_natCast, Nat.cast_one, div_one, Nat.pow_eq, Nat.cast_mul, Nat.cast_pow,
      Nat.cast_ofNat]

theorem shifted_spec (num : Nat) {den : Nat} (denominator : 0 < den) (e : Int) : 0 < (shifted num den e).2 ∧
    ((shifted num den e).1 : ℚ) / (shifted num den e).2 * 10 ^ e = num / den := by
  have positive : (0 : ℚ) < den := by exact_mod_cast denominator
  unfold shifted
  split_ifs with down
  · refine ⟨denominator, ?_⟩
    rw [ten_zpow_of_neg down, Nat.pow_eq, Nat.cast_mul, Nat.cast_pow, Nat.cast_ofNat]
    field_simp
  · refine ⟨Nat.mul_pos denominator (Nat.pow_pos (by decide)), ?_⟩
    rw [ten_zpow_of_nonneg (not_lt.mp down), Nat.pow_eq, Nat.cast_mul, Nat.cast_pow, Nat.cast_ofNat]
    field_simp

/-- The neighbour below a number on the grid of multiples of a power of ten. -/
def gridBelow (x : Binary64) (e : Int) : Nat :=
  (shifted x.magnitude.1 x.magnitude.2 e).1 / (shifted x.magnitude.1 x.magnitude.2 e).2

theorem gridBelow_spec (x : Binary64) (e : Int) :
    x.gridBelow e * 10 ^ e ≤ x.value ∧ x.value < (x.gridBelow e + 1) * 10 ^ e := by
  obtain ⟨denominator, magnitude⟩ := x.magnitude_spec
  obtain ⟨divisor, quotient⟩ := shifted_spec x.magnitude.1 denominator e
  have positive : (0 : ℚ) < (shifted x.magnitude.1 x.magnitude.2 e).2 := by exact_mod_cast divisor
  have power : (0 : ℚ) < 10 ^ e := zpow_pos (by norm_num) e
  rw [← magnitude, ← quotient, mul_le_mul_iff_left₀ power, mul_lt_mul_iff_left₀ power, le_div_iff₀ positive,
    div_lt_iff₀ positive]
  constructor
  · exact_mod_cast Nat.div_mul_le_self _ _
  · exact_mod_cast (Nat.div_lt_iff_lt_mul divisor).mp (Nat.lt_succ_self _)

/-- Seventeen digits are enough: one of the neighbours is in the interval of the number. The grid is finer than the
last place of the number, and than half of it where the interval is smaller. -/
theorem nearest_gridBelow (positive : 0 < x.significand) {e : Int} (fine : 10 ^ 16 * 10 ^ e ≤ x.value) :
    x.Nearest (x.gridBelow e * 10 ^ e) ∨ x.Nearest ((x.gridBelow e + 1 : Nat) * 10 ^ e) := by
  obtain ⟨lower, upper⟩ := x.gridBelow_spec e
  have place := two_zpow_pos x.scale
  have reach := below_pos x.significand x.scale
  have small : (x.significand : ℚ) < 2 ^ 53 := by exact_mod_cast (isNumber_significand positive).small
  unfold Nearest RoundsTo
  rw [value] at fine lower upper
  by_cases near : ((x.gridBelow e + 1) * 10 ^ e : ℚ) < (x.significand + 1 / 2) * 2 ^ x.scale
  · right
    left
    rw [lt_div_iff₀ place, div_lt_iff₀ place, Nat.cast_add, Nat.cast_one]
    exact ⟨by nlinarith, near⟩
  · left
    left
    have half : below x.significand x.scale = 1 / 2 := by
      unfold below
      split_ifs with power
      · rw [power.1] at fine near lower
        push_cast at fine near lower
        nlinarith
      · rfl
    rw [half, lt_div_iff₀ place, div_lt_iff₀ place]
    constructor <;> nlinarith

theorem of_gridNeighbour? {tie : Tie} {e : Int} {n : Nat} (found : gridNeighbour? tie x e = some n) :
    x.readsBack n e = true ∧ n ≤ x.gridBelow e + 1 := by
  unfold gridNeighbour? at found
  dsimp only at found
  rw [← gridBelow] at found
  split at found
  · next below above =>
      obtain rfl := Option.some.inj found
      split
      · exact ⟨above, le_rfl⟩
      · exact ⟨below, Nat.le_succ _⟩
  · next below _ =>
      obtain rfl := Option.some.inj found
      exact ⟨below, Nat.le_succ _⟩
  · next _ above =>
      obtain rfl := Option.some.inj found
      exact ⟨above, le_rfl⟩
  · cases found

theorem gridNeighbour?_isSome (positive : 0 < x.significand) (tie : Tie) {e : Int}
    (fine : 10 ^ 16 * 10 ^ e ≤ x.value) : (gridNeighbour? tie x e).isSome = true := by
  have found := nearest_gridBelow positive fine
  rw [← readsBack_iff positive, ← readsBack_iff positive, gridBelow] at found
  unfold gridNeighbour?
  dsimp only
  split
  · rfl
  · rfl
  · rfl
  · next below above =>
      rw [below, above] at found
      simp at found

section

variable (positive : 0 < x.significand) (tie : Tie) {leading : Int}
include positive

theorem found_spec (coarse : x.value < 10 ^ (leading + 1)) {e : Int} (near : leading - 16 ≤ e) {n : Nat}
    (found : gridNeighbour? tie x e = some n) : 0 < n ∧ n ≤ 10 ^ 17 ∧ x.Nearest (n * 10 ^ e) := by
  obtain ⟨reads, neighbour⟩ := of_gridNeighbour? found
  have power : (0 : ℚ) < 10 ^ e := zpow_pos (by norm_num) e
  have bound : (x.gridBelow e : ℚ) * 10 ^ e < 10 ^ 17 * 10 ^ e := calc
    (x.gridBelow e : ℚ) * 10 ^ e ≤ x.value := (x.gridBelow_spec e).1
    _ < 10 ^ (leading + 1) := coarse
    _ ≤ 10 ^ (17 + e) := zpow_le_zpow_right₀ (by norm_num) (by omega)
    _ = 10 ^ 17 * 10 ^ e := zpow_add₀ (by norm_num) 17 e
  have below : x.gridBelow e < 10 ^ 17 := by exact_mod_cast lt_of_mul_lt_mul_right bound power.le
  exact ⟨pos_of_gridNeighbour? positive.ne' found, by omega, (readsBack_iff positive n e).mp reads⟩

theorem shortestFrom_cases (coarse : x.value < 10 ^ (leading + 1)) {left : Nat} (few : left ≤ 16) :
    (∃ n e, 0 < n ∧ n ≤ 10 ^ 17 ∧ shortestFrom tie x leading (left + 1) = Decimal.ofScaled n e ∧
      x.Nearest (n * 10 ^ e)) ∨
    (gridNeighbour? tie x (leading - (16 - left)) = none ∧
      shortestFrom tie x leading (left + 1) = shortestFrom tie x leading left) := by
  rw [shortestFrom]
  split
  · next n found =>
      obtain ⟨whole, small, nearest⟩ := found_spec positive tie coarse (by omega) found
      exact .inl ⟨n, _, whole, small, rfl, nearest⟩
  · next missing => exact .inr ⟨missing, rfl⟩

/-- The search ends with a decimal of at most seventeen digits that has the number as its nearest one. -/
theorem exists_shortestFrom (fine : 10 ^ 16 * 10 ^ (leading - 16) ≤ x.value) (coarse : x.value < 10 ^ (leading + 1))
    {left : Nat} (few : left ≤ 16) : ∃ n e, 0 < n ∧ n ≤ 10 ^ 17 ∧
      shortestFrom tie x leading (left + 1) = Decimal.ofScaled n e ∧ x.Nearest (n * 10 ^ e) := by
  induction left with
  | zero =>
      rcases shortestFrom_cases positive tie coarse few with found | ⟨missing, -⟩
      · exact found
      · -- The last exponent is fine enough for a neighbour.
        have found := gridNeighbour?_isSome positive tie fine
        rw [Nat.cast_zero, sub_zero] at missing
        rw [missing] at found
        cases found
  | succ left ih =>
      rcases shortestFrom_cases positive tie coarse few with found | ⟨-, next⟩
      · exact found
      · rw [next]
        exact ih (by omega)

theorem exists_shortest :
    ∃ n e, 0 < n ∧ n ≤ 10 ^ 17 ∧ x.shortest tie = Decimal.ofScaled n e ∧ x.Nearest (n * 10 ^ e) := by
  obtain ⟨denominator, magnitude⟩ := x.magnitude_spec
  obtain ⟨least, most⟩ := leadingExponent_spec (magnitude_pos positive.ne') denominator
  rw [magnitude] at least most
  have fine : 10 ^ 16 * 10 ^ (leadingExponent x.magnitude.1 x.magnitude.2 - 16) ≤ x.value := calc
    (10 : ℚ) ^ 16 * 10 ^ (leadingExponent x.magnitude.1 x.magnitude.2 - 16)
        = 10 ^ (16 + (leadingExponent x.magnitude.1 x.magnitude.2 - 16)) := (zpow_add₀ (by norm_num) 16 _).symm
    _ = 10 ^ leadingExponent x.magnitude.1 x.magnitude.2 := by rw [add_sub_cancel]
    _ ≤ x.value := least
  exact exists_shortestFrom positive tie fine most le_rfl

end

end Binary64

namespace Digit

theorem value_append_zeros (ds : List Digit) (k : Nat) : value (ds ++ List.replicate k 0) = value ds * 10 ^ k := by
  induction k with
  | zero => simp
  | succ k ih =>
      rw [List.replicate_succ', ← List.append_assoc, value_append_singleton, ih, Nat.pow_succ]
      change 10 * (value ds * 10 ^ k) + 0 = value ds * (10 ^ k * 10)
      ring

theorem value_zeros_append (k : Nat) (ds : List Digit) : value (List.replicate k 0 ++ ds) = value ds := by
  induction k with
  | zero => rfl
  | succ k ih => exact ih

end Digit

namespace Decimal

theorem exists_zeros (digits : List Digit) : ∃ k, digits = trimZeros digits ++ List.replicate k 0 := by
  obtain ⟨k, zeros⟩ : ∃ k, digits.reverse.takeWhile (· == 0) = List.replicate k 0 := by
    refine ⟨_, List.eq_replicate_of_mem ?_⟩
    intro d member
    exact beq_iff_eq.mp (List.mem_takeWhile_imp (p := (· == 0)) member)
  refine ⟨k, ?_⟩
  calc digits = (digits.reverse.takeWhile (· == 0) ++ digits.reverse.dropWhile (· == 0)).reverse := by
        rw [List.takeWhile_append_dropWhile, List.reverse_reverse]
    _ = trimZeros digits ++ List.replicate k 0 := by
        rw [zeros, List.reverse_append, List.reverse_replicate, trimZeros]

def value (d : Decimal) : ℚ := Digit.value d.digits * 10 ^ (d.point - d.digits.length)

theorem value_ofScaled (n : Nat) (e : Int) : (ofScaled n e).value = n * 10 ^ e := by
  obtain ⟨k, zeros⟩ := exists_zeros (Digit.ofNat n)
  have length := congrArg List.length zeros
  rw [List.length_append, List.length_replicate] at length
  have digits := congrArg Digit.value zeros
  rw [Digit.value_ofNat, Digit.value_append_zeros] at digits
  have exponent : e + ((Digit.ofNat n).length : Int) - (trimZeros (Digit.ofNat n)).length = e + k := by omega
  have coefficient : (n : ℚ) = Digit.value (trimZeros (Digit.ofNat n)) * 10 ^ k := by exact_mod_cast digits
  rw [value, ofScaled]
  dsimp only
  rw [exponent, coefficient, zpow_add₀ (by norm_num), zpow_natCast]
  ring

end Decimal

namespace Binary64

variable {x : Binary64}

theorem value_scientific {d : Decimal} (some : d.digits ≠ []) :
    (scientific d).coefficient * 10 ^ (scientific d).place = d.value := by
  have digits := List.length_pos_iff.mpr some
  have place : d.point - 1 - ((d.digits.length - 1 : Nat) : Int) = d.point - d.digits.length := by omega
  simp only [scientific, Numeral.coefficient, Numeral.place, List.take_append_drop, Option.getD_some,
    Decimal.firstExponent, List.length_drop, place, Decimal.value]

theorem positional_cases (d : Decimal) :
    ((positional d).coefficient = Digit.value d.digits ∧ (positional d).place = d.point - d.digits.length) ∨
      ∃ k : Nat, d.point = d.digits.length + k ∧ (positional d).coefficient = Digit.value d.digits * 10 ^ (k + 1) ∧
        (positional d).place = -1 := by
  unfold positional Numeral.coefficient Numeral.place
  split_ifs with small
  · left
    have place : (0 : Int) - ((d.point.natAbs + d.digits.length : Nat) : Int) = d.point - d.digits.length := by omega
    have zeros : Digit.value ([0] ++ (List.replicate d.point.natAbs 0 ++ d.digits)) = Digit.value d.digits :=
      Digit.value_zeros_append (d.point.natAbs + 1) d.digits
    simp only [Option.getD_none, List.length_append, List.length_replicate, place, zeros, and_self]
  · obtain ⟨p, point⟩ : ∃ p : Nat, d.point = p := ⟨d.point.toNat, by omega⟩
    rw [point, Int.toNat_natCast]
    by_cases long : p < d.digits.length
    · left
      have whole : (d.digits.take p).length = p := by
        rw [List.length_take]
        omega
      have rest : (d.digits.drop p).isEmpty = false := by
        rw [List.isEmpty_eq_false_iff, ← List.length_pos_iff, List.length_drop]
        omega
      have place : (0 : Int) - ((d.digits.length - p : Nat) : Int) = p - d.digits.length := by omega
      simp [whole, rest, place]
    · right
      have whole : d.digits.take p = d.digits := List.take_of_length_le (not_lt.mp long)
      have rest : d.digits.drop p = [] := List.drop_of_length_le (not_lt.mp long)
      have zeros : d.digits ++ List.replicate (p - d.digits.length) 0 ++ [0] =
          d.digits ++ List.replicate (p - d.digits.length + 1) 0 := by
        rw [List.append_assoc, ← List.replicate_succ']
      refine ⟨p - d.digits.length, by omega, ?_, ?_⟩
      · simp only [whole, rest, List.isEmpty_nil, if_true, zeros, Digit.value_append_zeros]
      · simp [rest]

theorem value_positional (d : Decimal) : (positional d).coefficient * 10 ^ (positional d).place = d.value := by
  rcases positional_cases d with ⟨coefficient, place⟩ | ⟨k, point, coefficient, place⟩
  · rw [coefficient, place, Decimal.value]
  · rw [coefficient, place, Decimal.value, point, add_sub_cancel_left, zpow_neg_one, zpow_natCast]
    push_cast
    ring

theorem nearest_numeral (layout : Layout) (positive : 0 < x.significand) :
    x.Nearest ((x.numeral layout).coefficient * 10 ^ (x.numeral layout).place) := by
  obtain ⟨n, e, some, -, shortest, nearest⟩ := exists_shortest positive layout.tie
  have value : (x.shortest layout.tie).value = n * 10 ^ e := by rw [shortest, Decimal.value_ofScaled]
  rw [← value] at nearest
  have digits : (x.shortest layout.tie).digits ≠ [] := by
    obtain ⟨d, ds, same, -⟩ := exists_head_ofScaled some e
    rw [shortest, same]
    exact List.cons_ne_nil d ds
  unfold numeral
  rw [if_neg positive.ne']
  dsimp only
  split_ifs
  · have kept := value_positional (x.shortest layout.tie)
    rw [← kept] at nearest
    exact nearest
  · have kept := value_scientific digits
    rw [← kept] at nearest
    exact nearest

theorem isNegative_neg (x : Binary64) : x.neg.isNegative = !x.isNegative := by
  have signs := sign_neg x
  rw [sign_eq, sign_eq] at signs
  cases before : x.isNegative <;> cases after : x.neg.isNegative <;> rw [before, after] at signs
  · cases signs
  · rfl
  · rfl
  · cases signs

theorem negIf_negIf (negative : Bool) (x : Binary64) : (x.negIf negative).negIf negative = x := by
  cases negative with
  | false => rfl
  | true => exact neg_neg x

theorem significand_neg (x : Binary64) : x.neg.significand = x.significand := by
  rw [significand_eq, significand_eq, exponentField_neg, fractionField_neg]

theorem significand_negIf (negative : Bool) (x : Binary64) : (x.negIf negative).significand = x.significand := by
  cases negative with
  | false => rfl
  | true => exact significand_neg x

theorem scale_neg (x : Binary64) : x.neg.scale = x.scale := by rw [scale, scale, exponentField_neg]

theorem isFinite_neg (x : Binary64) : x.neg.isFinite = x.isFinite := congrArg (· != 0x7ff) (exponentField_neg x)

theorem isPositive_negIf (finite : x.isFinite = true) (positive : 0 < x.significand) :
    (x.negIf x.isNegative).IsPositive ∧ ∀ v, x.Nearest v → (x.negIf x.isNegative).Nearest v := by
  cases sign : x.isNegative with
  | false => exact ⟨⟨finite, sign, positive⟩, fun _ nearest => nearest⟩
  | true =>
      refine ⟨⟨?_, ?_, ?_⟩, ?_⟩
      · exact (isFinite_neg x).trans finite
      · exact (isNegative_neg x).trans (by rw [sign]; rfl)
      · exact lt_of_lt_of_eq positive (significand_neg x).symm
      · intro v nearest
        change RoundsTo x.neg.significand x.neg.scale v
        rw [significand_neg, scale_neg]
        exact nearest

theorem eq_of_significand_eq_zero (zero : x.significand = 0) : x = negIf x.isNegative ⟨0⟩ := by
  have fields : x.exponentField = 0 ∧ x.fractionField = 0 := by
    rw [significand_eq] at zero
    split_ifs at zero with none
    · exact ⟨none, zero⟩
    · omega
  have same := eq_ofFields x
  rw [fields.1, fields.2] at same
  refine same.trans ?_
  cases x.isNegative <;> decide

theorem numeral_of_significand_eq_zero (layout : Layout) (zero : x.significand = 0) :
    x.numeral layout = { negative := x.isNegative, whole := [0], fraction := [0] } := by
  rw [numeral, if_pos zero]

/-- A finite number is the nearest one to the numeral that it is printed as, so no two finite numbers have the same
numeral. -/
theorem numeral_nearest (layout : Layout) (finite : x.isFinite = true) : (x.numeral layout).nearest = x := by
  rcases Nat.eq_zero_or_pos x.significand with zero | positive
  · rw [numeral_of_significand_eq_zero layout zero]
    have read : ofScientific (Digit.value [0, 0]) (0 - 1) = ⟨0⟩ := rfl
    change negIf x.isNegative (ofScientific (Digit.value [0, 0]) (0 - 1)) = x
    rw [read]
    exact (eq_of_significand_eq_zero zero).symm
  · obtain ⟨isPositive, same⟩ := isPositive_negIf finite positive
    have sign : (x.numeral layout).negative = x.isNegative := rfl
    rw [Numeral.nearest_eq isPositive (same _ (nearest_numeral layout positive)), sign]
    exact negIf_negIf x.isNegative x

theorem read?_of_significand_eq_zero (layout : Layout) (zero : x.significand = 0) :
    (x.numeral layout).read? = some x := by
  have word : ({ negative := x.isNegative, whole := [0], fraction := [0] } : Numeral).coefficient < UInt64.size := by
    change Digit.value [0, 0] < UInt64.size
    decide
  have scaled : Numeral.scale? (.ofNat 0) (-1) = some ⟨0⟩ := by
    rw [Numeral.scale?]
    rfl
  rw [numeral_of_significand_eq_zero layout zero, Numeral.read?_eq word]
  change (Numeral.scale? (.ofNat 0) (-1)).map (negIf x.isNegative) = some x
  rw [scaled]
  exact congrArg some (eq_of_significand_eq_zero zero).symm

/-- A finite number that is printed with few digits is read as the same number. -/
theorem read?_numeral (layout : Layout) (finite : x.isFinite = true) (short : (x.numeral layout).Short) :
    (x.numeral layout).read? = some x := by
  rcases Nat.eq_zero_or_pos x.significand with zero | positive
  · exact read?_of_significand_eq_zero layout zero
  · obtain ⟨isPositive, same⟩ := isPositive_negIf finite positive
    have sign : (x.numeral layout).negative = x.isNegative := rfl
    rw [Numeral.read?_of_short isPositive short (same _ (nearest_numeral layout positive)), sign, negIf_negIf]

end Binary64

end AutoDiff
