import Mathlib
import AutoDiff.Proofs.UnpackedNumbers

/-!
Rounding of exact values. A calculation keeps a mantissa of its exact result and two bits about the rest; `Holds`
says which values these stand for. The number that is nearest to an exact value, which is the one in whose interval
the value lies, is what products and quotients of mantissas are rounded to.
-/

namespace AutoDiff

namespace Binary64

open Float.Model (UnpackedFloat Format)
open Float.Model.UnpackedFloat (Sign Accuracy ExtendedMantissa)

/-- A mantissa and its two bits stand for the values that lie so between the mantissa and the next one. -/
def Holds : ExtendedMantissa → ℚ → Prop
  | ⟨m, false, false⟩, q => q = m
  | ⟨m, false, true⟩, q => m < q ∧ q < m + 1 / 2
  | ⟨m, true, false⟩, q => q = m + 1 / 2
  | ⟨m, true, true⟩, q => m + 1 / 2 < q ∧ q < m + 1

/-- A value that is at most one half above a whole number and at most `below` below it. The ends of the interval
belong to even numbers. -/
def Within (below : ℚ) (n : Nat) (q : ℚ) : Prop :=
  (n - below < q ∧ q < n + 1 / 2) ∨ (Even n ∧ n - below ≤ q ∧ q ≤ n + 1 / 2)

theorem Within.bounds {below q : ℚ} {n : Nat} (within : Within below n q) : n - below ≤ q ∧ q ≤ n + 1 / 2 := by
  rcases within with ⟨lower, upper⟩ | ⟨-, bounds⟩
  · exact ⟨lower.le, upper.le⟩
  · exact bounds

theorem Within.mono {below wider q : ℚ} {n : Nat} (within : Within below n q) (le : below ≤ wider) :
    Within wider n q := by
  rcases within with ⟨lower, upper⟩ | ⟨even, lower, upper⟩
  · exact .inl ⟨by linarith, upper⟩
  · exact .inr ⟨even, by linarith, upper⟩

namespace Holds

variable {em : ExtendedMantissa} {q : ℚ}

theorem bounds (holds : Holds em q) : em.mantissa ≤ q ∧ q < em.mantissa + 1 := by
  obtain ⟨m, half, rest⟩ := em
  cases half <;> cases rest <;> simp only [Holds] at holds ⊢
  · constructor <;> linarith
  · constructor <;> linarith
  · constructor <;> linarith
  · constructor <;> linarith

theorem shiftRightOne (holds : Holds em q) : Holds em.shiftRightOne (q / 2) := by
  obtain ⟨m, half, rest⟩ := em
  rcases Nat.even_or_odd' m with ⟨k, rfl | rfl⟩
  · have quotient : 2 * k / 2 = k := by omega
    have remainder : (2 * k % 2 != 0) = false := by simp
    simp only [ExtendedMantissa.shiftRightOne, quotient, remainder]
    cases half <;> cases rest <;> simp only [Holds, Bool.or_false, Bool.or_true] at holds ⊢ <;> push_cast at holds
    · linarith
    · constructor <;> linarith
    · constructor <;> linarith
    · constructor <;> linarith
  · have quotient : (2 * k + 1) / 2 = k := by omega
    have remainder : ((2 * k + 1) % 2 != 0) = true := by simp
    simp only [ExtendedMantissa.shiftRightOne, quotient, remainder]
    cases half <;> cases rest <;> simp only [Holds, Bool.or_false, Bool.or_true] at holds ⊢ <;> push_cast at holds
    · linarith
    · constructor <;> linarith
    · constructor <;> linarith
    · constructor <;> linarith

theorem shiftRight (holds : Holds em q) (k : Nat) : Holds (em >>> k) (q / 2 ^ k) := by
  change Holds (k.repeat ExtendedMantissa.shiftRightOne em) _
  induction k with
  | zero => simpa [Nat.repeat] using holds
  | succ k ih =>
      have shifted := ih.shiftRightOne
      rwa [div_div, ← pow_succ] at shifted

theorem roundedMantissa {n : Nat} (holds : Holds em q) (within : Within (1 / 2) n q) : em.roundedMantissa = n := by
  obtain ⟨lower, upper⟩ := within.bounds
  obtain ⟨m, half, rest⟩ := em
  cases half <;> cases rest <;> simp only [Holds] at holds
  · have above : 2 * n < 2 * m + 2 := by exact_mod_cast (by linarith : (2 * n : ℚ) < 2 * m + 2)
    have under : 2 * m < 2 * n + 2 := by exact_mod_cast (by linarith : (2 * m : ℚ) < 2 * n + 2)
    change m = n
    omega
  · have above : 2 * n < 2 * m + 2 := by exact_mod_cast (by linarith : (2 * n : ℚ) < 2 * m + 2)
    have under : 2 * m < 2 * n + 1 := by exact_mod_cast (by linarith : (2 * m : ℚ) < 2 * n + 1)
    change m = n
    omega
  · -- A half goes to the even neighbour, so the interval has to have its ends.
    have even : Even n := by
      rcases within with ⟨lower, upper⟩ | ⟨even, -⟩
      · have above : n < m + 1 := by exact_mod_cast (by linarith : (n : ℚ) < m + 1)
        have under : m < n := by exact_mod_cast (by linarith : (m : ℚ) < n)
        omega
      · exact even
    have above : n ≤ m + 1 := by exact_mod_cast (by linarith : (n : ℚ) ≤ m + 1)
    have under : m ≤ n := by exact_mod_cast (by linarith : (m : ℚ) ≤ n)
    rw [Nat.even_iff] at even
    change m + m % 2 = n
    omega
  · have above : 2 * n < 2 * m + 3 := by exact_mod_cast (by linarith : (2 * n : ℚ) < 2 * m + 3)
    have under : 2 * m < 2 * n := by exact_mod_cast (by linarith : (2 * m : ℚ) < 2 * n)
    change m + 1 = n
    omega

theorem exact (m : Nat) : Holds (.ofMantissaAndAccuracy m .exact) m := rfl

theorem fraction (m : Nat) {num den : Nat} (proper : num < den) :
    Holds (.ofMantissaAndAccuracy m (UnpackedFloat.accuracyOfFraction num den)) (m + num / den) := by
  have positive : (0 : ℚ) < den := by exact_mod_cast (by omega : 0 < den)
  have under : (num : ℚ) / den < 1 := (div_lt_one positive).mpr (by exact_mod_cast proper)
  unfold UnpackedFloat.accuracyOfFraction
  split_ifs with none
  · simp [ExtendedMantissa.ofMantissaAndAccuracy, Holds, none]
  · have inexact : (0 : ℚ) < num / den := div_pos (by exact_mod_cast Nat.pos_of_ne_zero none) positive
    rcases lt_trichotomy (2 * num) den with less | equal | greater
    · have half : (num : ℚ) / den < 1 / 2 := by
        rw [div_lt_div_iff₀ positive two_pos]
        exact_mod_cast (by omega : num * 2 < 1 * den)
      rw [Nat.compare_eq_lt.mpr less]
      exact ⟨by linarith, by linarith⟩
    · have half : (num : ℚ) / den = 1 / 2 := by
        rw [div_eq_div_iff positive.ne' two_ne_zero]
        exact_mod_cast (by omega : num * 2 = 1 * den)
      rw [Nat.compare_eq_eq.mpr equal]
      exact congrArg _ half
    · have half : 1 / 2 < (num : ℚ) / den := by
        rw [div_lt_div_iff₀ two_pos positive]
        exact_mod_cast (by omega : 1 * den < num * 2)
      rw [Nat.compare_eq_gt.mpr greater]
      exact ⟨by linarith, by linarith⟩

end Holds

/-- How far the values that are rounded to a mantissa reach below it. Below a power of two the numbers are twice as
dense, except next to the subnormal ones. -/
def below (m : Nat) (e : Int) : ℚ := if m = 2 ^ 52 ∧ -1074 < e then 1 / 4 else 1 / 2

def RoundsTo (m : Nat) (e : Int) (v : ℚ) : Prop := Within (below m e) m (v / 2 ^ e)

theorem below_pos (m : Nat) (e : Int) : 0 < below m e := by
  unfold below
  split_ifs <;> norm_num

theorem below_le (m : Nat) (e : Int) : below m e ≤ 1 / 2 := by
  unfold below
  split_ifs <;> norm_num

structure IsNumber (m : Nat) (e : Int) : Prop where
  positive : 0 < m
  small : m < 2 ^ 53
  least : -1074 ≤ e
  normal : 2 ^ 52 ≤ m ∨ e = -1074

theorem IsNumber.canonical {m : Nat} {e : Int} (number : IsNumber m e) : Canonical m e :=
  canonical_of_small number.positive number.small number.least number.normal

section

variable {m M : Nat} {e E : Int} {accuracy : Accuracy} {q : ℚ}

def roundingExponent (m : Nat) (e : Int) : Int :=
  Format.binary64.targetExponent (Float.Model.totalExponent m e)

theorem roundingExponent_eq (m : Nat) (e : Int) : roundingExponent m e = max (m.log2 + e - 52) (-1074) := by
  change max ((m.log2 : Int) + 1 + e - (53 : Nat)) (-1074) = max (m.log2 + e - 52) (-1074)
  omega

theorem two_zpow_pos (e : Int) : (0 : ℚ) < 2 ^ e := zpow_pos two_pos e

theorem two_zpow_add (a b : Int) : (2 : ℚ) ^ (a + b) = 2 ^ a * 2 ^ b := zpow_add₀ two_ne_zero a b

theorem two_zpow_add_nat (e : Int) (k : Nat) : (2 : ℚ) ^ (e + k) = 2 ^ e * 2 ^ k := by
  rw [two_zpow_add, zpow_natCast]

theorem two_zpow_mono {a b : Int} (le : a ≤ b) : (2 : ℚ) ^ a ≤ 2 ^ b := zpow_le_zpow_right₀ one_le_two le

theorem lt_two_zpow (bounds : q < m + 1) : q * 2 ^ e < 2 ^ (m.log2 + 1 + e) := by
  have mantissa : (m : ℚ) + 1 ≤ 2 ^ (m.log2 + 1) := by exact_mod_cast Nat.lt_log2_self
  have split : (2 : ℚ) ^ (m.log2 + 1 + e) = 2 ^ (m.log2 + 1) * 2 ^ e := by
    rw [two_zpow_add]
    norm_cast
  rw [split]
  exact mul_lt_mul_of_pos_right (by linarith) (two_zpow_pos e)

theorem two_zpow_le (positive : m ≠ 0) (bounds : m ≤ q) : 2 ^ (m.log2 + e) ≤ q * 2 ^ e := by
  have mantissa : (2 : ℚ) ^ m.log2 ≤ m := by exact_mod_cast Nat.log2_self_le positive
  rw [two_zpow_add, zpow_natCast]
  exact mul_le_mul_of_nonneg_right (by linarith) (two_zpow_pos e).le

/-- A value is rounded at the exponent of its nearest number, or one below it if the number is a power of two and
the value is less. -/
theorem roundingExponent_cases (number : IsNumber M E) (bounds : m ≤ q ∧ q < m + 1) (fits : e ≤ roundingExponent m e)
    (rounds : RoundsTo M E (q * 2 ^ e)) : roundingExponent m e = E ∨
      (roundingExponent m e = E - 1 ∧ M = 2 ^ 52 ∧ -1074 < E ∧ q * 2 ^ e < 2 ^ 52 * 2 ^ E) := by
  obtain ⟨positive, small, least, normal⟩ := number
  rw [roundingExponent_eq] at fits ⊢
  have reach := below_le M E
  obtain ⟨lower, upper⟩ := rounds.bounds
  rw [le_div_iff₀ (two_zpow_pos E)] at lower
  rw [div_le_iff₀ (two_zpow_pos E)] at upper
  have above : ¬E < max (m.log2 + e - 52) (-1074) := by
    intro less
    have nonzero : m ≠ 0 := by
      rintro rfl
      simp at fits less
      omega
    have large : 2 ^ (m.log2 + e) ≤ q * 2 ^ e := two_zpow_le nonzero bounds.1
    have power : (2 : ℚ) ^ E * 2 ^ 53 ≤ 2 ^ (m.log2 + e) := by
      rw [← two_zpow_add_nat]
      exact two_zpow_mono (by omega)
    have mantissa : (M : ℚ) + 1 ≤ 2 ^ 53 := by exact_mod_cast small
    nlinarith [two_zpow_pos E]
  by_cases same : max (m.log2 + e - 52) (-1074) = E
  · exact .inl same
  · have mantissa : (2 : ℚ) ^ 52 ≤ M := by exact_mod_cast normal.resolve_right (by omega)
    have tiny : q * 2 ^ e < 2 ^ (m.log2 + 1 + e) := lt_two_zpow bounds.2
    have next : max (m.log2 + e - 52) (-1074) = E - 1 := by
      by_contra other
      have power : (2 : ℚ) ^ (m.log2 + 1 + e) ≤ 2 ^ (E - 2 + 53) := two_zpow_mono (by omega)
      rw [show E - 2 + 53 = E + (51 : Nat) by omega, two_zpow_add_nat] at power
      nlinarith [two_zpow_pos E]
    have power : (2 : ℚ) ^ (m.log2 + 1 + e) ≤ 2 ^ (E - 1 + 53) := two_zpow_mono (by omega)
    rw [show E - 1 + 53 = E + (52 : Nat) by omega, two_zpow_add_nat, mul_comm] at power
    have value : q * 2 ^ e < 2 ^ 52 * 2 ^ E := tiny.trans_le power
    have bound : (M : ℚ) < 2 ^ 52 + 1 := by
      have less : (M - below M E) * 2 ^ E < 2 ^ 52 * 2 ^ E := lower.trans_lt value
      have := lt_of_mul_lt_mul_right less (two_zpow_pos E).le
      linarith
    have least : M < 2 ^ 52 + 1 := by exact_mod_cast bound
    have most : 2 ^ 52 ≤ M := by exact_mod_cast mantissa
    exact .inr ⟨next, by omega, by omega, value⟩

theorem exists_within (number : IsNumber M E) (bounds : m ≤ q ∧ q < m + 1) {k : Nat}
    (shift : roundingExponent m e = e + k) (rounds : RoundsTo M E (q * 2 ^ e)) :
    ∃ j : Nat, Within (1 / 2) (2 ^ j * M) (q / 2 ^ k) ∧ e + k = E - j := by
  have fits : e ≤ roundingExponent m e := by omega
  rcases roundingExponent_cases number bounds fits rounds with same | ⟨next, rfl, normal, less⟩
  · have exponent : E = e + k := by omega
    have kept : q * 2 ^ e / 2 ^ E = q / 2 ^ k := by
      rw [exponent, two_zpow_add_nat, mul_comm, mul_div_mul_left _ _ (two_zpow_pos e).ne']
    refine ⟨0, ?_, by omega⟩
    have within := rounds.mono (below_le M E)
    rwa [kept, ← Nat.one_mul M, ← Nat.pow_zero 2] at within
  · have exponent : E = e + (k + 1 : Nat) := by omega
    have kept : q / 2 ^ k = 2 * (q * 2 ^ e / 2 ^ E) := by
      rw [exponent, two_zpow_add_nat, mul_comm q, mul_div_mul_left _ _ (two_zpow_pos e).ne', pow_succ]
      field_simp
    have upper : q * 2 ^ e / 2 ^ E < 2 ^ 52 := (div_lt_iff₀ (two_zpow_pos E)).mpr less
    have lower := rounds.bounds.1
    rw [below, if_pos ⟨rfl, normal⟩] at lower
    push_cast at lower
    refine ⟨1, .inr ⟨by decide, ?_, ?_⟩, by omega⟩
    · rw [kept]
      push_cast
      linarith
    · rw [kept]
      push_cast
      linarith

theorem round_eq (sign : Sign) (number : IsNumber M E) (holds : Holds (.ofMantissaAndAccuracy m accuracy) q)
    (fits : e ≤ roundingExponent m e) (rounds : RoundsTo M E (q * 2 ^ e)) :
    UnpackedFloat.roundWithAccuracy Format.binary64 sign m e accuracy = .finite sign M E number.positive := by
  have mantissa : (ExtendedMantissa.ofMantissaAndAccuracy m accuracy).mantissa = m := by
    rcases accuracy with - | order
    · rfl
    · cases order <;> rfl
  have bounds := holds.bounds
  rw [mantissa] at bounds
  obtain ⟨k, shift⟩ : ∃ k : Nat, roundingExponent m e = e + k := ⟨(roundingExponent m e - e).toNat, by omega⟩
  obtain ⟨j, within, exponent⟩ := exists_within number bounds shift rounds
  have first : UnpackedFloat.shiftToTargetExponent Format.binary64 m e accuracy =
      ((ExtendedMantissa.ofMantissaAndAccuracy m accuracy) >>> k, E - (j : Int)) := by
    rw [UnpackedFloat.shiftToTargetExponent, UnpackedFloat.shiftToExponent, ← roundingExponent, shift,
      add_sub_cancel_left, Int.toNat_natCast, exponent]
  have rounded := (holds.shiftRight k).roundedMantissa within
  have second := shift_canonical number.positive number.canonical j
  simp [UnpackedFloat.roundWithAccuracy, first, rounded, second, number.positive.ne']

end

section

variable {M : Nat} {E : Int}

theorem mul_finite (number : IsNumber M E) {s₁ s₂ : Sign} {m₁ m₂ : Nat} {e₁ e₂ : Int} {p₁ : 0 < m₁} {p₂ : 0 < m₂}
    (fits : 2 ^ 52 ≤ m₁ * m₂ ∨ e₁ + e₂ ≤ -1074) (rounds : RoundsTo M E (m₁ * 2 ^ e₁ * (m₂ * 2 ^ e₂))) :
    UnpackedFloat.mul Format.binary64 (.finite s₁ m₁ e₁ p₁) (.finite s₂ m₂ e₂ p₂) =
      .finite (s₁ * s₂) M E number.positive := by
  have product : (m₁ * 2 ^ e₁ * (m₂ * 2 ^ e₂) : ℚ) = (m₁ * m₂ : Nat) * 2 ^ (e₁ + e₂) := by
    rw [two_zpow_add]
    push_cast
    ring
  rw [product] at rounds
  have enough : e₁ + e₂ ≤ roundingExponent (m₁ * m₂) (e₁ + e₂) := by
    rw [roundingExponent_eq]
    rcases fits with large | tiny
    · have digits : 52 ≤ (m₁ * m₂).log2 := (Nat.le_log2 (by positivity)).mpr large
      omega
    · omega
  exact round_eq (s₁ * s₂) number (Holds.exact _) enough rounds

theorem quotient_fits {m₁ m₂ : Nat} (p₁ : 0 < m₁) (p₂ : 0 < m₂) {e : Int} {e₁ e₂ : Int} {s : Nat}
    (shift : e₁ - e₂ = e + s) (least : e ≤ Format.binary64.targetExponent
      (Float.Model.totalExponent m₁ e₁ - Float.Model.totalExponent m₂ e₂)) :
    e ≤ roundingExponent (m₁ * 2 ^ s / m₂) e := by
  change e ≤ max ((m₁.log2 : Int) + 1 + e₁ - (m₂.log2 + 1 + e₂) - (53 : Nat)) (-1074) at least
  rw [roundingExponent_eq]
  by_cases tiny : e ≤ -1074
  · omega
  · have logs : m₂.log2 + 1 + 52 ≤ m₁.log2 + s := by omega
    have large : 2 ^ 52 * m₂ ≤ m₁ * 2 ^ s := calc
      2 ^ 52 * m₂ ≤ 2 ^ 52 * 2 ^ (m₂.log2 + 1) := Nat.mul_le_mul_left _ Nat.lt_log2_self.le
      _ = 2 ^ (m₂.log2 + 1 + 52) := by rw [← Nat.pow_add, Nat.add_comm]
      _ ≤ 2 ^ (m₁.log2 + s) := Nat.pow_le_pow_right two_pos logs
      _ = 2 ^ m₁.log2 * 2 ^ s := Nat.pow_add ..
      _ ≤ m₁ * 2 ^ s := Nat.mul_le_mul_right _ (Nat.log2_self_le p₁.ne')
    have quotient : 2 ^ 52 ≤ m₁ * 2 ^ s / m₂ := (Nat.le_div_iff_mul_le p₂).mpr large
    have digits : 52 ≤ (m₁ * 2 ^ s / m₂).log2 := (Nat.le_log2 (by omega)).mpr quotient
    omega

theorem div_finite (number : IsNumber M E) {s₁ s₂ : Sign} {m₁ m₂ : Nat} {e₁ e₂ : Int} {p₁ : 0 < m₁} {p₂ : 0 < m₂}
    (rounds : RoundsTo M E (m₁ * 2 ^ e₁ / (m₂ * 2 ^ e₂))) :
    UnpackedFloat.div Format.binary64 (.finite s₁ m₁ e₁ p₁) (.finite s₂ m₂ e₂ p₂) =
      .finite (s₁ / s₂) M E number.positive := by
  let target := Format.binary64.targetExponent (Float.Model.totalExponent m₁ e₁ - Float.Model.totalExponent m₂ e₂)
  obtain ⟨s, shift⟩ : ∃ s : Nat, e₁ - e₂ = min (e₁ - e₂) target + s :=
    ⟨(e₁ - e₂ - min (e₁ - e₂) target).toNat, by omega⟩
  have enough := quotient_fits p₁ p₂ shift (min_le_right _ _)
  have divided : UnpackedFloat.divCore Format.binary64 m₁ e₁ m₂ e₂ = (m₁ * 2 ^ s / m₂, min (e₁ - e₂) target,
      UnpackedFloat.accuracyOfFraction (m₁ * 2 ^ s % m₂) m₂) := by
    have amount : (e₁ - e₂ - min (e₁ - e₂) target).toNat = s := by omega
    simp only [UnpackedFloat.divCore, ← Nat.shiftLeft_eq, ← amount]
    rfl
  have value : (m₁ * 2 ^ e₁ / (m₂ * 2 ^ e₂) : ℚ) =
      ((m₁ * 2 ^ s / m₂ : Nat) + (m₁ * 2 ^ s % m₂ : Nat) / m₂) * 2 ^ min (e₁ - e₂) target := by
    have parts : (m₂ : ℚ) * (m₁ * 2 ^ s / m₂ : Nat) + (m₁ * 2 ^ s % m₂ : Nat) = m₁ * 2 ^ s := by
      exact_mod_cast Nat.div_add_mod (m₁ * 2 ^ s) m₂
    have power : (2 : ℚ) ^ e₁ = 2 ^ min (e₁ - e₂) target * 2 ^ s * 2 ^ e₂ := by
      rw [← two_zpow_add_nat, ← shift, ← two_zpow_add, Int.sub_add_cancel]
    have divisor : (m₂ : ℚ) ≠ 0 := by exact_mod_cast p₂.ne'
    rw [power]
    field_simp
    linear_combination -parts
  rw [value] at rounds
  have rounded := round_eq (s₁ / s₂) number (Holds.fraction _ (Nat.mod_lt _ p₂)) enough rounds
  rw [← rounded, UnpackedFloat.div, divided]

end

theorem exists_within_half {y : ℚ} (nonneg : 0 ≤ y) : ∃ m : Nat, Within (1 / 2) m y := by
  have lower := Nat.floor_le nonneg
  have upper := Nat.lt_floor_add_one y
  rcases lt_trichotomy y (⌊y⌋₊ + 1 / 2) with less | half | greater
  · exact ⟨⌊y⌋₊, .inl ⟨by linarith, less⟩⟩
  · rcases Nat.even_or_odd ⌊y⌋₊ with even | odd
    · exact ⟨⌊y⌋₊, .inr ⟨even, by linarith, half.le⟩⟩
    · refine ⟨⌊y⌋₊ + 1, .inr ⟨odd.add_one, ?_, ?_⟩⟩ <;> push_cast <;> linarith
  · refine ⟨⌊y⌋₊ + 1, .inl ⟨?_, ?_⟩⟩ <;> push_cast <;> linarith

theorem exists_place {v : ℚ} (positive : 0 < v) : ∃ e : Int, -1074 ≤ e ∧ v < 2 ^ e * 2 ^ 53 ∧
    (e = -1074 ∨ 2 ^ e * 2 ^ 52 ≤ v) := by
  have lower := Int.zpow_log_le_self (b := 2) one_lt_two positive
  have upper := Int.lt_zpow_succ_log_self (b := 2) one_lt_two v
  generalize Int.log 2 v = l at lower upper
  rw [Nat.cast_ofNat] at lower upper
  refine ⟨max (l - 52) (-1074), by omega, ?_, ?_⟩
  · rw [← two_zpow_add_nat]
    exact upper.trans_le (two_zpow_mono (by omega))
  · by_cases tiny : max (l - 52) (-1074) = -1074
    · exact .inl tiny
    · right
      rw [← two_zpow_add_nat]
      exact (two_zpow_mono (by omega)).trans lower

section

variable {v : ℚ} {m : Nat} {e : Int}

theorem roundsTo_of_carry (least : -1074 ≤ e) (down : (2 ^ 53 - 1 / 2) * 2 ^ e ≤ v) (upper : v < 2 ^ e * 2 ^ 53) :
    IsNumber (2 ^ 52) (e + 1) ∧ RoundsTo (2 ^ 52) (e + 1) v := by
  have next : (2 : ℚ) ^ (e + 1) = 2 * 2 ^ e := by rw [two_zpow_add, zpow_one, mul_comm]
  refine ⟨⟨by decide, by decide, by omega, .inl le_rfl⟩, ?_⟩
  rw [RoundsTo, below, if_pos ⟨rfl, by omega⟩]
  refine .inr ⟨by decide, ?_, ?_⟩
  · rw [le_div_iff₀ (two_zpow_pos _), next]
    push_cast
    linarith
  · rw [div_le_iff₀ (two_zpow_pos _), next]
    push_cast
    linarith

theorem roundsTo_of_within (lower : e = -1074 ∨ 2 ^ e * 2 ^ 52 ≤ v)
    (within : Within (1 / 2) m (v / 2 ^ e)) : RoundsTo m e v := by
  have place := two_zpow_pos e
  unfold RoundsTo below
  split_ifs with power
  · obtain ⟨rfl, above⟩ := power
    have large := lower.resolve_left (by omega)
    refine .inr ⟨by decide, ?_, within.bounds.2⟩
    rw [le_div_iff₀ place]
    push_cast
    linarith
  · exact within

theorem isNumber_of_within (least : 2 ^ (-1074 : Int) ≤ v) (small : -1074 ≤ e) (upper : v < 2 ^ e * 2 ^ 53)
    (lower : e = -1074 ∨ 2 ^ e * 2 ^ 52 ≤ v) (within : Within (1 / 2) m (v / 2 ^ e)) :
    IsNumber m e ∨ m = 2 ^ 53 := by
  have place := two_zpow_pos e
  obtain ⟨down, up⟩ := within.bounds
  rw [le_div_iff₀ place] at down
  rw [div_le_iff₀ place] at up
  have some : 0 < m := by
    apply Nat.pos_of_ne_zero
    rintro rfl
    rw [Nat.cast_zero, zero_add] at up
    rcases lower with rfl | large
    · linarith
    · linarith
  have bound : m ≤ 2 ^ 53 := by
    have less : ((m : ℚ) - 1 / 2) * 2 ^ e < 2 ^ 53 * 2 ^ e := by linarith
    have mantissa := lt_of_mul_lt_mul_right less place.le
    have whole : (m : ℚ) < (2 ^ 53 + 1 : Nat) := by
      push_cast
      linarith
    exact Nat.lt_succ_iff.mp (by exact_mod_cast whole)
  have normal : 2 ^ 52 ≤ m ∨ e = -1074 := by
    rcases lower with subnormal | large
    · exact .inr subnormal
    · have less : (2 : ℚ) ^ 52 * 2 ^ e ≤ (m + 1 / 2) * 2 ^ e := by linarith
      have mantissa := le_of_mul_le_mul_right less place
      have whole : ((2 ^ 52 : Nat) : ℚ) < (m + 1 : Nat) := by
        push_cast
        linarith
      exact .inl (Nat.lt_succ_iff.mp (by exact_mod_cast whole))
  rcases Nat.lt_or_eq_of_le bound with less | carry
  · exact .inl ⟨some, less, small, normal⟩
  · exact .inr carry

theorem lastPlace_le (most : v < (2 ^ 53 - 1 / 2) * 2 ^ (971 : Int)) (lower : e = -1074 ∨ 2 ^ e * 2 ^ 52 ≤ v) :
    e ≤ 971 := by
  rcases lower with subnormal | large
  · omega
  · have less : (2 : ℚ) ^ (e + (52 : Nat)) < 2 ^ (971 + (53 : Nat) : Int) := by
      rw [two_zpow_add_nat, two_zpow_add_nat]
      have wider : ((2 ^ 53 - 1 / 2) * 2 ^ (971 : Int) : ℚ) ≤ 2 ^ (971 : Int) * 2 ^ 53 := by
        rw [mul_comm]
        exact mul_le_mul_of_nonneg_left (by norm_num) (two_zpow_pos 971).le
      exact large.trans_lt (most.trans_le wider)
    have := (zpow_lt_zpow_iff_right₀ one_lt_two).mp less
    omega

theorem exists_roundsTo (least : 2 ^ (-1074 : Int) ≤ v) (most : v < (2 ^ 53 - 1 / 2) * 2 ^ (971 : Int)) :
    ∃ m e, IsNumber m e ∧ e ≤ 971 ∧ RoundsTo m e v := by
  have positive : 0 < v := (two_zpow_pos _).trans_le least
  obtain ⟨e, small, upper, lower⟩ := exists_place positive
  have place := two_zpow_pos e
  obtain ⟨m, within⟩ := exists_within_half (div_nonneg positive.le place.le)
  rcases isNumber_of_within least small upper lower within with number | rfl
  · exact ⟨m, e, number, lastPlace_le most lower, roundsTo_of_within lower within⟩
  · have down := within.bounds.1
    rw [le_div_iff₀ place] at down
    push_cast at down
    obtain ⟨number, rounds⟩ := roundsTo_of_carry small down upper
    have less : (2 : ℚ) ^ e < 2 ^ (971 : Int) := lt_of_mul_lt_mul_left (down.trans_lt most) (by norm_num)
    have range : e < 971 := (zpow_lt_zpow_iff_right₀ one_lt_two).mp less
    exact ⟨2 ^ 52, e + 1, number, by omega, rounds⟩

end

end Binary64

end AutoDiff
