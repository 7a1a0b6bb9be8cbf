import AutoDiff.Proofs.ExtendedRational
import AutoDiff.Proofs.NumberLaws

namespace AutoDiff

open NumberKinds

namespace ExtendedRational

instance : NumberKinds ExtendedRational where
  isFinite := isFinite
  isZero x := x.isFinite && x.value = 0
  isNaN x := x = nan

variable {x y : ExtendedRational}

theorem isZero_iff : isZero x = true ↔ x.isFinite = true ∧ x.value = 0 := by
  simp [isZero]

/-- Finite numbers are the same but for the sign of a zero if they have the same value. -/
theorem near_of_value_eq (first : x.isFinite = true) (second : y.isFinite = true) (same : x.value = y.value) :
    Near x y := by
  cases x with
  | nan | infinity => cases first
  | negativeZero =>
      cases y with
      | nan | infinity => cases second
      | negativeZero => exact .refl _
      | number q => exact .inr ⟨rfl, isZero_iff.mpr ⟨rfl, same.symm⟩⟩
  | number p =>
      cases y with
      | nan | infinity => cases second
      | negativeZero => exact .inr ⟨isZero_iff.mpr ⟨rfl, same⟩, rfl⟩
      | number q => exact .inl (congrArg number same)

theorem eq_of_isZero (zero : isZero x = true) : x = negativeZero ∨ x = number 0 := by
  obtain ⟨finite, same⟩ := isZero_iff.mp zero
  cases x with
  | nan | infinity => cases finite
  | negativeZero => exact .inl rfl
  | number q => exact .inr (congrArg number same)

theorem eq_nan_of_isNaN (none : NumberKinds.isNaN x = true) : x = nan := of_decide_eq_true none

theorem nan_or_infinity_or_isFinite (x : ExtendedRational) :
    x = nan ∨ (∃ negative, x = infinity negative) ∨ x.isFinite = true := by
  cases x with
  | nan => exact .inl rfl
  | infinity negative => exact .inr (.inl ⟨negative, rfl⟩)
  | negativeZero | number => exact .inr (.inr rfl)

protected theorem add_comm (x y : ExtendedRational) : x.add y = y.add x := by
  rcases x.nan_or_infinity_or_isFinite with rfl | ⟨m, rfl⟩ | left
  · cases y <;> rfl
  · rcases y.nan_or_infinity_or_isFinite with rfl | ⟨n, rfl⟩ | right
    · rfl
    · by_cases same : m = n
      · simp [add, same]
      · simp [add, same, Ne.symm same]
    · cases y <;> first | rfl | cases right
  · rcases y.nan_or_infinity_or_isFinite with rfl | ⟨n, rfl⟩ | right
    · cases x <;> rfl
    · cases x <;> first | rfl | cases left
    · rw [add_of_finite left right, add_of_finite right left, Bool.and_comm, add_comm]

protected theorem mul_comm (x y : ExtendedRational) : x.mul y = y.mul x := by
  simp [mul, mul_comm, or_comm, and_comm, Bool.xor_comm]

theorem signed_self (finite : x.isFinite = true) : signed x.isNegative x.value = x := by
  cases x with
  | nan | infinity => cases finite
  | negativeZero => rfl
  | number q =>
      by_cases negative : q < 0
      · simp [signed, isNegative, value, negative, negative.ne]
      · simp [signed, isNegative, value, negative]

theorem neg_neg (x : ExtendedRational) : x.neg.neg = x := by
  cases x with
  | nan => rfl
  | infinity negative => simp [neg]
  | negativeZero => rfl
  | number q =>
      by_cases zero : q = 0
      · subst zero
        rfl
      · simp [neg, signed, isNegative, value, zero]

theorem add_of_isZero (x : ExtendedRational) {c : ExtendedRational} (zero : NumberKinds.isZero c = true) :
    Agree (x.add c) x := by
  obtain ⟨finite, same⟩ := isZero_iff.mp zero
  rcases x.nan_or_infinity_or_isFinite with rfl | ⟨negative, rfl⟩ | left
  · exact .inl (.inl rfl)
  · rcases eq_of_isZero zero with rfl | rfl <;> exact .inl (.inl rfl)
  · refine Near.agree (near_of_value_eq (isFinite_add left finite) left ?_)
    rw [value_add left finite, same, add_zero]

theorem isZero_neg (zero : NumberKinds.isZero x = true) : NumberKinds.isZero x.neg = true := by
  obtain ⟨finite, same⟩ := isZero_iff.mp zero
  exact isZero_iff.mpr ⟨isFinite_neg finite, by rw [value_neg finite, same, neg_zero]⟩

theorem isNegative_one : (number 1).isNegative = false := by
  norm_num [isNegative]

theorem isNegative_minus_one : (number (-1)).isNegative = true := by
  norm_num [isNegative]

protected theorem one_mul (x : ExtendedRational) : (number 1).mul x = x := by
  rcases x.nan_or_infinity_or_isFinite with rfl | ⟨negative, rfl⟩ | finite
  · rfl
  · cases negative <;> rfl
  · rw [mul_of_finite rfl finite, isNegative_one, Bool.false_xor]
    exact (congrArg _ (one_mul x.value)).trans (signed_self finite)

theorem minus_mul (x : ExtendedRational) : (number (-1)).mul x = x.neg := by
  rcases x.nan_or_infinity_or_isFinite with rfl | ⟨negative, rfl⟩ | finite
  · rfl
  · cases negative <;> rfl
  · rw [mul_of_finite rfl finite, neg_of_finite finite, isNegative_minus_one, Bool.true_xor]
    exact congrArg _ (neg_one_mul x.value)

protected theorem div_one (x : ExtendedRational) : x.div (number 1) = x := by
  rcases x.nan_or_infinity_or_isFinite with rfl | ⟨negative, rfl⟩ | finite
  · rfl
  · cases negative <;> rfl
  · rw [div_of_finite finite rfl, if_pos (show (number 1).value ≠ 0 from one_ne_zero), isNegative_one, Bool.xor_false]
    exact (congrArg _ (div_one x.value)).trans (signed_self finite)

theorem power_one (x : ExtendedRational) : x.power 1 = x := by
  rcases x.nan_or_infinity_or_isFinite with rfl | ⟨negative, rfl⟩ | finite
  · rfl
  · cases negative <;> rfl
  · rw [power_of_finite finite]
    simpa using signed_self finite

instance : SpecialLaws ExtendedRational where
  isFinite_of_isZero x zero := (isZero_iff.mp zero).1
  isNaN_of_isFinite x finite := decide_eq_false (ne_nan finite)
  equal_zero_iff c := by
    rw [isZero_iff]
    cases c with
    | nan | infinity => simp [Arithmetic.equal, equal, isFinite]
    | negativeZero => simp [Arithmetic.equal, equal, isFinite, value, Arithmetic.ofInt]
    | number q => exact ⟨fun same => ⟨rfl, of_decide_eq_true same⟩, fun both => decide_eq_true both.2⟩
  eq_of_equal c n unit same := by
    have nonzero : (n : ℚ) ≠ 0 := by rcases unit with rfl | rfl <;> norm_num
    cases c with
    | nan | infinity => cases same
    | negativeZero => exact absurd (of_decide_eq_true same).symm nonzero
    | number q => exact congrArg number (of_decide_eq_true same)
  isZero_unit n unit := by
    rcases unit with rfl | rfl <;> rfl
  nan_unary op x y first second := by
    obtain rfl := eq_nan_of_isNaN first
    obtain rfl := eq_nan_of_isNaN second
    exact .refl _
  nan_left op x y z first second := by
    obtain rfl := eq_nan_of_isNaN first
    obtain rfl := eq_nan_of_isNaN second
    exact .refl _
  nan_right op x y z first second := by
    obtain rfl := eq_nan_of_isNaN first
    obtain rfl := eq_nan_of_isNaN second
    exact .refl _
  nan_power n x y first second := by
    obtain rfl := eq_nan_of_isNaN first
    obtain rfl := eq_nan_of_isNaN second
    exact .refl _
  comm op x y commutes := by
    cases op with
    | add => exact .inl (x.add_comm y)
    | mul => exact .inl (x.mul_comm y)
    | sub | div | pow => cases commutes
  add_zero x c zero := add_of_isZero x zero
  sub_zero x c zero := add_of_isZero x (isZero_neg zero)
  zero_sub c x zero := by
    have swapped := add_of_isZero x.neg zero
    rwa [ExtendedRational.add_comm] at swapped
  neg_neg x := .inl (neg_neg x)
  zero_mul c x zero finite := by
    obtain ⟨left, same⟩ := isZero_iff.mp zero
    refine isZero_iff.mpr ⟨isFinite_mul left finite, (value_mul left finite).trans ?_⟩
    rw [same, MulZeroClass.zero_mul]
  one_mul x := .inl x.one_mul
  minus_mul x := .inl (minus_mul x)
  zero_div c x zero nonzero number := by
    obtain ⟨left, same⟩ := isZero_iff.mp zero
    rcases x.nan_or_infinity_or_isFinite with rfl | ⟨negative, rfl⟩ | finite
    · cases number
    · rcases eq_of_isZero zero with rfl | rfl <;> cases negative <;> rfl
    · have denominator : x.value ≠ 0 := fun none => by
        rw [isZero_iff.mpr ⟨finite, none⟩] at nonzero
        cases nonzero
      have result := (isFinite_div_iff left finite).mpr denominator
      refine isZero_iff.mpr ⟨result, (value_div left finite result).trans ?_⟩
      rw [same, zero_div]
  div_one x := .inl x.div_one
  pow_zero x c zero := by
    rcases eq_of_isZero zero with rfl | rfl <;> exact .inl rfl
  pow_one x := .inl (power_one x)
  power_zero x := .inl rfl
  power_one x := .inl (power_one x)

theorem near_power {n : ℤ} (first : NumberKinds.isZero x = true) (second : NumberKinds.isZero y = true)
    (finite : (x.power n).isFinite = true) : Near (x.power n) (y.power n) := by
  obtain ⟨base, value⟩ := isZero_iff.mp first
  obtain ⟨also, same⟩ := isZero_iff.mp second
  have upward := (isFinite_power_iff base n).mp finite
  have finiteToo : (y.power n).isFinite = true := by
    rw [isFinite_power_iff also n]
    exact fun pole => upward ⟨value, pole.2⟩
  refine near_of_value_eq finite finiteToo ?_
  rw [value_power base finite, value_power also finiteToo, value, same]

instance : ZeroLaws ExtendedRational where
  isZero_ofInt := rfl
  near_of_equal c n same := by
    cases c with
    | nan | infinity => cases same
    | negativeZero | number => exact near_of_value_eq rfl rfl (of_decide_eq_true same)
  zero_unary op x y first second := by
    by_cases negated : op = .neg
    · subst negated
      exact .inr ⟨isZero_neg first, isZero_neg second⟩
    · simpa [Arithmetic.unary, negated] using (Near.agree (.inr ⟨first, second⟩) : Agree x y)
  mul_special c x zero special := by
    rcases x.nan_or_infinity_or_isFinite with rfl | ⟨negative, rfl⟩ | finite
    · rcases eq_of_isZero zero with rfl | rfl <;> rfl
    · rcases eq_of_isZero zero with rfl | rfl <;> rfl
    · exact absurd (finite.symm.trans special) (by simp)
  div_special c x zero special := by
    rcases special with none | none
    · rcases eq_of_isZero zero with rfl | rfl <;> rcases eq_of_isZero none with rfl | rfl <;> rfl
    · obtain rfl := eq_nan_of_isNaN none
      rcases eq_of_isZero zero with rfl | rfl <;> rfl
  div_zero x c zero := by
    obtain ⟨right, value⟩ := isZero_iff.mp zero
    rcases x.nan_or_infinity_or_isFinite with rfl | ⟨negative, rfl⟩ | finite
    · rfl
    · rcases eq_of_isZero zero with rfl | rfl <;> rfl
    · exact Bool.eq_false_iff.mpr fun result => (isFinite_div_iff finite right).mp result value
  zero_pow x y z first second finite := by
    cases exponent : z.isFinite with
    | false =>
        have none : Arithmetic.binary .pow x z = nan := if_neg (by simp [exponent])
        rw [none] at finite
        cases finite
    | true =>
        have power (b : ExtendedRational) : Arithmetic.binary .pow b z = b.power z.value.num := if_pos exponent
        rw [power] at finite
        rw [power, power]
        exact near_power first second finite
  zero_power _ _ _ first second finite := near_power first second finite
  zero_power_nonneg n x y first second upward := by
    refine Near.agree (near_power first second ((isFinite_power_iff (isZero_iff.mp first).1 _).mpr ?_))
    exact fun pole => absurd pole.2 (not_lt.mpr upward)

end ExtendedRational

end AutoDiff
