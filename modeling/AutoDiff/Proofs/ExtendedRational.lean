import AutoDiff.Proofs.ExtendedArithmetic
import AutoDiff.Proofs.KernelValues

/-!
Rational numbers with a negative zero, infinities and a NaN. The operations of the field and the powers are
those of floating-point numbers but for rounding; as for the rational numbers themselves, the identity stands
in place of roots and transcendental functions.
-/

namespace AutoDiff

/-- Zero as a rational number is the positive zero. -/
inductive ExtendedRational where
  | nan
  | infinity (negative : Bool)
  | negativeZero
  | number (value : ℚ)
  deriving DecidableEq

namespace ExtendedRational

def isFinite : ExtendedRational → Bool
  | nan | infinity _ => false
  | negativeZero | number _ => true

def value : ExtendedRational → ℚ
  | number q => q
  | nan | infinity _ | negativeZero => 0

def isNegative : ExtendedRational → Bool
  | nan => false
  | infinity negative => negative
  | negativeZero => true
  | number q => q < 0

/-- A number with the sign that it has if it is a zero. -/
def signed (negative : Bool) (q : ℚ) : ExtendedRational :=
  if negative ∧ q = 0 then negativeZero else number q

def neg : ExtendedRational → ExtendedRational
  | nan => nan
  | infinity negative => infinity !negative
  | x => signed (!x.isNegative) (-x.value)

def add : ExtendedRational → ExtendedRational → ExtendedRational
  | nan, _ | _, nan => nan
  | infinity m, infinity n => if m = n then infinity m else nan
  | infinity m, _ | _, infinity m => infinity m
  | x, y => signed (x.isNegative && y.isNegative) (x.value + y.value)

def mul (x y : ExtendedRational) : ExtendedRational :=
  if x = nan ∨ y = nan then nan
  else if x.isFinite ∧ y.isFinite then signed (x.isNegative ^^ y.isNegative) (x.value * y.value)
  else if x.isFinite ∧ x.value = 0 ∨ y.isFinite ∧ y.value = 0 then nan
  else infinity (x.isNegative ^^ y.isNegative)

def div (x y : ExtendedRational) : ExtendedRational :=
  if x = nan ∨ y = nan then nan
  else if y.isFinite then
    if x.isFinite then
      if y.value ≠ 0 then signed (x.isNegative ^^ y.isNegative) (x.value / y.value)
      else if x.value = 0 then nan else infinity (x.isNegative ^^ y.isNegative)
    else infinity (x.isNegative ^^ y.isNegative)
  else if x.isFinite then signed (x.isNegative ^^ y.isNegative) 0
  else nan

def power (x : ExtendedRational) (n : ℤ) : ExtendedRational :=
  if n = 0 then number 1
  else if x = nan then nan
  else if x.isFinite then
    if x.value = 0 ∧ n < 0 then infinity (x.isNegative && n % 2 = 1)
    else signed (x.isNegative && n % 2 = 1) (x.value ^ n)
  else if 0 < n then infinity (x.isNegative && n % 2 = 1)
  else signed (x.isNegative && n % 2 = 1) 0

def equal (x y : ExtendedRational) : Bool :=
  match x, y with
  | nan, _ | _, nan => false
  | infinity m, infinity n => m == n
  | infinity _, _ | _, infinity _ => false
  | x, y => x.value = y.value

instance : Arithmetic ExtendedRational where
  ofInt n := number n
  unary op x := if op = .neg then x.neg else x
  binary
    | .add, x, y => x.add y
    | .sub, x, y => x.add y.neg
    | .mul, x, y => x.mul y
    | .div, x, y => x.div y
    | .pow, x, y => if y.isFinite then x.power y.value.num else nan
  power x n := x.power n.toInt
  equal := equal
  isPositive x := x.isFinite && 0 < x.value || x = infinity false

section

variable {x y : ExtendedRational}

@[simp] theorem value_signed (negative : Bool) (q : ℚ) : (signed negative q).value = q := by
  unfold signed
  split
  · next zero => exact zero.2.symm
  · rfl

@[simp] theorem isFinite_signed (negative : Bool) (q : ℚ) : (signed negative q).isFinite = true := by
  unfold signed
  split <;> rfl

theorem ne_nan (finite : x.isFinite = true) : x ≠ nan := by
  rintro rfl
  cases finite

theorem neg_of_finite (finite : x.isFinite = true) : x.neg = signed (!x.isNegative) (-x.value) := by
  cases x <;> first | rfl | cases finite

theorem add_of_finite (left : x.isFinite = true) (right : y.isFinite = true) :
    x.add y = signed (x.isNegative && y.isNegative) (x.value + y.value) := by
  cases x with
  | nan | infinity => cases left
  | negativeZero | number =>
      cases y with
      | nan | infinity => cases right
      | negativeZero | number => rfl

theorem mul_of_finite (left : x.isFinite = true) (right : y.isFinite = true) :
    x.mul y = signed (x.isNegative ^^ y.isNegative) (x.value * y.value) := by
  simp [mul, ne_nan, left, right]

theorem div_of_finite (left : x.isFinite = true) (right : y.isFinite = true) :
    x.div y = if y.value ≠ 0 then signed (x.isNegative ^^ y.isNegative) (x.value / y.value)
      else if x.value = 0 then nan else infinity (x.isNegative ^^ y.isNegative) := by
  simp [div, ne_nan, left, right]

theorem power_of_finite (finite : x.isFinite = true) (n : ℤ) :
    x.power n = if x.value = 0 ∧ n < 0 then infinity (x.isNegative && n % 2 = 1)
      else signed (n ≠ 0 && x.isNegative && n % 2 = 1) (x.value ^ n) := by
  by_cases zero : n = 0
  · simp [power, zero, signed]
  · simp [power, zero, ne_nan, finite]

theorem isFinite_neg (finite : x.isFinite = true) : x.neg.isFinite = true := by
  rw [neg_of_finite finite, isFinite_signed]

theorem isFinite_add (left : x.isFinite = true) (right : y.isFinite = true) : (x.add y).isFinite = true := by
  rw [add_of_finite left right, isFinite_signed]

theorem isFinite_mul (left : x.isFinite = true) (right : y.isFinite = true) : (x.mul y).isFinite = true := by
  rw [mul_of_finite left right, isFinite_signed]

theorem isFinite_div_iff (left : x.isFinite = true) (right : y.isFinite = true) :
    (x.div y).isFinite = true ↔ y.value ≠ 0 := by
  rw [div_of_finite left right]
  split_ifs with nonzero zero
  · simp [nonzero]
  · simp [isFinite, nonzero]
  · simp [isFinite, nonzero]

theorem isFinite_power_iff (finite : x.isFinite = true) (n : ℤ) :
    (x.power n).isFinite = true ↔ ¬(x.value = 0 ∧ n < 0) := by
  rw [power_of_finite finite]
  split_ifs with pole
  · simp [isFinite, pole]
  · simp [pole]

theorem value_neg (finite : x.isFinite = true) : x.neg.value = -x.value := by
  rw [neg_of_finite finite, value_signed]

theorem value_add (left : x.isFinite = true) (right : y.isFinite = true) :
    (x.add y).value = x.value + y.value := by
  rw [add_of_finite left right, value_signed]

theorem value_mul (left : x.isFinite = true) (right : y.isFinite = true) :
    (x.mul y).value = x.value * y.value := by
  rw [mul_of_finite left right, value_signed]

theorem value_div (left : x.isFinite = true) (right : y.isFinite = true) (finite : (x.div y).isFinite = true) :
    (x.div y).value = x.value / y.value := by
  rw [div_of_finite left right, if_pos ((isFinite_div_iff left right).mp finite), value_signed]

theorem value_power {n : ℤ} (finite : x.isFinite = true) (result : (x.power n).isFinite = true) :
    (x.power n).value = x.value ^ n := by
  rw [power_of_finite finite, if_neg ((isFinite_power_iff finite n).mp result), value_signed]

end

instance : ExtendedArithmetic ExtendedRational ℚ where
  isFinite := isFinite
  value := value
  number := number
  isFinite_number _ := rfl
  value_number _ := rfl
  isFinite_ofInt _ := rfl
  value_ofInt _ := rfl
  value_of_equal c n same := by
    cases c with
    | nan | infinity => cases same
    | negativeZero | number => exact of_decide_eq_true same
  value_unary op c finite _ := by
    cases op with
    | neg => exact value_neg finite
    | sin | cos | tan | exp | ln | sqrt | tanh => rfl
  value_binary op c d left right finite := by
    cases op with
    | add => exact value_add left right
    | sub =>
        have opposite := isFinite_neg right
        exact (value_add left opposite).trans (by rw [value_neg right, ← sub_eq_add_neg]; rfl)
    | mul => exact value_mul left right
    | div => exact value_div left right finite
    | pow =>
        have same : Arithmetic.binary .pow c d = c.power d.value.num := if_pos right
        rw [same] at finite ⊢
        exact value_power left finite
  value_power c n := value_power
  isFinite_unary op c d _ finite _ _ := by
    cases op with
    | neg => exact isFinite_neg finite
    | sin | cos | tan | exp | ln | sqrt | tanh => exact finite
  isFinite_binary op b c d e finite also left right same equal result := by
    cases op with
    | add => exact isFinite_add left right
    | sub => exact isFinite_add left (isFinite_neg right)
    | mul => exact isFinite_mul left right
    | div => exact (isFinite_div_iff left right).mpr (equal ▸ (isFinite_div_iff finite also).mp result)
    | pow =>
        have first : Arithmetic.binary .pow b c = b.power c.value.num := if_pos also
        have second : Arithmetic.binary .pow d e = d.power e.value.num := if_pos right
        rw [first, isFinite_power_iff finite] at result
        rw [second, isFinite_power_iff left, ← same, ← equal]
        exact result
  isFinite_power n c d finite left same result :=
    (isFinite_power_iff left _).mpr (same ▸ (isFinite_power_iff finite _).mp result)
  isFinite_neg _ := isFinite_neg
  isFinite_add _ _ := isFinite_add
  isFinite_mul _ _ := isFinite_mul

end ExtendedRational

end AutoDiff
