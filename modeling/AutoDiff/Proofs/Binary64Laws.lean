import AutoDiff.Proofs.UnpackedNumbers

namespace AutoDiff

open NumberKinds

namespace Binary64

open Float.Model (UnpackedFloat Format)
open Float.Model.UnpackedFloat (Sign)

theorem add_unpacked_comm (u v : UnpackedFloat) :
    UnpackedFloat.add Format.binary64 u v = UnpackedFloat.add Format.binary64 v u := by
  cases u <;> cases v <;> simp only [UnpackedFloat.add]
  case infinity.infinity s t => cases s <;> cases t <;> rfl
  case zero.zero s t => cases s <;> cases t <;> rfl
  case finite.finite s m e _ t n k _ => rw [min_comm, Int.add_comm]

theorem mul_unpacked_comm (u v : UnpackedFloat) :
    UnpackedFloat.mul Format.binary64 u v = UnpackedFloat.mul Format.binary64 v u := by
  have signs (s t : Sign) : s * t = t * s := by cases s <;> cases t <;> rfl
  cases u <;> cases v <;> simp only [UnpackedFloat.mul, signs]
  case finite.finite s m e _ t n k _ => rw [signs, Nat.mul_comm, Int.add_comm]

theorem unpacked_one : (ofInt 1).unpacked = .finite .positive (2 ^ 52) (-52) (by decide) := by
  have bits : ofInt 1 = ⟨0x3ff0000000000000⟩ := by rfl
  rw [bits]
  rfl

theorem unpacked_minus : (ofInt (-1)).unpacked = .finite .negative (2 ^ 52) (-52) (by decide) := by
  have bits : ofInt (-1) = ⟨0xbff0000000000000⟩ := by rfl
  rw [bits]
  rfl

theorem one_mul_unpacked (x : Binary64) :
    UnpackedFloat.mul Format.binary64 (ofInt 1).unpacked x.unpacked = x.unpacked := by
  rw [unpacked_one]
  cases same : x.unpacked with
  | notANumber => rfl
  | infinity sign | zero sign => cases sign <;> rfl
  | finite sign m e positive =>
      have rounded := round_canonical sign positive (canonical_unpacked same) 52
      have signs : Sign.positive * sign = sign := by cases sign <;> rfl
      simp only [UnpackedFloat.mul, signs]
      rw [← rounded, Int.add_comm]
      rfl

theorem minus_mul_unpacked (x : Binary64) :
    UnpackedFloat.mul Format.binary64 (ofInt (-1)).unpacked x.unpacked = x.unpacked.neg := by
  rw [unpacked_minus]
  cases same : x.unpacked with
  | notANumber => rfl
  | infinity sign | zero sign => cases sign <;> rfl
  | finite sign m e positive =>
      have rounded := round_canonical (-sign) positive (canonical_unpacked same) 52
      have signs : Sign.negative * sign = -sign := by cases sign <;> rfl
      simp only [UnpackedFloat.mul, signs, UnpackedFloat.neg]
      rw [← rounded, Int.add_comm]
      rfl

theorem exists_divCore_one {m : Nat} {e : Int} (canonical : Canonical m e) :
    ∃ d : Nat, UnpackedFloat.divCore Format.binary64 m e (2 ^ 52) (-52) = (2 ^ d * m, e - d, .exact) := by
  have one : Float.Model.totalExponent (2 ^ 52) (-52) = 1 := by
    rw [Float.Model.totalExponent, Nat.log2_two_pow]
    rfl
  have target : Format.binary64.targetExponent (Float.Model.totalExponent m e - 1) = e ∨
      Format.binary64.targetExponent (Float.Model.totalExponent m e - 1) = e - 1 := by
    change max ((m.log2 : Int) + 1 + e - (53 : Nat)) (-1074) = e at canonical
    change max ((m.log2 : Int) + 1 + e - 1 - (53 : Nat)) (-1074) = e ∨
      max ((m.log2 : Int) + 1 + e - 1 - (53 : Nat)) (-1074) = e - 1
    omega
  have divides (d : Nat) : m <<< (52 + d) = 2 ^ 52 * (2 ^ d * m) := by
    rw [Nat.shiftLeft_eq, Nat.pow_add]
    ring
  have shifted (d : Nat) (least :
        min (e - -52) (Format.binary64.targetExponent (Float.Model.totalExponent m e - 1)) = e - d) :
      UnpackedFloat.divCore Format.binary64 m e (2 ^ 52) (-52) = (2 ^ d * m, e - d, .exact) := by
    have shift : (e - -52 - (e - d)).toNat = 52 + d := by omega
    simp only [UnpackedFloat.divCore, one, least, shift, divides]
    rw [Nat.mul_div_cancel_left _ (by positivity), Nat.mul_mod_right]
    rfl
  rcases target with same | less
  · exact ⟨0, shifted 0 (by rw [same]; omega)⟩
  · exact ⟨1, shifted 1 (by rw [less]; omega)⟩

theorem div_one_unpacked (x : Binary64) :
    UnpackedFloat.div Format.binary64 x.unpacked (ofInt 1).unpacked = x.unpacked := by
  rw [unpacked_one]
  cases same : x.unpacked with
  | notANumber => rfl
  | infinity sign | zero sign => cases sign <;> rfl
  | finite sign m e positive =>
      have canonical := canonical_unpacked same
      have signs : sign / Sign.positive = sign := by cases sign <;> rfl
      obtain ⟨d, core⟩ := exists_divCore_one canonical
      simp only [UnpackedFloat.div, signs, core]
      exact round_canonical sign positive canonical d

theorem add_zero_unpacked (u : UnpackedFloat) (sign : Sign) :
    UnpackedFloat.add Format.binary64 u (.zero sign) = u ∨
      ∃ one other, u = .zero one ∧ UnpackedFloat.add Format.binary64 u (.zero sign) = .zero other := by
  cases u with
  | notANumber | infinity | finite => exact .inl rfl
  | zero other => cases other <;> cases sign <;> first | exact .inl rfl | exact .inr ⟨_, _, rfl, rfl⟩

theorem sub_zero_unpacked (u : UnpackedFloat) (sign : Sign) :
    UnpackedFloat.sub Format.binary64 u (.zero sign) = u ∨
      ∃ one other, u = .zero one ∧ UnpackedFloat.sub Format.binary64 u (.zero sign) = .zero other := by
  cases u with
  | notANumber | infinity | finite => exact .inl rfl
  | zero other => cases other <;> cases sign <;> first | exact .inl rfl | exact .inr ⟨_, _, rfl, rfl⟩

theorem zero_sub_unpacked (u : UnpackedFloat) (sign : Sign) :
    UnpackedFloat.sub Format.binary64 (.zero sign) u = u.neg ∨
      ∃ one other, u.neg = .zero one ∧ UnpackedFloat.sub Format.binary64 (.zero sign) u = .zero other := by
  cases u with
  | notANumber | infinity | finite => exact .inl rfl
  | zero other => cases other <;> cases sign <;> first | exact .inl rfl | exact .inr ⟨_, _, rfl, rfl⟩

theorem isZero_unit {n : Int} (unit : n = 1 ∨ n = -1) : isZero (ofInt n) = false := by
  rcases unit with rfl | rfl <;> rfl

theorem zero_mul_unpacked {u : UnpackedFloat} (sign : Sign) (finite : u.isFinite = true) :
    ∃ other, UnpackedFloat.mul Format.binary64 (.zero sign) u = .zero other := by
  cases u with
  | notANumber | infinity => cases finite
  | zero | finite => exact ⟨_, rfl⟩

theorem mul_special_unpacked {u : UnpackedFloat} (sign : Sign) (special : u.isFinite = false) :
    UnpackedFloat.mul Format.binary64 (.zero sign) u = .notANumber := by
  cases u with
  | notANumber | infinity => rfl
  | zero | finite => cases special

theorem zero_div_unpacked {u : UnpackedFloat} (sign : Sign) (nonzero : ¬∃ other, u = .zero other)
    (number : u.isNaN = false) : ∃ other, UnpackedFloat.div Format.binary64 (.zero sign) u = .zero other := by
  cases u with
  | notANumber => cases number
  | zero other => exact absurd ⟨other, rfl⟩ nonzero
  | infinity | finite => exact ⟨_, rfl⟩

theorem div_zero_unpacked (u : UnpackedFloat) (sign : Sign) :
    UnpackedFloat.div Format.binary64 u (.zero sign) = .notANumber ∨
      ∃ other, UnpackedFloat.div Format.binary64 u (.zero sign) = .infinity other := by
  cases u with
  | notANumber | zero => exact .inl rfl
  | infinity | finite => exact .inr ⟨_, rfl⟩

theorem mul_special {c x : Binary64} (zero : isZero c = true) (special : x.isFinite = false) :
    (mul c x).isNaN = true := by
  obtain ⟨sign, same⟩ := (isZero_iff c).mp zero
  exact isNaN_of_unpacked (fun _ _ => rfl) (same ▸ mul_special_unpacked sign ((isFinite_unpacked x).trans special))

theorem div_special {c x : Binary64} (zero : isZero c = true) (special : isZero x = true ∨ x.isNaN = true) :
    (div c x).isNaN = true := by
  obtain ⟨sign, same⟩ := (isZero_iff c).mp zero
  refine isNaN_of_unpacked (g := UnpackedFloat.div Format.binary64) (fun _ _ => rfl) ?_
  rcases special with zero | none
  · obtain ⟨other, also⟩ := (isZero_iff x).mp zero
    rw [same, also]
    rfl
  · rw [← isNaN_unpacked, UnpackedFloat.isNaN_iff] at none
    rw [same, none]
    rfl

theorem div_zero {x c : Binary64} (zero : isZero c = true) : (div x c).isFinite = false := by
  obtain ⟨sign, same⟩ := (isZero_iff c).mp zero
  have computed := same_lift₂ (f := Float.div) (g := UnpackedFloat.div Format.binary64) (fun _ _ => rfl) x c
  have infinite : (ofUnpacked (UnpackedFloat.div Format.binary64 x.unpacked c.unpacked)).isFinite = false := by
    rw [same]
    rcases div_zero_unpacked x.unpacked sign with result | ⟨other, result⟩
    · rw [result]
      rfl
    · rw [result]
      cases other <;> rfl
  rcases computed with result | ⟨none, _⟩
  · exact (congrArg isFinite result).trans infinite
  · by_contra finite
    cases (isNaN_of_isFinite (Bool.eq_true_of_not_eq_false finite)).symm.trans none

theorem equal_zero_iff (c : Binary64) : equal c (ofInt 0) = true ↔ isZero c = true := by
  constructor
  · intro same
    rcases near_of_equal same with rfl | ⟨zero, _⟩
    · exact isZero_zero
    · exact zero
  · intro zero
    refine (equal_iff c _).mpr ⟨?_, ?_, .inr ⟨zero, isZero_zero⟩⟩
    · exact unpacked_ne_of_isNaN_eq_false.mpr (isNaN_of_isFinite (isFinite_of_isZero zero))
    · exact unpacked_ne_of_isNaN_eq_false.mpr (isNaN_of_isFinite (isFinite_of_isZero isZero_zero))

theorem isZero_sqrt {x : Binary64} (zero : isZero x = true) : isZero (lift Float.sqrt x) = true := by
  obtain ⟨sign, same⟩ := (isZero_iff x).mp zero
  have root : UnpackedFloat.sqrt Format.binary64 x.toFloat.toModel.unpack = .zero sign := by
    rw [unpack_toFloat, same]
    rfl
  have computed := same_settle [x] (UnpackedFloat.sqrt Format.binary64 x.toFloat.toModel.unpack)
  exact isZero_of_same (computed.trans (.inl (congrArg ofUnpacked root)))

theorem power_eq (x : Binary64) (n : Int) : x.power n =
    if n < 0 then div (ofNat 1) (powerLoop (ofNat 1) x n.natAbs) else powerLoop (ofNat 1) x n.natAbs := rfl

end Binary64

section Laws

variable [MathLibrary]

/-- What is documented of mathematical libraries: their functions tell no zero from another one, but for
what a power of a zero is, and powers with the exponents zero and one are as they are for real numbers. -/
class LibraryLaws : Prop where
  zero_unary (op : UnaryOp) (x y : Binary64) : op ≠ .neg → op ≠ .sqrt → isZero x = true → isZero y = true →
    Agree (Arithmetic.unary op x) (Arithmetic.unary op y)
  pow_zero (x c : Binary64) : isZero c = true → Same (Arithmetic.binary .pow x c) (Arithmetic.ofInt 1)
  pow_one (x : Binary64) : Same (Arithmetic.binary .pow x (Arithmetic.ofInt 1)) x
  zero_pow (x y z : Binary64) : isZero x = true → isZero y = true → isFinite (Arithmetic.binary .pow x z) = true →
    Near (Arithmetic.binary .pow x z) (Arithmetic.binary .pow y z)

namespace Binary64

variable [LibraryLaws]

instance : SpecialLaws Binary64 where
  isFinite_of_isZero _ := isFinite_of_isZero
  isNaN_of_isFinite _ := isNaN_of_isFinite
  equal_zero_iff := equal_zero_iff
  eq_of_equal c n unit same := by
    rcases near_of_equal same with same | ⟨_, zero⟩
    · exact same
    · rw [show isZero (Arithmetic.ofInt n : Binary64) = false from isZero_unit unit] at zero
      cases zero
  isZero_unit _ unit := isZero_unit unit
  nan_unary op _ _ first second := congruence_alike.unary op (.inr ⟨first, second⟩)
  nan_left op _ _ z first second := congruence_alike.binary op (.inr ⟨first, second⟩) (.refl z)
  nan_right op x _ _ first second := congruence_alike.binary op (.refl x) (.inr ⟨first, second⟩)
  nan_power n _ _ first second := congruence_alike.power n (.inr ⟨first, second⟩)
  comm op x y commutes := by
    cases op with
    | add => exact same_of_same (fun _ _ => rfl) (add_unpacked_comm x.unpacked y.unpacked)
    | mul => exact same_of_same (fun _ _ => rfl) (mul_unpacked_comm x.unpacked y.unpacked)
    | sub | div | pow => cases commutes
  add_zero x c zero := by
    obtain ⟨sign, same⟩ := (isZero_iff c).mp zero
    exact agree_of_unpacked (fun _ _ => rfl) (same ▸ add_zero_unpacked x.unpacked sign)
  sub_zero x c zero := by
    obtain ⟨sign, same⟩ := (isZero_iff c).mp zero
    exact agree_of_unpacked (fun _ _ => rfl) (same ▸ sub_zero_unpacked x.unpacked sign)
  zero_sub c x zero := by
    obtain ⟨sign, same⟩ := (isZero_iff c).mp zero
    refine agree_of_unpacked (z := x.neg) (fun _ _ => rfl) ?_
    rw [same, unpacked_neg]
    exact zero_sub_unpacked x.unpacked sign
  neg_neg x := .inl (neg_neg x)
  zero_mul c x zero finite := by
    obtain ⟨sign, same⟩ := (isZero_iff c).mp zero
    obtain ⟨other, result⟩ := zero_mul_unpacked sign ((isFinite_unpacked x).trans finite)
    exact isZero_of_unpacked (fun _ _ => rfl) (same ▸ result)
  one_mul x := same_of_unpacked (fun _ _ => rfl) (one_mul_unpacked x)
  minus_mul x := same_of_unpacked (fun _ _ => rfl) ((minus_mul_unpacked x).trans (unpacked_neg x).symm)
  zero_div c x zero nonzero number := by
    obtain ⟨sign, same⟩ := (isZero_iff c).mp zero
    rw [← Bool.not_eq_true, isZero_iff] at nonzero
    obtain ⟨other, result⟩ := zero_div_unpacked sign nonzero ((isNaN_unpacked x).trans number)
    exact isZero_of_unpacked (fun _ _ => rfl) (same ▸ result)
  div_one x := same_of_unpacked (fun _ _ => rfl) (div_one_unpacked x)
  pow_zero := LibraryLaws.pow_zero
  pow_one := LibraryLaws.pow_one
  power_zero x := by
    refine .inl ?_
    change powerLoop (ofNat 1) x 0 = ofNat 1
    rw [powerLoop_eq]
    rfl
  power_one x := by
    have once : Arithmetic.power x 1 = mul (ofInt 1) x := by
      change powerLoop (ofNat 1) x 1 = mul (ofNat 1) x
      rw [powerLoop_eq]
      rfl
    rw [once]
    exact same_of_unpacked (fun _ _ => rfl) (one_mul_unpacked x)

theorem agree_powerLoop {x y : Binary64} (zero : isZero x = true) (also : isZero y = true) (n : Nat) :
    Agree (powerLoop (ofNat 1) x n) (powerLoop (ofNat 1) y n) :=
  powerLoop_congr (R := Agree) (agree_mul_of_special fun _ _ => mul_special) (Same.refl _).agree (.inr ⟨zero, also⟩) n

instance : ZeroLaws Binary64 where
  isZero_ofInt := isZero_zero
  near_of_equal _ _ := near_of_equal
  zero_unary op x y zero also := by
    by_cases negated : op = .neg
    · subst negated
      exact .inr ⟨isZero_neg zero, isZero_neg also⟩
    by_cases root : op = .sqrt
    · subst root
      exact .inr ⟨isZero_sqrt zero, isZero_sqrt also⟩
    · exact LibraryLaws.zero_unary op x y negated root zero also
  mul_special _ _ := mul_special
  div_special _ _ := div_special
  div_zero _ _ := div_zero
  zero_pow := LibraryLaws.zero_pow
  zero_power n x y zero also finite := by
    change isFinite (x.power n.toInt) = true at finite
    change Near (x.power n.toInt) (y.power n.toInt)
    have products := agree_powerLoop zero also n.toInt.natAbs
    rw [power_eq] at finite
    rw [power_eq, power_eq]
    split_ifs at finite ⊢ with downward
    · -- the reciprocal of a zero is not finite
      rcases products with same | ⟨none, _⟩
      · exact near_of_agree (same_binary .div (.refl (ofNat 1)) same).agree finite
      · rw [show isFinite (div (ofNat 1) _) = false from div_zero none] at finite
        cases finite
    · exact near_of_agree products finite
  zero_power_nonneg n x y zero also upward := by
    change Agree (x.power n.toInt) (y.power n.toInt)
    rw [power_eq, power_eq, if_neg (Int.not_lt.mpr upward), if_neg (Int.not_lt.mpr upward)]
    exact agree_powerLoop zero also _

end Binary64

end Laws

namespace Binary64

def atZero (f : Float → Float) (x : Float) : Float := if x == (ofInt 0).toFloat then f x else nan.toFloat

/-- What is known of a mathematical library without calculation: its values at zeros, and powers with the exponents
zero and one. -/
@[reducible] def knownLibrary : MathLibrary where
  sin := atZero id
  cos := atZero fun _ => (ofInt 1).toFloat
  tan := atZero id
  exp := atZero fun _ => (ofInt 1).toFloat
  log := atZero fun _ => infinity.neg.toFloat
  tanh := atZero id
  pow x y :=
    if y == (ofInt 0).toFloat then (ofInt 1).toFloat
    else if y == (ofInt 1).toFloat then x
    else nan.toFloat

theorem same_settle_toFloat (operands : List Binary64) (x : Binary64) : Same (settle operands x.toFloat) x := by
  have packed : x.toFloat = .ofModel (.pack x.unpacked) := rfl
  rw [packed]
  exact (same_settle operands x.unpacked).trans (same_unpacked x)

theorem lift_atZero {x : Binary64} (zero : isZero x = true) (f : Float → Float) :
    Same (lift (atZero f) x) (settle [x] (f x.toFloat)) := by
  have known : (x.toFloat == (ofInt 0).toFloat) = true := (equal_zero_iff x).mpr zero
  rw [lift, atZero, if_pos known]
  exact .refl _

theorem agree_atZero {x y c : Binary64} (zero : isZero x = true) (also : isZero y = true) :
    Agree (lift (atZero fun _ => c.toFloat) x) (lift (atZero fun _ => c.toFloat) y) := by
  have first := (lift_atZero zero fun _ => c.toFloat).trans (same_settle_toFloat [x] c)
  have second := (lift_atZero also fun _ => c.toFloat).trans (same_settle_toFloat [y] c)
  exact (first.trans second.symm).agree

theorem isZero_of_same_zero {x y : Binary64} (same : Same y x) (zero : isZero x = true) : isZero y = true := by
  obtain ⟨sign, unpacked⟩ := (isZero_iff x).mp zero
  exact isZero_of_same (same.trans (unpacked ▸ (same_unpacked x).symm))

theorem isZero_atZero {x : Binary64} (zero : isZero x = true) : isZero (lift (atZero id) x) = true :=
  isZero_of_same_zero ((lift_atZero zero id).trans (same_settle_toFloat [x] x)) zero

section Powers

variable (x c : Binary64)

theorem known_pow_zero (zero : isZero c = true) : Same (lift₂ knownLibrary.pow x c) (ofInt 1) := by
  have known : (c.toFloat == (ofInt 0).toFloat) = true := (equal_zero_iff c).mpr zero
  rw [lift₂, knownLibrary]
  simp only [known, if_true]
  exact same_settle_toFloat _ _

variable {c} (nonzero : isZero c = false)

include nonzero

theorem known_pow_one (one : (c.toFloat == (ofInt 1).toFloat) = true) : Same (lift₂ knownLibrary.pow x c) x := by
  have unknown : ¬(c.toFloat == (ofInt 0).toFloat) = true := fun same => by
    rw [(equal_zero_iff c).mp same] at nonzero
    cases nonzero
  rw [lift₂, knownLibrary]
  simp only [unknown, one, if_true]
  exact same_settle_toFloat _ _

theorem known_pow_other (other : ¬(c.toFloat == (ofInt 1).toFloat) = true) :
    isFinite (lift₂ knownLibrary.pow x c) = false := by
  have unknown : ¬(c.toFloat == (ofInt 0).toFloat) = true := fun same => by
    rw [(equal_zero_iff c).mp same] at nonzero
    cases nonzero
  have same : Same (lift₂ knownLibrary.pow x c) nan := by
    rw [lift₂, knownLibrary]
    simp only [unknown, other]
    exact same_settle_toFloat _ _
  rcases same with same | ⟨none, -⟩
  · rw [same]
    rfl
  · by_contra finite
    cases (isNaN_of_isFinite (Bool.eq_true_of_not_eq_false finite)).symm.trans none

end Powers

theorem libraryLaws_known : @LibraryLaws knownLibrary := by
  let _ := knownLibrary
  constructor
  · intro op x y negation root zero also
    cases op with
    | neg => exact absurd rfl negation
    | sqrt => exact absurd rfl root
    | sin | tan | tanh => exact .inr ⟨isZero_atZero zero, isZero_atZero also⟩
    | cos | exp | ln => exact agree_atZero zero also
  · exact known_pow_zero
  · intro x
    exact known_pow_one x (isZero_unit (.inl rfl)) (by decide)
  · intro x y z zero also finite
    cases nonzero : isZero z with
    | true =>
        have same := (known_pow_zero x z nonzero).trans (known_pow_zero y z nonzero).symm
        exact same.agree.near (isNaN_of_isFinite finite)
    | false =>
        by_cases one : (z.toFloat == (ofInt 1).toFloat) = true
        · have first := known_pow_one x nonzero one
          have second := known_pow_one y nonzero one
          exact .inr ⟨isZero_of_same_zero first zero, isZero_of_same_zero second also⟩
        · cases finite.symm.trans (known_pow_other x nonzero one)

end Binary64

end AutoDiff
