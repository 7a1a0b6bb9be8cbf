import AutoDiff.Numeral

/-!
Decimal text of binary64 numbers. `shortest` finds the fewest digits that read back to a number, the
nearest such digits if there is a choice; `significant` rounds the exact value to a fixed number of
digits. A `Layout` says how the digits are written.
-/

namespace AutoDiff

/-- What an exact half does: goes to the even neighbour, or away from zero. -/
inductive Tie where
  | toEven
  | away
  deriving DecidableEq, Repr

/-- Whether rounding `quotient + remainder / divisor` to an integer rounds up. -/
def Tie.roundsUp (tie : Tie) (quotient remainder divisor : Nat) : Bool :=
  if 2 * remainder = divisor then tie == .away || quotient % 2 == 1 else divisor < 2 * remainder

/-- A positive decimal `0.d₁d₂… * 10 ^ (point)` given by its digits and where its point stands. -/
structure Decimal where
  digits : List Digit
  point : Int
  deriving DecidableEq, Repr

namespace Decimal

def trimZeros (digits : List Digit) : List Digit := (digits.reverse.dropWhile (· == 0)).reverse

/-- `coefficient * 10 ^ exponent`, without trailing zeros in the digits. -/
def ofScaled (coefficient : Nat) (exponent : Int) : Decimal :=
  let digits := Digit.ofNat coefficient
  ⟨trimZeros digits, exponent + digits.length⟩

/-- The exponent of the first digit. -/
def firstExponent (d : Decimal) : Int := d.point - 1

end Decimal

namespace Binary64

/-- A finite number is `significand * 2 ^ scale`. -/
def significand (x : Binary64) : Nat :=
  if x.exponentField = 0 then x.fractionField else Nat.pow 2 52 + x.fractionField

def scale (x : Binary64) : Int := max x.exponentField 1 - 1075

/-- The exponent of the first decimal digit of `num / den`. -/
def leadingExponent (num den : Nat) : Int :=
  if den ≤ num then ((Digit.ofNat (num / den)).length : Int) - 1
  else
    let places := (Digit.ofNat (den / num)).length
    if num * Nat.pow 10 (places - 1) = den then 1 - (places : Int) else -(places : Int)

/-- `num / den * 10 ^ (-exponent)` as a quotient of natural numbers. -/
def shifted (num den : Nat) (exponent : Int) : Nat × Nat :=
  if exponent < 0 then (num * Nat.pow 10 exponent.natAbs, den) else (num, den * Nat.pow 10 exponent.natAbs)

/-- The magnitude of a finite number, as a quotient. -/
def magnitude (x : Binary64) : Nat × Nat :=
  if x.scale < 0 then (x.significand, Nat.pow 2 x.scale.natAbs) else (x.significand * Nat.pow 2 x.scale.natAbs, 1)

/-- Distances from the number to the ends of the interval that rounds to it, below and above, in units
of a quarter of its last place. Below a power of two the numbers are twice as dense. -/
def reach (x : Binary64) : Nat × Nat :=
  if x.fractionField = 0 ∧ 1 < x.exponentField then (1, 2) else (2, 2)

/-- Whether `candidate * 10 ^ exponent` reads back as the positive number `x`. -/
def readsBack (x : Binary64) (candidate : Nat) (exponent : Int) : Bool :=
  let quarter := x.scale - 2
  let low := 4 * x.significand - x.reach.1
  let high := 4 * x.significand + x.reach.2
  let unit := Nat.pow 2 quarter.natAbs
  let tens := Nat.pow 10 exponent.natAbs
  let c := candidate * (if quarter < 0 then unit else 1) * (if exponent < 0 then 1 else tens)
  let s := (if quarter < 0 then 1 else unit) * (if exponent < 0 then tens else 1)
  if x.significand % 2 = 0 then low * s ≤ c && c ≤ high * s else low * s < c && c < high * s

/-- The neighbour of `x` on the grid of multiples of `10 ^ exponent` that reads back, if one does; the
nearer one if both do. -/
def gridNeighbour? (tie : Tie) (x : Binary64) (exponent : Int) : Option Nat :=
  let (num, den) := shifted x.magnitude.1 x.magnitude.2 exponent
  let below := num / den
  match x.readsBack below exponent, x.readsBack (below + 1) exponent with
  | true, true => some (if tie.roundsUp below (num % den) den then below + 1 else below)
  | true, false => some below
  | false, true => some (below + 1)
  | false, false => none

def shortestFrom (tie : Tie) (x : Binary64) (leading : Int) : Nat → Decimal
  | 0 => Decimal.ofScaled (shifted x.magnitude.1 x.magnitude.2 (leading - 16)).1 (leading - 16)
  | left + 1 =>
    let exponent := leading - (16 - left)
    match gridNeighbour? tie x exponent with
    | some n => Decimal.ofScaled n exponent
    | none => shortestFrom tie x leading left

/-- The shortest decimal that reads back as the positive finite number `x`. Seventeen digits always
do. -/
def shortest (tie : Tie) (x : Binary64) : Decimal :=
  shortestFrom tie x (leadingExponent x.magnitude.1 x.magnitude.2) 17

/-- `x` rounded to `count` significant digits, ties to even, as the digits and the exponent of the
first of them. -/
def significant (count : Nat) (x : Binary64) : List Digit × Int :=
  if x.significand = 0 then (List.replicate count 0, 0)
  else
    let leading := leadingExponent x.magnitude.1 x.magnitude.2
    let (num, den) := shifted x.magnitude.1 x.magnitude.2 (leading + 1 - count)
    let digits := Digit.ofNat (num / den + (if Tie.toEven.roundsUp (num / den) (num % den) den then 1 else 0))
    (digits.take count, leading + (digits.length - count : Nat))

/-- How the digits of a number are laid out: positionally while the exponent of the first digit lies
between `lowest` and `highest`, otherwise with one digit before the point and an exponent. -/
structure Layout where
  lowest : Int
  highest : Int
  tie : Tie

/-- Positional text has at least one digit after the point. -/
def positional (d : Decimal) : Numeral :=
  if d.point ≤ 0 then { whole := [0], fraction := List.replicate d.point.natAbs 0 ++ d.digits }
  else
    let whole := d.digits.take d.point.toNat
    let fraction := d.digits.drop d.point.toNat
    { whole := whole ++ List.replicate (d.point.toNat - whole.length) 0
      fraction := if fraction.isEmpty then [0] else fraction }

def scientific (d : Decimal) : Numeral :=
  { whole := d.digits.take 1, fraction := d.digits.drop 1, exponent := some d.firstExponent }

/-- The numeral of a finite number. -/
def numeral (layout : Layout) (x : Binary64) : Numeral :=
  let unsigned :=
    if x.significand = 0 then { whole := [0], fraction := [0] }
    else
      let d := x.shortest layout.tie
      if layout.lowest ≤ d.firstExponent ∧ d.firstExponent ≤ layout.highest then positional d
      else scientific d
  { unsigned with negative := x.isNegative }

end Binary64

end AutoDiff
