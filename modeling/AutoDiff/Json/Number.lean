import AutoDiff.Binary64.Shortest
import AutoDiff.Json.Basic

/-!
Numbers in JSON texts. A number is written with the fewest digits that identify it. It is read in two
roundings: its digits, as one integer, are rounded to a number, which is then multiplied or divided by
a power of ten.
-/

namespace AutoDiff

namespace Numeral

/-- Appends digits to an integer as long as it stays a 64-bit word; also counts the digits left over. -/
def absorb (n : Nat) : List Digit → Nat × Nat
  | [] => (n, 0)
  | d :: ds => if 10 * n + d.val < UInt64.size then absorb (10 * n + d.val) ds else (n, ds.length + 1)

/-- The digits as an integer that fits in a word, and the power of ten that goes with it. Digits that no
longer fit are dropped, those before the point still count as places. -/
def scaled (n : Numeral) : Nat × Int :=
  let (significand, places) := absorb 0 n.whole
  let (significand, dropped) := absorb significand n.fraction
  (significand, n.exponent.getD 0 + places - (n.fraction.length - dropped : Nat))

/-- Multiplies or divides by a power of ten, in steps of at most `10 ^ 308`; a product that overflows is
no number. -/
def scale? (x : Binary64) (exponent : Int) : Option Binary64 :=
  if exponent < -308 then
    if x.equal (.ofNat 0) then some x
    else scale? (x.div (.ofScientific 1 308)) (exponent + 308)
  else if 308 < exponent then if x.equal (.ofNat 0) then some x else none
  else if exponent < 0 then some (x.div (.ofScientific 1 exponent.natAbs))
  else
    let product := x.mul (.ofScientific 1 exponent)
    if product.isFinite then some product else none
termination_by exponent.natAbs
decreasing_by omega

/-- The number that a reader takes a numeral for. -/
def read? (n : Numeral) : Option Binary64 := do
  let (significand, exponent) := n.scaled
  return (← scale? (.ofNat significand) exponent).negIf n.negative

/-- An integer is written without point and exponent, and not as minus zero. -/
def integer? (n : Numeral) : Option Int :=
  if n.fraction.isEmpty ∧ n.exponent.isNone then
    let magnitude := Digit.value n.whole
    if !n.negative then some magnitude
    else if magnitude = 0 then none else some (-magnitude)
  else none

end Numeral

/-- Positional from `0.00001` to below `1e+16`; a half goes to the even neighbour. -/
def Binary64.jsonLayout : Binary64.Layout := ⟨-5, 15, .toEven⟩

namespace Json

/-- A number that is not finite has no numeral and is written as `null`. -/
def ofBinary64 (x : Binary64) : Json :=
  if x.isFinite then number (x.numeral Binary64.jsonLayout) else null

def binary64? : Json → Option Binary64
  | number n => n.read?
  | _ => none

/-- A natural number below 2⁶⁴. -/
def word? : Json → Option Nat
  | number n => do
    let i ← n.integer?
    guard (0 ≤ i ∧ i < UInt64.size)
    return i.toNat
  | _ => none

def int32? : Json → Option Int32
  | number n => do
    let i ← n.integer?
    guard (Int32.minValue.toInt ≤ i ∧ i ≤ Int32.maxValue.toInt)
    return Int32.ofInt i
  | _ => none

end Json

end AutoDiff
