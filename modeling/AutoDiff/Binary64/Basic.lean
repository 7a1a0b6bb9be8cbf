/-!
IEEE 754 binary64 numbers, held as their 64-bit words so that two numbers are the same exactly when
their words are. Arithmetic is that of `Float`, rounded to nearest with ties to even; the word of a
NaN result is fixed by `settle`.
-/

namespace AutoDiff

structure Binary64 where
  bits : UInt64
  deriving DecidableEq, Repr, Inhabited

namespace Binary64

def infinity : Binary64 := ⟨0x7ff0000000000000⟩
def nan : Binary64 := ⟨0x7ff8000000000000⟩

/-- The NaN of an invalid operation on numbers has its sign bit set. -/
def invalid : Binary64 := ⟨0xfff8000000000000⟩

def isNegative (x : Binary64) : Bool := x.bits >>> 63 == 1
def exponentField (x : Binary64) : Nat := (x.bits >>> 52 &&& 0x7ff).toNat
def fractionField (x : Binary64) : Nat := (x.bits &&& 0xfffffffffffff).toNat

def isFinite (x : Binary64) : Bool := x.exponentField != 0x7ff
def isNaN (x : Binary64) : Bool := x.exponentField == 0x7ff && x.fractionField != 0

def toFloat (x : Binary64) : Float := Float.ofBits x.bits

/-- A NaN result is the first operand that is a NaN, or `invalid` when no operand is one. -/
def settle (operands : List Binary64) (result : Float) : Binary64 :=
  if result.isNaN then (operands.find? isNaN).getD invalid else ⟨result.toBits⟩

def neg (x : Binary64) : Binary64 := ⟨x.bits ^^^ 0x8000000000000000⟩

def negIf (negative : Bool) (x : Binary64) : Binary64 := if negative then x.neg else x

def lift (f : Float → Float) (x : Binary64) : Binary64 := settle [x] (f x.toFloat)

def lift₂ (f : Float → Float → Float) (x y : Binary64) : Binary64 :=
  settle [x, y] (f x.toFloat y.toFloat)

def mul (x y : Binary64) : Binary64 := lift₂ Float.mul x y
def div (x y : Binary64) : Binary64 := lift₂ Float.div x y

/-- Numeric equality: the two zeros are equal and a NaN equals nothing. -/
def equal (x y : Binary64) : Bool := x.toFloat == y.toFloat

def lt (x y : Binary64) : Bool := x.toFloat < y.toFloat

/-- The number nearest to `coefficient * 10 ^ exponent`. -/
def ofScientific (coefficient : Nat) (exponent : Int) : Binary64 :=
  ⟨(Float.ofScientific coefficient (exponent < 0) exponent.natAbs).toBits⟩

def ofNat (n : Nat) : Binary64 := ofScientific n 0

def ofInt (n : Int) : Binary64 := negIf (n < 0) (ofNat n.natAbs)

/-- `result * base ^ n`, multiplying into `result` at the one bits of `n` and squaring between. -/
def powerLoop (result base : Binary64) (n : Nat) : Binary64 :=
  let result := if n % 2 = 1 then mul result base else result
  if n / 2 = 0 then result else powerLoop result (mul base base) (n / 2)
termination_by n

/-- Integer powers; a negative exponent takes the reciprocal of the positive power. -/
def power (base : Binary64) (exponent : Int) : Binary64 :=
  let positive := powerLoop (ofNat 1) base exponent.natAbs
  if exponent < 0 then div (ofNat 1) positive else positive

end Binary64

end AutoDiff
