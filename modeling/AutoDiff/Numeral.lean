import AutoDiff.Binary64.Basic
import AutoDiff.Text.Blank

/-!
Decimal numerals as they are written: a sign, the digits before and after the point, and an
exponent. `text` writes a numeral, `nearest` is the number it denotes, rounded once.
-/

namespace AutoDiff

abbrev Digit := Fin 10

namespace Digit

def toChar (d : Digit) : Char := Char.ofNat (d.val + '0'.toNat)

def ofChar? (c : Char) : Option Digit :=
  if h : '0'.toNat ≤ c.toNat ∧ c.toNat - '0'.toNat < 10 then some ⟨c.toNat - '0'.toNat, h.2⟩ else none

/-- The longest run of digits that a text starts with, and the rest of the text. -/
def run : List Char → List Digit × List Char
  | [] => ([], [])
  | c :: rest =>
    match ofChar? c with
    | some d => let (ds, rest) := run rest; (d :: ds, rest)
    | none => ([], c :: rest)

/-- The natural number whose decimal digits, first digit first, are `digits`. -/
def value (digits : List Digit) : Nat := digits.foldl (fun n d => 10 * n + d.val) 0

/-- The decimal digits of a natural number without leading zeros; zero has the one digit `0`. -/
def ofNat (n : Nat) : List Digit :=
  if n < 10 then [⟨n % 10, Nat.mod_lt n (by decide)⟩]
  else ofNat (n / 10) ++ [⟨n % 10, Nat.mod_lt n (by decide)⟩]
termination_by n

end Digit

structure Numeral where
  negative : Bool := false
  whole : List Digit
  fraction : List Digit := []
  exponent : Option Int := none
  deriving DecidableEq, Repr, Inhabited

namespace Numeral

def ofInt (n : Int) : Numeral := { negative := n < 0, whole := Digit.ofNat n.natAbs }

def exponentChars (plus : Bool) (e : Int) : List Char :=
  'e' :: (if e < 0 then ['-'] else if plus then ['+'] else []) ++ (Digit.ofNat e.natAbs).map Digit.toChar

/-- The characters of a numeral; `plus` says whether an exponent that is not negative has a sign. -/
def chars (plus : Bool) (n : Numeral) : List Char :=
  (if n.negative then ['-'] else []) ++ n.whole.map Digit.toChar
    ++ (if n.fraction.isEmpty then [] else '.' :: n.fraction.map Digit.toChar)
    ++ (match n.exponent with | some e => exponentChars plus e | none => [])

def text (plus : Bool) (n : Numeral) : String := String.ofList (n.chars plus)

/-- The binary64 number nearest to the numeral, a tie going to the even neighbour. -/
def nearest (n : Numeral) : Binary64 :=
  (Binary64.ofScientific (Digit.value (n.whole ++ n.fraction))
    (n.exponent.getD 0 - n.fraction.length)).negIf n.negative

def isSign (c : Char) : Bool := c == '+' || c == '-'

/-- An optional sign: whether it is negative, and the rest of the text. -/
def sign : List Char → Bool × List Char
  | '-' :: rest => (true, rest)
  | '+' :: rest => (false, rest)
  | rest => (false, rest)

/-- An exponent part, with at least one digit, or nothing. -/
def exponent? : List Char → Option (Option Int × List Char)
  | c :: rest =>
    if c = 'e' ∨ c = 'E' then
      let (negative, rest) := sign rest
      match Digit.run rest with
      | ([], _) => none
      | (ds, rest) => some (some (if negative then -(Digit.value ds : Int) else Digit.value ds), rest)
    else some (none, c :: rest)
  | [] => some (none, [])

/-- A numeral with digits on at least one side of the point. -/
def parse? (cs : List Char) : Option Numeral := do
  let (negative, rest) := sign cs
  let (whole, rest) := Digit.run rest
  let (fraction, rest) := match rest with
    | '.' :: rest => Digit.run rest
    | rest => ([], rest)
  guard !(whole.isEmpty && fraction.isEmpty)
  let (exponent, rest) ← exponent? rest
  guard rest.isEmpty
  return { negative, whole, fraction, exponent }

end Numeral

namespace Binary64

/-- Reads a decimal numeral, or one of the names of the infinities and of NaN in any case. -/
def parse? (s : String) : Option Binary64 :=
  let (negative, rest) := Numeral.sign s.toList
  let name := Text.asciiLower (String.ofList rest)
  if name = "inf" ∨ name = "infinity" then some (infinity.negIf negative)
  else if name = "nan" then some (nan.negIf negative)
  else (Numeral.parse? s.toList).map Numeral.nearest

end Binary64

end AutoDiff
