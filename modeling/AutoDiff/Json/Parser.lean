import AutoDiff.Json.Basic

namespace AutoDiff.Json

open Text (hexValue?)

def isBlank (c : Char) : Bool := c == ' ' || c == '\n' || c == '\t' || c == '\r'

def skipBlanks (cs : List Char) : List Char := cs.dropWhile isBlank

/-- A UTF-16 code unit written with four hexadecimal digits. -/
def unit? : List Char → Option (Nat × List Char)
  | a :: b :: c :: d :: rest => do
    return (((← hexValue? a) * 16 + (← hexValue? b)) * 256 + (← hexValue? c) * 16 + (← hexValue? d), rest)
  | _ => none

/-- What an escape stands for; the outer `none` is a malformed escape. -/
def simpleEscape? : Char → Option Char
  | '"' => some '"'
  | '\\' => some '\\'
  | '/' => some '/'
  | 'b' => some '\x08'
  | 'f' => some '\x0c'
  | 'n' => some '\n'
  | 'r' => some '\r'
  | 't' => some '\t'
  | _ => none

/-- One element of a string: a character, or a code unit given by an escape. -/
inductive Element where
  | char (c : Char)
  | unit (n : Nat)
  deriving Repr

/-- The elements up to the closing quote. -/
def elements : Nat → List Char → Option (List Element × List Char)
  | 0, _ => none
  | fuel + 1, cs =>
    match cs with
    | [] => none
    | '"' :: rest => some ([], rest)
    | '\\' :: 'u' :: rest => do
      let (n, rest) ← unit? rest
      let (es, rest) ← elements fuel rest
      return (.unit n :: es, rest)
    | '\\' :: c :: rest => do
      let c ← simpleEscape? c
      let (es, rest) ← elements fuel rest
      return (.char c :: es, rest)
    | c :: rest => do
      guard (c ≠ '\\' ∧ 0x20 ≤ c.val)
      let (es, rest) ← elements fuel rest
      return (.char c :: es, rest)

def isHigh (n : Nat) : Bool := 0xd800 ≤ n && n < 0xdc00
def isLow (n : Nat) : Bool := 0xdc00 ≤ n && n < 0xe000

/-- The characters of a string; `none` if a surrogate stands alone. -/
def text? : List Element → Option (List Char)
  | [] => some []
  | .char c :: es => (c :: ·) <$> text? es
  | .unit high :: .unit low :: es =>
    if isHigh high then
      if isLow low then (Char.ofNat (0x10000 + (high - 0xd800) * 0x400 + (low - 0xdc00)) :: ·) <$> text? es
      else none
    else if isLow high then none
    else (Char.ofNat high :: ·) <$> text? (.unit low :: es)
  | .unit n :: es => if isHigh n || isLow n then none else (Char.ofNat n :: ·) <$> text? es

/-- A string after its opening quote. -/
def stringBody? (cs : List Char) : Option (Option String × List Char) := do
  let (es, rest) ← elements (cs.length + 1) cs
  return ((text? es).map String.ofList, rest)

/-- Digits, the first of which is not zero unless it is alone. -/
def isWhole : List Digit → Bool
  | [] => false
  | [_] => true
  | d :: _ => 0 < d.val

/-- A number has no leading zeros, and digits on both sides of a point. -/
def numeral? (cs : List Char) : Option (Numeral × List Char) := do
  let (negative, rest) := match cs with
    | '-' :: rest => (true, rest)
    | rest => (false, rest)
  let (whole, rest) := Digit.run rest
  guard (isWhole whole)
  let (fraction, rest) ← match rest with
    | '.' :: rest =>
      let (fraction, rest) := Digit.run rest
      if fraction.isEmpty then none else some (fraction, rest)
    | rest => some ([], rest)
  let (exponent, rest) ← Numeral.exponent? rest
  return ({ negative, whole, fraction, exponent }, rest)

/-- Drops a word that the text has to start with. -/
def expect? (word cs : List Char) : Option (List Char) :=
  if word.isPrefixOf cs then some (cs.drop word.length) else none

mutual

/-- A value, after blanks. -/
def value? : Nat → List Char → Option (Json × List Char)
  | 0, _ => none
  | fuel + 1, cs =>
    match skipBlanks cs with
    | [] => none
    | 'n' :: rest => do return (null, ← expect? ['u', 'l', 'l'] rest)
    | 't' :: rest => do return (bool true, ← expect? ['r', 'u', 'e'] rest)
    | 'f' :: rest => do return (bool false, ← expect? ['a', 'l', 's', 'e'] rest)
    | '"' :: rest => do
      let (s, rest) ← stringBody? rest
      return (string s, rest)
    | '[' :: rest =>
      match skipBlanks rest with
      | ']' :: rest => some (array [], rest)
      | rest => do
        let (items, rest) ← items? fuel rest
        return (array items, rest)
    | '{' :: rest =>
      match skipBlanks rest with
      | '}' :: rest => some (object [], rest)
      | rest => do
        let (members, rest) ← members? fuel rest
        return (object members, rest)
    | rest => do
      let (n, rest) ← numeral? rest
      return (number n, rest)

/-- One or more items up to the closing bracket. -/
def items? : Nat → List Char → Option (List Json × List Char)
  | 0, _ => none
  | fuel + 1, cs => do
    let (item, rest) ← value? fuel cs
    match skipBlanks rest with
    | ']' :: rest => some ([item], rest)
    | ',' :: rest => do
      let (items, rest) ← items? fuel rest
      return (item :: items, rest)
    | _ => none

/-- One or more members up to the closing brace. -/
def members? : Nat → List Char → Option (List (Option String × Json) × List Char)
  | 0, _ => none
  | fuel + 1, cs =>
    match skipBlanks cs with
    | '"' :: rest => do
      let (key, rest) ← stringBody? rest
      match skipBlanks rest with
      | ':' :: rest => do
        let (item, rest) ← value? fuel rest
        match skipBlanks rest with
        | '}' :: rest => some ([(key, item)], rest)
        | ',' :: rest => do
          let (members, rest) ← members? fuel rest
          return ((key, item) :: members, rest)
        | _ => none
      | _ => none
    | _ => none

end

def parseChars? (cs : List Char) : Option Json := do
  let (j, rest) ← value? (cs.length + 1) cs
  guard (skipBlanks rest).isEmpty
  return j

def parse? (text : String) : Option Json := parseChars? text.toList

end AutoDiff.Json
