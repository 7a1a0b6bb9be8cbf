import AutoDiff.Emulation.Shell.Syntax
import AutoDiff.Emulation.System.Format

namespace AutoDiff.Shell.Arithmetic

inductive Sign where
  | number (n : Int)
  | variable (name : ByteText)
  | operator (text : String)
  | wrong
  deriving DecidableEq, Repr

def operators : List String :=
  ["<<=", ">>=", "==", "!=", "<=", ">=", "<<", ">>", "&&", "||", "+=", "-=", "*=", "/=", "%=", "&=", "^=", "|=", "+", "-",
    "*", "/", "%", "&", "|", "^", "~", "!", "<", ">", "=", "?", ":", "(", ")"]

def signs : Nat → ByteText → List Sign
  | 0, _ => []
  | fuel + 1, cs =>
    match cs with
    | [] => []
    | c :: rest =>
      if c = ' ' ∨ c = '\t' ∨ c = '\n' then signs fuel rest
      else if c.isDigit then
        match Format.magnitude cs with
        | some (n, rest) => .number (Format.clampSigned n) :: signs fuel rest
        | none => [.wrong]
      else if isNameStart c then
        let name := cs.takeWhile isNameChar
        .variable name :: signs fuel (cs.drop name.length)
      else match operators.find? fun o => o.toList.isPrefixOf cs with
        | some o => .operator o :: signs fuel (cs.drop o.length)
        | none => [.wrong]

/-- A calculation that reads the variables, some of which it has set. -/
structure State where
  value? : ByteText → Option ByteText
  assigned : List (ByteText × Int) := []
  rest : List Sign

/-- An error either concerns the expression or a variable that is no number. -/
inductive Error where
  | expression (message : String)
  | illegalNumber (text : ByteText)

abbrev Calculation := StateT State (Except Error)

def fail {α : Type} (message : String) : Calculation α := throw (.expression message)

/-- A number in 64 bits. -/
def wrap (n : Int) : Int := (Int64.ofInt n).toInt

def lookup (name : ByteText) : Calculation Int := do
  let s ← get
  match s.assigned.lookup name with
  | some n => return n
  | none =>
    match s.value? name with
    | none | some [] => return 0
    | some text =>
      let scanned := Format.scanInteger text
      if scanned.found ∧ (scanned.rest.dropWhile Format.isSpace).isEmpty then return Format.clampSigned scanned.value
      throw (.illegalNumber text)

def assign (name : ByteText) (n : Int) : Calculation Unit := modify fun s => { s with assigned := (name, n) :: s.assigned }

def peek? : Calculation (Option Sign) := return (← get).rest.head?

def skip : Calculation Unit := modify fun s => { s with rest := s.rest.tail }

/-- Takes an operator if it comes next. -/
def accept (o : String) : Calculation Bool := do
  if (← peek?) = some (.operator o) then
    skip
    return true
  else return false

def ofBool (b : Bool) : Int := if b then 1 else 0

def shiftLeft (a b : Int) : Int := wrap (a * (Nat.pow 2 ((b % 64 + 64) % 64).toNat : Nat))

def shiftRight (a b : Int) : Int := a.shiftRight ((b % 64 + 64) % 64).toNat

def bitwise (f : UInt64 → UInt64 → UInt64) (a b : Int) : Int :=
  (f (Int64.ofInt a).toUInt64 (Int64.ofInt b).toUInt64).toInt64.toInt

def binary (o : String) (a b : Int) : Calculation Int :=
  match o with
  | "+" => return wrap (a + b)
  | "-" => return wrap (a - b)
  | "*" => return wrap (a * b)
  | "/" => if b = 0 then fail "division by zero" else return wrap (a.tdiv b)
  | "%" => if b = 0 then fail "division by zero" else return wrap (a.tmod b)
  | "<<" => return shiftLeft a b
  | ">>" => return shiftRight a b
  | "<" => return ofBool (a < b)
  | "<=" => return ofBool (a ≤ b)
  | ">" => return ofBool (b < a)
  | ">=" => return ofBool (b ≤ a)
  | "==" => return ofBool (a = b)
  | "!=" => return ofBool (a ≠ b)
  | "&" => return bitwise (· &&& ·) a b
  | "^" => return bitwise (· ^^^ ·) a b
  | _ => return bitwise (· ||| ·) a b

/-- Greater numbers bind more tightly. -/
def precedence? (o : String) : Option Nat :=
  [("|", 1), ("^", 2), ("&", 3), ("==", 4), ("!=", 4), ("<", 5), ("<=", 5), (">", 5), (">=", 5), ("<<", 6), (">>", 6),
    ("+", 7), ("-", 7), ("*", 8), ("/", 8), ("%", 8)].lookup o

def assignments : List (String × String) :=
  [("+=", "+"), ("-=", "-"), ("*=", "*"), ("/=", "/"), ("%=", "%"), ("&=", "&"), ("^=", "^"), ("|=", "|"), ("<<=", "<<"),
    (">>=", ">>")]

/-- Carries out an operation, unless its value is not needed. -/
def binaryIf (needed : Bool) (o : String) (a b : Int) : Calculation Int := if needed then binary o a b else return b

mutual

def assignment : Nat → (needed : Bool) → Calculation Int
  | 0, _ => return 0
  | fuel + 1, needed => do
    match (← get).rest with
    | .variable name :: .operator "=" :: rest =>
      modify fun s => { s with rest }
      let n ← assignment fuel needed
      if needed then assign name n
      return n
    | .variable name :: .operator o :: rest =>
      match assignments.lookup o with
      | some o =>
        modify fun s => { s with rest }
        let n ← assignment fuel needed
        if !needed then return n
        let n ← binary o (← lookup name) n
        assign name n
        return n
      | none => conditional fuel needed
    | _ => conditional fuel needed

def conditional : Nat → (needed : Bool) → Calculation Int
  | 0, _ => return 0
  | fuel + 1, needed => do
    let test ← disjunction fuel needed
    if ← accept "?" then
      let yes ← assignment fuel (needed && test ≠ 0)
      unless ← accept ":" do fail "expecting ':'"
      let no ← conditional fuel (needed && test = 0)
      return if test ≠ 0 then yes else no
    else return test

def disjunction : Nat → (needed : Bool) → Calculation Int
  | 0, _ => return 0
  | fuel + 1, needed => do
    let a ← conjunction fuel needed
    if ← accept "||" then
      let b ← disjunction fuel (needed && a = 0)
      return ofBool (a ≠ 0 || b ≠ 0)
    else return a

def conjunction : Nat → (needed : Bool) → Calculation Int
  | 0, _ => return 0
  | fuel + 1, needed => do
    let a ← operand fuel needed
    let a ← operations fuel needed 1 a
    if ← accept "&&" then
      let b ← conjunction fuel (needed && a ≠ 0)
      return ofBool (a ≠ 0 && b ≠ 0)
    else return a

/-- Applies operations that bind as tightly as `level` at least. -/
def operations : Nat → (needed : Bool) → (level : Nat) → Int → Calculation Int
  | 0, _, _, a => return a
  | fuel + 1, needed, level, a => do
    match ← peek? with
    | some (.operator o) =>
      match precedence? o with
      | some p =>
        if p < level then return a
        skip
        let b ← operand fuel needed
        let b ← operations fuel needed (p + 1) b
        let a ← binaryIf needed o a b
        operations fuel needed level a
      | none => return a
    | _ => return a

def operand : Nat → (needed : Bool) → Calculation Int
  | 0, _ => return 0
  | fuel + 1, needed => do
    let sign ← peek?
    skip
    match sign with
    | some (.number n) => return n
    | some (.variable name) => if needed then lookup name else return 0
    | some (.operator "(") =>
      let n ← assignment fuel needed
      unless ← accept ")" do fail "expecting ')'"
      return n
    | some (.operator "+") => operand fuel needed
    | some (.operator "-") => return wrap (-(← operand fuel needed))
    | some (.operator "!") => return ofBool ((← operand fuel needed) = 0)
    | some (.operator "~") => return -(← operand fuel needed) - 1
    | _ => fail "expecting primary"

end

def whole (fuel : Nat) : Calculation Int := do
  let n ← assignment fuel true
  unless (← get).rest.isEmpty do fail "expecting EOF"
  return n

/-- The value of an expression, and the variables that it sets, the last one first. -/
def evaluate (value? : ByteText → Option ByteText) (text : ByteText) : Except Error (Int × List (ByteText × Int)) := do
  let rest := signs (text.length + 1) text
  let (n, s) ← (whole (16 * text.length + 32)).run { value?, rest }
  return (n, s.assigned)

end AutoDiff.Shell.Arithmetic
