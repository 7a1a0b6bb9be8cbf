import AutoDiff.Emulation.System.Format

namespace AutoDiff.Condition

inductive Kind where
  | operand | unary | binary | not | and | or | left | right | nothing
  deriving DecidableEq, Repr

def unaryNames : List String :=
  ["-r", "-w", "-x", "-e", "-f", "-d", "-c", "-b", "-p", "-u", "-g", "-k", "-s", "-t", "-z", "-n", "-h", "-L", "-O",
    "-G", "-S"]

def binaryNames : List String :=
  ["=", "!=", "<", ">", "-eq", "-ne", "-ge", "-gt", "-le", "-lt", "-nt", "-ot", "-ef"]

/-- What a word is if it can be an operator. -/
def operator? (word : ByteText) : Option Kind :=
  let name := String.ofList word
  if unaryNames.contains name then some .unary
  else if binaryNames.contains name then some .binary
  else [("!", .not), ("-a", .and), ("-o", .or), ("(", .left), (")", .right)].lookup name

/-- Whether a unary operator has to be read as an operand, because of what follows it. -/
def isOperand : List ByteText → Bool
  | [] => true
  | [_] => false
  | word :: _ => decide (operator? word = some .binary)

/-- What the first of some words is. -/
def kind : List ByteText → Kind
  | [] => .nothing
  | word :: rest =>
    match operator? word with
    | some .unary => if isOperand rest then .operand else .unary
    | some .left => if rest.isEmpty then .operand else .left
    | some k => k
    | none => .operand

/-- Where conditions on files are looked up. -/
structure Place where
  disk : Disk
  directory : Location

def Place.entry? (p : Place) (name : ByteText) : Option Entry := (p.disk.find p.directory ⟨name.text⟩).toOption

def number (word : ByteText) : Except ByteText Int :=
  let s := Format.scanInteger word
  if s.found && (s.rest.dropWhile Format.isSpace).isEmpty then .ok s.value
  else .error (.ofString "Illegal number: " ++ word)

def size : Entry → Nat
  | .file content _ => content.byteText.length
  | .directory => 4096
  | .sink => 0

def unaryHolds (p : Place) (operator : String) (word : ByteText) : Except ByteText Bool :=
  let entry := p.entry? word
  match operator with
  | "-z" => .ok word.isEmpty
  | "-n" => .ok !word.isEmpty
  | "-t" => (number word).map fun _ => false
  | "-r" | "-w" | "-e" | "-O" | "-G" => .ok entry.isSome
  | "-f" => .ok (entry.any Entry.isFile)
  | "-d" => .ok (decide (entry = some .directory))
  | "-c" => .ok (decide (entry = some .sink))
  | "-s" => .ok (entry.any fun e => 0 < size e)
  | "-x" => .ok (match entry with | some .directory => true | some (.file _ executable) => executable | _ => false)
  | _ => .ok false

def compareNumbers (left right : ByteText) (holds : Int → Int → Bool) : Except ByteText Bool := do
  return holds (← number left) (← number right)

def binaryHolds (p : Place) (operator : String) (left right : ByteText) : Except ByteText Bool :=
  match operator with
  | "=" => .ok (left = right)
  | "!=" => .ok (left ≠ right)
  | "<" => .ok (decide (left < right))
  | ">" => .ok (decide (right < left))
  | "-eq" => compareNumbers left right fun a b => a = b
  | "-ne" => compareNumbers left right fun a b => a ≠ b
  | "-ge" => compareNumbers left right fun a b => b ≤ a
  | "-gt" => compareNumbers left right fun a b => b < a
  | "-le" => compareNumbers left right fun a b => a ≤ b
  | "-lt" => compareNumbers left right fun a b => a < b
  | "-ef" =>
    .ok ((p.entry? left).isSome
      && decide ((p.disk.locate p.directory ⟨left.text⟩).toOption = (p.disk.locate p.directory ⟨right.text⟩).toOption))
  | _ => .ok ((p.entry? left).isSome && (p.entry? right).isNone)

/-- The value of a condition, and the words from the last one that was used. -/
abbrev Reading := Except ByteText (Bool × List ByteText)

def missing (operator : ByteText) : ByteText := operator ++ .ofString ": argument expected"

def operation (p : Place) (left : ByteText) : List ByteText → Reading
  | operator :: right :: rest => do
    return (← binaryHolds p (String.ofList operator) left right, right :: rest)
  | operator :: _ => .error (missing operator)
  | [] => .ok (!left.isEmpty, [left])

mutual

def disjunction (p : Place) : Nat → Kind → List ByteText → Reading
  | 0, _, words => .ok (false, words)
  | fuel + 1, k, words => do
    let (holds, words) ← conjunction p fuel k words
    if kind words.tail = .or then
      let rest := words.tail.tail
      let (other, rest) ← disjunction p fuel (kind rest) rest
      return (holds || other, rest)
    else return (holds, words)

def conjunction (p : Place) : Nat → Kind → List ByteText → Reading
  | 0, _, words => .ok (false, words)
  | fuel + 1, k, words => do
    let (holds, words) ← negation p fuel k words
    if kind words.tail = .and then
      let rest := words.tail.tail
      let (other, rest) ← conjunction p fuel (kind rest) rest
      return (holds && other, rest)
    else return (holds, words)

def negation (p : Place) : Nat → Kind → List ByteText → Reading
  | 0, _, words => .ok (false, words)
  | fuel + 1, k, words => do
    if k = .not then
      let next := words.tail
      let (holds, rest) ← negation p fuel (kind next) (if next.isEmpty then words else next)
      return (!holds, rest)
    else primary p fuel k words

def primary (p : Place) : Nat → Kind → List ByteText → Reading
  | 0, _, words => .ok (false, words)
  | fuel + 1, k, words => do
    match k, words with
    | .nothing, _ | _, [] => return (false, words)
    | .left, _ :: rest =>
      if kind rest = .right then return (false, rest)
      let (holds, rest) ← disjunction p fuel (kind rest) rest
      if kind rest.tail = .right then return (holds, rest.tail)
      throw (.ofString "closing paren expected")
    | .unary, operator :: word :: rest => return (← unaryHolds p (String.ofList operator) word, word :: rest)
    | .unary, [operator] => throw (missing operator)
    | _, word :: rest =>
      if kind rest = .binary then operation p word rest else return (!word.isEmpty, word :: rest)

end

/-- Whether a condition holds. Three words with an operator in the middle are a comparison whatever the first
one is. -/
def holds (p : Place) : Nat → List ByteText → Except ByteText Bool
  | 0, _ | _, [] => .ok false
  | fuel + 1, words => do
    let whole (k : Kind) (words : List ByteText) : Except ByteText Bool := do
      let (value, rest) ← disjunction p (8 * words.length + 8) k words
      match rest with
      | word :: _ :: _ => throw (word ++ .ofString ": unexpected operator")
      | _ => return value
    let compared : Bool := match words with
      | [_, operator, _] => decide (operator? operator = some .binary)
      | _ => false
    if compared then whole .operand words
    else if words.length = 3 ∨ words.length = 4 then
      if words.head? = some ['('] ∧ words.getLast? = some [')'] then
        whole (kind (words.tail.dropLast)) words.tail.dropLast
      else if words.head? = some ['!'] then return !(← holds p fuel words.tail)
      else whole (kind words) words
    else whole (kind words) words

def check (p : Place) (words : List ByteText) : Except ByteText Bool := holds p (words.length + 1) words

end AutoDiff.Condition
