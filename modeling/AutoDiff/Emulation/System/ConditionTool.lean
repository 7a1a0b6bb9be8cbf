import AutoDiff.Emulation.System.Condition
import AutoDiff.Emulation.System.FileTools

namespace AutoDiff.ConditionTool

def binaries : List String :=
  ["=", "==", "!=", "<", ">", "-eq", "-ne", "-lt", "-le", "-gt", "-ge", "-nt", "-ot", "-ef"]

def isBinary (word : ByteText) : Bool := binaries.contains (String.ofList word)

def unaries : String := "aerwxNOGfdsScbpugkLhtnz"

/-- The words that are left, and the last one of all. -/
structure Words where
  rest : List ByteText
  last : ByteText := []

abbrev Evaluation := StateT Words (Except ByteText)

def missing {α : Type} : Evaluation α := do
  throw (.ofString "missing argument after " ++ FileTools.quoted (← get).last)

/-- The next word, which has to be there. -/
def next : Evaluation ByteText := do
  match (← get).rest with
  | [] => missing
  | word :: rest =>
    modify fun w => { w with rest }
    return word

def ofExcept (e : Except ByteText Bool) : Evaluation Bool := .lift e

def number (word : ByteText) : Evaluation Int := do
  let s := Format.scanInteger word
  if s.found && (s.rest.dropWhile Format.isSpace).isEmpty then return s.value
  else throw (.ofString "invalid integer " ++ FileTools.quoted word)

def unary (p : Condition.Place) : Evaluation Bool := do
  let operator ← next
  let known : Bool := match operator with
    | ['-', letter] => unaries.toList.contains letter
    | _ => false
  if !known then throw (FileTools.quoted operator ++ .ofString ": unary operator expected")
  let word ← next
  if operator = ['-', 't'] then
    let _ ← number word
    return false
  ofExcept (Condition.unaryHolds p (if operator = ['-', 'a'] then "-e" else String.ofList operator) word)

def compares (operator : String) (a b : Int) : Bool :=
  match operator with
  | "-eq" => a = b
  | "-ne" => a ≠ b
  | "-lt" => a < b
  | "-le" => a ≤ b
  | "-gt" => b < a
  | _ => b ≤ a

def binary (p : Condition.Place) : Evaluation Bool := do
  let left ← next
  let operator := String.ofList (← next)
  let right ← next
  if ["-eq", "-ne", "-lt", "-le", "-gt", "-ge"].contains operator then
    return compares operator (← number left) (← number right)
  ofExcept (Condition.binaryHolds p (if operator = "==" then "=" else operator) left right)

def oneWord : Evaluation Bool := return !(← next).isEmpty

def twoWords (p : Condition.Place) : Evaluation Bool := do
  match (← get).rest with
  | ['!'] :: _ => do
    let _ ← next
    return !(← oneWord)
  | ['-', _] :: _ => unary p
  | _ => missing

/-- Whether a word is at the start, which is then skipped. -/
def accept (word : ByteText) : Evaluation Bool := do
  match (← get).rest with
  | first :: rest =>
    if first = word then
      modify fun w => { w with rest }
      return true
    else return false
  | [] => return false

mutual

/-- A condition of so many words. -/
def counted (p : Condition.Place) : Nat → Nat → Evaluation Bool
  | 0, _ => missing
  | fuel + 1, count => do
    let rest := (← get).rest.take count
    match rest with
    | [_] => oneWord
    | [_, _] => twoWords p
    | [first, second, third] =>
      if isBinary second then binary p
      else if first = ['!'] then
        let _ ← next
        return !(← twoWords p)
      else if first = ['('] ∧ third = [')'] then
        let _ ← next
        let holds ← oneWord
        let _ ← next
        return holds
      else if second = ['-', 'a'] ∨ second = ['-', 'o'] then disjunction p fuel
      else throw (FileTools.quoted second ++ .ofString ": binary operator expected")
    | [first, _, _, fourth] =>
      if first = ['!'] then
        let _ ← next
        return !(← counted p fuel 3)
      else if first = ['('] ∧ fourth = [')'] then
        let _ ← next
        let holds ← twoWords p
        let _ ← next
        return holds
      else disjunction p fuel
    | _ => disjunction p fuel

def disjunction (p : Condition.Place) : Nat → Evaluation Bool
  | 0 => missing
  | fuel + 1 => do
    let left ← conjunction p fuel
    if ← accept ['-', 'o'] then
      let right ← disjunction p fuel
      return left || right
    else return left

def conjunction (p : Condition.Place) : Nat → Evaluation Bool
  | 0 => missing
  | fuel + 1 => do
    let left ← term p fuel
    if ← accept ['-', 'a'] then
      let right ← conjunction p fuel
      return left && right
    else return left

def term (p : Condition.Place) : Nat → Evaluation Bool
  | 0 => missing
  | fuel + 1 => do
    match (← get).rest with
    | [] => missing
    | ['!'] :: _ => do
      let _ ← next
      return !(← term p fuel)
    | ['('] :: inner => do
      let _ ← next
      if inner.isEmpty then missing
      let closing := (inner.drop 1).takeWhile (· ≠ [')'])
      let holds ← counted p fuel (if closing.length < 3 then closing.length + 1 else inner.length)
      match (← get).rest with
      | [] => throw (.ofString "')' expected")
      | [')'] :: _ => do
        let _ ← next
        return holds
      | found :: _ => throw (.ofString "')' expected, found " ++ FileTools.quoted found)
    | _ :: second :: _ :: _ => if isBinary second then binary p else simple
    | _ => simple
where
  simple : Evaluation Bool := do
    match (← get).rest with
    | ['-', _] :: _ => unary p
    | _ => oneWord

end

def check (p : Condition.Place) (words : List ByteText) : Except ByteText Bool :=
  if words.isEmpty then .ok false
  else do
    let (holds, w) ← (counted p (4 * words.length + 8) words.length).run { rest := words, last := words.getLastD [] }
    match w.rest with
    | [] => return holds
    | word :: _ => throw (.ofString "extra argument " ++ FileTools.quoted word)

/-- Runs the program; under the name of a bracket it wants the other one at the end. -/
def run (bracket : Bool) (c : Call) : Running Nat := do
  if bracket ∧ c.arguments.getLast? ≠ some [']'] then
    c.complainText "missing ']'"
    return 2
  let m ← get
  match check ⟨m.disk, c.directory⟩ (if bracket then c.arguments.dropLast else c.arguments) with
  | .ok holds => return if holds then 0 else 1
  | .error message =>
    c.complain message
    return 2

end AutoDiff.ConditionTool
