import AutoDiff.Numeral
import AutoDiff.Text.Hexadecimal

/-!
JSON values and their text, compact and indented. Numbers are kept as they are written. A string is
`none` when it is well formed but an escape in it names half of a surrogate pair, so that it has no
text; members of objects are kept in order, repetitions included.
-/

namespace AutoDiff

inductive Json where
  | null
  | bool (b : Bool)
  | number (n : Numeral)
  | string (s : Option String)
  | array (items : List Json)
  | object (members : List (Option String × Json))
  deriving Repr, Inhabited

namespace Json

open Text (hexDigit)

def ofString (s : String) : Json := string (some s)
def ofNat (n : Nat) : Json := number (.ofInt n)
def ofInt (n : Int) : Json := number (.ofInt n)

def record (members : List (String × Json)) : Json := object (members.map fun (k, v) => (some k, v))

/-- Quotes, backslashes and control characters are escaped. -/
def escapeChar (c : Char) : List Char :=
  match c with
  | '"' => ['\\', '"']
  | '\\' => ['\\', '\\']
  | '\x08' => ['\\', 'b']
  | '\x0c' => ['\\', 'f']
  | '\n' => ['\\', 'n']
  | '\r' => ['\\', 'r']
  | '\t' => ['\\', 't']
  | c => if c.val < 0x20 then ['\\', 'u', '0', '0', hexDigit (c.toNat / 16), hexDigit c.toNat] else [c]

def quote (s : Option String) : List Char :=
  ['"'] ++ (match s with | some s => s.toList.flatMap escapeChar | none => []) ++ ['"']

mutual

/-- The text without blanks. -/
def chars : Json → List Char
  | null => ['n', 'u', 'l', 'l']
  | bool true => ['t', 'r', 'u', 'e']
  | bool false => ['f', 'a', 'l', 's', 'e']
  | number n => n.chars true
  | string s => quote s
  | array items => '[' :: itemChars items ++ [']']
  | object members => '{' :: memberChars members ++ ['}']

def itemChars : List Json → List Char
  | [] => []
  | [item] => chars item
  | item :: items => chars item ++ ',' :: itemChars items

def memberChars : List (Option String × Json) → List Char
  | [] => []
  | [(key, item)] => quote key ++ ':' :: chars item
  | (key, item) :: members => quote key ++ ':' :: chars item ++ ',' :: memberChars members

end

def newline (depth : Nat) : List Char := '\n' :: List.replicate (2 * depth) ' '

mutual

/-- The text with one item or member a line, indented by two blanks a level. -/
def prettyChars (depth : Nat) : Json → List Char
  | array [] => ['[', ']']
  | object [] => ['{', '}']
  | array items => '[' :: prettyItems (depth + 1) items ++ newline depth ++ [']']
  | object members => '{' :: prettyMembers (depth + 1) members ++ newline depth ++ ['}']
  | leaf => chars leaf

def prettyItems (depth : Nat) : List Json → List Char
  | [] => []
  | [item] => newline depth ++ prettyChars depth item
  | item :: items => newline depth ++ prettyChars depth item ++ ',' :: prettyItems depth items

def prettyMembers (depth : Nat) : List (Option String × Json) → List Char
  | [] => []
  | [(key, item)] => newline depth ++ quote key ++ ':' :: ' ' :: prettyChars depth item
  | (key, item) :: members =>
    newline depth ++ quote key ++ ':' :: ' ' :: prettyChars depth item ++ ',' :: prettyMembers depth members

end

def compact (j : Json) : String := String.ofList j.chars
def pretty (j : Json) : String := String.ofList (j.prettyChars 0)

end Json

end AutoDiff
