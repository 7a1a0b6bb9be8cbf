import AutoDiff.Toml.Form

namespace AutoDiff.Toml

inductive Value where
  | text (s : String)
  | flag (b : Bool)
  | texts (ss : List String)
  deriving DecidableEq, Repr

abbrev Document := List (String × Value)

/-- Lists of more than one string have one a line. -/
def listChars : List String → List Char
  | [] => ['[', ']']
  | [s] => '[' :: quote s ++ [']']
  | ss => '[' :: '\n' :: ss.flatMap (fun s => [' ', ' ', ' ', ' '] ++ quote s ++ [',', '\n']) ++ [']']

def Value.chars : Value → List Char
  | text s => quote s
  | flag true => ['t', 'r', 'u', 'e']
  | flag false => ['f', 'a', 'l', 's', 'e']
  | texts ss => listChars ss

def entryChars (entry : String × Value) : List Char :=
  entry.1.toList ++ [' ', '=', ' '] ++ entry.2.chars ++ ['\n']

/-- The text of a table whose keys need no quotes. -/
def render (d : Document) : String := String.ofList (d.flatMap entryChars)

end AutoDiff.Toml
