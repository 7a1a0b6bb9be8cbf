import AutoDiff.Text.ByteText

namespace AutoDiff.Shell

inductive Direction where
  | input | output | append | both
  /-- For output, also to a file that has to be kept otherwise. -/
  | clobber
  | duplicateInput | duplicateOutput
  /-- The input is a text in the script, known by its number. -/
  | here (number : Nat)
  deriving DecidableEq, Repr

mutual

inductive Part where
  | char (quoted : Bool) (c : Char)
  /-- Quotes, which make a field even where nothing stands between them. -/
  | quotes
  | parameter (quoted : Bool) (name : ByteText) (use : Use)
  | command (quoted : Bool) (body : Option Command)
  | arithmetic (quoted : Bool) (expression : List Part)

/-- What a parameter is used for. Some uses also apply to a parameter that is empty. -/
inductive Use where
  | value
  | length
  | default (empty : Bool) (word : List Part)
  | assign (empty : Bool) (word : List Part)
  | demand (empty : Bool) (word : List Part)
  | alternative (empty : Bool) (word : List Part)
  | trim (front greedy : Bool) (pattern : List Part)
  | unknown

inductive Redirection where
  | mk (stream : Nat) (direction : Direction) (word : List Part)

inductive Command where
  | simple (line : Nat) (assignments : List (ByteText × List Part)) (words : List (List Part))
      (redirections : List Redirection)
  | redirected (line : Nat) (body : Command) (redirections : List Redirection)
  | subshell (line : Nat) (body : Command) (redirections : List Redirection)
  | background (line : Nat) (body : Command)
  | pipeline (commands : List Command)
  | negated (body : Command)
  | both (left right : Command)
  | either (left right : Command)
  | sequence (left right : Command)
  | branch (test yes : Command) (no : Option Command)
  | loop (untilTrue : Bool) (test body : Command)
  | each (line : Nat) (name : ByteText) (words : List (List Part)) (body : Command)
  | cases (line : Nat) (word : List Part) (clauses : List (List (List Part) × Option Command))
  | define (name : ByteText) (body : Command)

end

abbrev Word := List Part

/-- The text of a word that is written without quotes and parameters. -/
def plain? : Word → Option ByteText
  | [] => some []
  | .char false c :: rest => (plain? rest).map (c :: ·)
  | _ => none

/-- The text of a word without its quotes, if it has no parameters. -/
def unquoted : Word → ByteText
  | [] => []
  | .char _ c :: rest => c :: unquoted rest
  | _ :: rest => unquoted rest

def isQuoted (w : Word) : Bool :=
  w.any fun
    | .char quoted _ => quoted
    | .quotes => true
    | .parameter quoted _ _ | .command quoted _ | .arithmetic quoted _ => quoted

def isNameStart (c : Char) : Bool := c.isAlpha || c == '_'

def isNameChar (c : Char) : Bool := c.isAlphanum || c == '_'

def isName (t : ByteText) : Bool := t.head?.any isNameStart && t.all isNameChar

/-- A word of the form `name=value`. -/
def assignment? (w : Word) : Option (ByteText × Word) :=
  let name := (w.takeWhile fun | .char false c => isNameChar c | _ => false)
  match w.drop name.length with
  | .char false '=' :: value => if isName (unquoted name) then some (unquoted name, value) else none
  | _ => none

end AutoDiff.Shell
