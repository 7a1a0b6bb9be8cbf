import AutoDiff.Text.Hexadecimal

namespace AutoDiff.Toml

/-- A tab is not counted; a line feed is. -/
def isControl (c : Char) : Bool := (c.val < 0x20 && c ≠ '\t') || c.val == 0x7f

structure Form where
  /-- Whether a backslash starts an escape. -/
  escapes : Bool
  /-- Whether the mark is tripled, so that line ends may stand in the string. -/
  lines : Bool
  deriving DecidableEq, Repr

namespace Form

def basic : Form := ⟨true, false⟩
def literal : Form := ⟨false, false⟩
def basicLines : Form := ⟨true, true⟩
def literalLines : Form := ⟨false, true⟩

def mark (f : Form) : Char := if f.escapes then '"' else '\''

def delimiter (f : Form) : List Char := List.replicate (if f.lines then 3 else 1) f.mark

/-- How many marks may stand in a row inside the string. -/
def quotable (f : Form) : Nat := if f.lines then 2 else 0

/-- Whether a character may stand for itself, marks and backslashes apart. -/
def admits (f : Form) (c : Char) : Bool := !isControl c || (f.lines && c == '\n')

/-- Whether no more than `bound` marks stand in a row, `run` of them before the text. -/
def runsWithin (mark : Char) (bound : Nat) : Nat → List Char → Bool
  | _, [] => true
  | run, c :: cs => if c = mark then run < bound && runsWithin mark bound (run + 1) cs else runsWithin mark bound 0 cs

/-- Whether a text needs no escapes, a tab apart. -/
def fits (f : Form) (cs : List Char) : Bool :=
  cs.all f.admits && runsWithin f.mark f.quotable 0 cs && !(f.escapes && cs.contains '\\')

/-- The first form that a text fits; a text that fits none is escaped. -/
def choose (cs : List Char) : Form :=
  ([basic, literal, basicLines, literalLines].find? (·.fits cs)).getD (if cs.contains '\n' then basicLines else basic)

def escapeChar (f : Form) (c : Char) : List Char :=
  match c with
  | '\x08' => ['\\', 'b']
  | '\t' => ['\\', 't']
  | '\n' => if f.lines then ['\n'] else ['\\', 'n']
  | '\x0c' => ['\\', 'f']
  | '\r' => ['\\', 'r']
  | '\\' => ['\\', '\\']
  | c =>
    if isControl c then
      ['\\', 'u', '0', '0', (Text.hexDigit (c.toNat / 16)).toUpper, (Text.hexDigit c.toNat).toUpper]
    else [c]

/-- The text between the marks of a form with escapes, `run` marks having been written before it.
A mark that would be one too many in a row is escaped. -/
def escaped (f : Form) : Nat → List Char → List Char
  | _, [] => []
  | run, c :: cs =>
    if c = '"' then
      if run < f.quotable then '"' :: f.escaped (run + 1) cs else '\\' :: '"' :: f.escaped 0 cs
    else f.escapeChar c ++ f.escaped 0 cs

/-- A string in this form. One with line ends starts on a line of its own. -/
def write (f : Form) (cs : List Char) : List Char :=
  f.delimiter ++ (if f.lines && cs.contains '\n' then ['\n'] else [])
    ++ (if f.escapes then f.escaped 0 cs else cs) ++ f.delimiter

end Form

def quote (text : String) : List Char := (Form.choose text.toList).write text.toList

end AutoDiff.Toml
