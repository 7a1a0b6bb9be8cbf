import AutoDiff.Emulation.System.RegularExpression
import AutoDiff.Emulation.System.TextTools

/-!
Programs that look for regular expressions: in lines, to select or to edit them, and in expressions.
-/

namespace AutoDiff.SearchTools

open TextTools

def lowered (fold : Bool) (ch : Char) : Char := if fold then ch.toLower else ch

/-! Selecting lines -/

structure Query where
  expressions : List RegularExpression
  fold : Char → Char
  whole : Bool
  word : Bool

def isWordChar (ch : Char) : Bool := ch.isAlphanum || ch == '_'

def Query.match? (q : Query) (line : ByteText) : Option RegularExpression.Match :=
  q.expressions.findSome? fun e =>
    let e := if q.whole then .sequence [.start, .group 0 e, .finish] else e
    (e.find? q.fold line).bind fun found =>
      if q.word ∧ ((found.before.getLast?.any isWordChar) ∨ (found.after.head?.any isWordChar)) then none else some found

def grepUsage (c : Call) : Running Nat := do
  c.printError (.ofString "Usage: grep [OPTION]... PATTERNS [FILE]...\nTry 'grep --help' for more information.\n")
  return 2

def grepOptions : OptionTable :=
  ⟨"0123456789A:B:C:D:EFGHILPTUVX:abcd:e:f:hiLlm:noqRrsuvwxyZz", [("ignore-case", 'i', false), ("invert-match", 'v', false),
    ("count", 'c', false), ("quiet", 'q', false), ("silent", 'q', false), ("regexp", 'e', true),
    ("extended-regexp", 'E', false), ("fixed-strings", 'F', false), ("basic-regexp", 'G', false), ("file", 'f', true),
    ("line-number", 'n', false), ("files-with-matches", 'l', false), ("files-without-match", 'L', false),
    ("max-count", 'm', true), ("no-messages", 's', false), ("only-matching", 'o', false), ("recursive", 'r', false),
    ("line-regexp", 'x', false), ("word-regexp", 'w', false), ("with-filename", 'H', false), ("no-filename", 'h', false)],
    false⟩

/-- The patterns among the options, in their order; those in a file are its lines. An error is what is said of a
file that cannot be read. -/
def grepPatterns (c : Call) (o : Options) : Running (Except ByteText (List ByteText)) := do
  let mut patterns : List ByteText := []
  for (letter, value) in o.given do
    if letter = 'e' then patterns := patterns ++ value.splitOn '\n'
    else if letter = 'f' then
      match ← contentOf c value with
      | .ok content => patterns := patterns ++ content.byteText.lines
      | .error e => return .error (plainComplaint value e)
    else if letter = 'm' ∧ (integer? value).isNone then return .error (.ofString "invalid max count")
    else if "ABC".toList.contains letter ∧ (decimal? value).isNone then
      return .error (value ++ .ofString ": invalid context length argument")
  return .ok patterns

def grep (c : Call) : Running Nat := do
  let o := grepOptions.parse c.arguments
  match ← grepPatterns c o, o.fault? with
  | .error message, _ => do
    c.complain message
    return 2
  | _, some message => do
    c.complainText message
    grepUsage c
  | .ok given, none =>
    if o.isAbout || o.has 'V' then
      c.mumbleTo 1
      return 0
    let fromOptions := o.has 'e' || o.has 'f'
    let (patterns, operands) := if fromOptions then (given, o.operands)
      else ((o.operands.take 1).flatMap (·.splitOn '\n'), o.operands.drop 1)
    if patterns.isEmpty && !fromOptions then return ← grepUsage c
    let kind := (o.given.filter fun (letter, _) => "EFGP".toList.contains letter).getLast?.map (·.1)
    let parse (p : ByteText) : Option RegularExpression :=
      if kind = some 'F' then some (.literal p) else RegularExpression.parse? (kind = some 'E' || kind = some 'P') p
    match patterns.mapM parse with
    | none => do
      c.mumble
      return 2
    | some expressions =>
      let q : Query := ⟨expressions, lowered (o.has 'i' || o.has 'y'), o.has 'x', o.has 'w'⟩
      let names := (1 < operands.length || o.has 'H') && !o.has 'h'
      let mut found := false
      let mut failed := false
      for p in (if operands.isEmpty then [['-']] else operands) do
        match ← contentOf c p with
        | .error e =>
          failed := true
          unless o.has 's' do c.complain (plainComplaint p e)
        | .ok content =>
          let mark : ByteText := if names then (if p = ['-'] then ByteText.ofString "(standard input)" else p) ++ [':'] else []
          let hits := (content.byteText.lines.zipIdx).filter fun (line, _) => (q.match? line).isSome != o.has 'v'
          let hits := match (o.value? 'm').bind decimal? with
            | some n => hits.take n
            | none => hits
          if !hits.isEmpty then found := true
          if o.has 'q' then pure ()
          else if o.has 'l' then
            unless hits.isEmpty do c.print (p ++ ['\n'])
          else if o.has 'L' then
            if hits.isEmpty then c.print (p ++ ['\n'])
          else if o.has 'c' then c.print (mark ++ ofNat hits.length ++ ['\n'])
          else
            for (line, i) in hits do
              let number : ByteText := if o.has 'n' then ofNat (i + 1) ++ [':'] else []
              if o.has 'o' then
                for part in matchesOf q (line.length + 1) line do c.print (mark ++ number ++ part ++ ['\n'])
              else c.print (mark ++ number ++ line ++ ['\n'])
      return if found && (o.has 'q' || !failed) then 0 else if failed then 2 else 1
where
  matchesOf (q : Query) : Nat → ByteText → List ByteText
    | 0, _ => []
    | fuel + 1, line =>
      match q.match? line with
      | some found =>
        if found.matched.isEmpty then
          match found.after with
          | _ :: after => matchesOf q fuel after
          | [] => []
        else found.matched :: matchesOf q fuel found.after
      | none => []

/-- Looks for patterns of another kind unless its arguments say which. -/
def grepWith (option : ByteText) (c : Call) : Running Nat :=
  grep { c with name := .ofString "grep", arguments := option :: c.arguments }

/-! Editing lines -/

inductive Address where
  | line (number : Nat)
  | last
  | pattern (e : RegularExpression)

inductive Edit where
  | substitute (e : RegularExpression) (replacement : ByteText) (all print fold : Bool) (which : Nat)
  | transliterate (source target : ByteText)
  | delete | print | quit | number
  | insert (text : ByteText)
  | append (text : ByteText)

structure EditCommand where
  addresses : List Address
  negated : Bool
  edit : Edit

/-- Text up to a delimiter; an escaped delimiter stands for itself. -/
def delimited (delimiter : Char) : ByteText → Option (ByteText × ByteText)
  | [] => none
  | '\\' :: ch :: rest =>
    (delimited delimiter rest).map fun (text, rest) => (if ch = delimiter then ch :: text else '\\' :: ch :: text, rest)
  | ch :: rest =>
    if ch = delimiter then some ([], rest) else (delimited delimiter rest).map fun (text, rest) => (ch :: text, rest)

def address? (extended : Bool) : ByteText → Option (Address × ByteText)
  | '$' :: rest => some (.last, rest)
  | '/' :: rest => do
    let (text, rest) ← delimited '/' rest
    return (.pattern (← RegularExpression.parse? extended text), rest)
  | cs =>
    let digits := cs.takeWhile Char.isDigit
    if digits.isEmpty then none else some (.line ((decimal? digits).getD 0), cs.drop digits.length)

def endsCommand (cs : ByteText) : Option ByteText :=
  match cs.dropWhile (· = ' ') with
  | [] => some []
  | ch :: rest => if ch = ';' ∨ ch = '\n' then some rest else if ch = '\x7d' then some (ch :: rest) else none

def edit? (extended : Bool) : ByteText → Option (Edit × ByteText)
  | 'd' :: rest => (endsCommand rest).map (.delete, ·)
  | 'p' :: rest => (endsCommand rest).map (.print, ·)
  | 'q' :: rest => (endsCommand rest).map (.quit, ·)
  | '=' :: rest => (endsCommand rest).map (.number, ·)
  | 's' :: delimiter :: rest => do
    let (pattern, rest) ← delimited delimiter rest
    let (replacement, rest) ← delimited delimiter rest
    let flags := rest.takeWhile fun ch => ch == 'g' || ch == 'p' || ch == 'i' || ch == 'I' || ch.isDigit
    let e ← RegularExpression.parse? extended pattern
    let which := ((decimal? (flags.filter Char.isDigit)).getD 1)
    return (.substitute e replacement (flags.contains 'g') (flags.contains 'p') (flags.contains 'i' || flags.contains 'I') which,
      ← endsCommand (rest.drop flags.length))
  | 'y' :: delimiter :: rest => do
    let (source, rest) ← delimited delimiter rest
    let (target, rest) ← delimited delimiter rest
    return (.transliterate source target, ← endsCommand rest)
  | letter :: rest =>
    if letter = 'i' ∨ letter = 'a' then
      let text := match rest.dropWhile (· = ' ') with
        | '\\' :: '\n' :: text | '\\' :: text | text => text
      let line := text.takeWhile (· ≠ '\n')
      some (if letter = 'i' then .insert line else .append line, text.drop (line.length + 1))
    else none
  | [] => none

def editScript (extended : Bool) : Nat → ByteText → Option (List EditCommand)
  | 0, _ => none
  | fuel + 1, cs =>
    match cs.dropWhile fun ch => ch == ' ' || ch == ';' || ch == '\n' || ch == '\t' with
    | [] => some []
    | cs => do
      let (addresses, cs) ← match address? extended cs with
        | some (a, ',' :: rest) => do
          let (b, rest) ← address? extended rest
          some ([a, b], rest)
        | some (a, rest) => some ([a], rest)
        | none => some ([], cs)
      let cs := cs.dropWhile (· = ' ')
      let (negated, cs) := match cs with
        | '!' :: rest => (true, rest)
        | rest => (false, rest)
      let (edit, rest) ← edit? extended cs
      return ⟨addresses, negated, edit⟩ :: (← editScript extended fuel rest)

def expandReplacement (found : RegularExpression.Match) : ByteText → ByteText
  | '\\' :: ch :: rest =>
    (if ch.isDigit then (if ch = '0' then found.matched else (found.groups.lookup (ch.toNat - '0'.toNat)).getD [])
      else if ch = 'n' then ['\n'] else if ch = 't' then ['\t'] else [ch]) ++ expandReplacement found rest
  | '&' :: rest => found.matched ++ expandReplacement found rest
  | ch :: rest => ch :: expandReplacement found rest
  | [] => []

/-- Replaces matches from the one of number `which` on. -/
def substitute (e : RegularExpression) (fold : Char → Char) (replacement : ByteText) (all : Bool) :
    Nat → Nat → ByteText → Option ByteText
  | 0, _, _ => none
  | fuel + 1, which, line => do
    let found ← e.find? fold line
    let further (which : Nat) : Option ByteText :=
      if found.matched.isEmpty then
        match found.after with
        | [] => none
        | ch :: after => (substitute e fold replacement all fuel which after).map (ch :: ·)
      else substitute e fold replacement all fuel which found.after
    if 1 < which then
      (further (which - 1)).map fun rest => found.before ++ found.matched ++ rest
    else
      let rest := if all then (further 1).getD found.after else found.after
      return found.before ++ expandReplacement found replacement ++ rest

structure EditState where
  line : ByteText
  number : Nat
  isLast : Bool
  /-- The commands whose range has begun. -/
  active : List Nat
  output : List ByteText := []
  later : List ByteText := []
  deleted : Bool := false
  done : Bool := false

def addressed (s : EditState) : Address → Bool
  | .line n => s.number == n
  | .last => s.isLast
  | .pattern e => (e.find? id s.line).isSome

/-- Whether a command applies, and whether its range goes on. -/
def applies (s : EditState) (index : Nat) (command : EditCommand) : Bool × Bool :=
  match command.addresses with
  | [a, b] =>
    if s.active.contains index then (true, !addressed s b)
    else if addressed s a then
      (true, match b with
        | .line n => s.number < n
        | _ => true)
    else (false, false)
  | [a] => (addressed s a, false)
  | _ => (true, false)

def applyEdit (s : EditState) : Edit → EditState
  | .delete => { s with deleted := true, done := true }
  | .print => { s with output := s.output ++ [s.line] }
  | .quit => { s with done := true }
  | .number => { s with output := s.output ++ [ofNat s.number] }
  | .insert text => { s with output := s.output ++ [text] }
  | .append text => { s with later := s.later ++ [text] }
  | .transliterate source target =>
    { s with line := s.line.map fun ch => ((source.zip target).lookup ch).getD ch }
  | .substitute e replacement all print fold which =>
    match substitute e (lowered fold) replacement all (s.line.length + 2) which s.line with
    | none => s
    | some line => { s with line, output := if print then s.output ++ [line] else s.output }

def editLine (commands : List EditCommand) (s : EditState) : EditState × Bool :=
  commands.zipIdx.foldl (fun ((s, quit) : EditState × Bool) (command, index) =>
    if s.done then (s, quit)
    else
      let (inRange, goesOn) := applies s index command
      let active := s.active.filter (· ≠ index)
      let s := { s with active := if goesOn then index :: active else active }
      if inRange != command.negated then
        (applyEdit s command.edit, quit || (match command.edit with | .quit => true | _ => false))
      else (s, quit)) (s, false)

def editLines (commands : List EditCommand) (quiet : Bool) : List Nat → Nat → List ByteText → List ByteText
  | _, _, [] => []
  | active, number, line :: rest =>
    let (s, quit) := editLine commands { line, number, isLast := rest.isEmpty, active }
    s.output ++ (if quiet || s.deleted then [] else [s.line]) ++ s.later
      ++ (if quit then [] else editLines commands quiet s.active (number + 1) rest)

def sed (c : Call) : Running Nat :=
  c.withOptions ⟨"nEre:f:i::lsuz", [("quiet", 'n', false), ("silent", 'n', false), ("expression", 'e', true),
      ("regexp-extended", 'E', false)], false⟩ 1 fun o => do
    let given := o.values 'e'
    let (script, operands) := if given.isEmpty then (o.operands.take 1, o.operands.drop 1) else (given, o.operands)
    let text := ByteText.joinWith ['\n'] script
    match editScript (o.has 'E' || o.has 'r') (text.length + 2) text with
    | none => do
      c.mumble
      return 1
    | some commands =>
      let (text, code) ← gather c operands fun p e => .ofString "can't read " ++ p ++ [':', ' '] ++ .ofString e.text
      c.print (unlines (editLines commands (o.has 'n') [] 1 text.lines))
      return if code = 0 then 0 else 2

/-! Expressions -/

/-- The value of an expression and the words after it; an error has a number. -/
abbrev Reading := Except (Nat × String) (ByteText × List ByteText)

def isNull (t : ByteText) : Bool := t.isEmpty || t == ['0']

def truth (b : Bool) : ByteText := if b then ['1'] else ['0']

def precedence (operator : String) : Option Nat :=
  [("|", 1), ("&", 2), ("=", 3), ("!=", 3), ("<", 3), (">", 3), ("<=", 3), (">=", 3), ("+", 4), ("-", 4), ("*", 5),
    ("/", 5), ("%", 5), (":", 6)].lookup operator

def matched (text pattern : ByteText) : Except (Nat × String) ByteText :=
  match RegularExpression.parse? false pattern with
  | none => .error (2, "Invalid regular expression")
  | some e =>
    let grouped : Bool := (List.range pattern.length).any fun i => ['\\', '('].isPrefixOf (pattern.drop i)
    match (RegularExpression.sequence [.start, e]).find? id text with
    | none => .ok (if grouped then [] else ['0'])
    | some found => .ok (if grouped then (found.groups.lookup 1).getD [] else ofNat found.matched.length)

def compute (operator : String) (a b : ByteText) : Except (Nat × String) ByteText :=
  let arithmetic (f : Int → Int → Except (Nat × String) Int) : Except (Nat × String) ByteText :=
    match integer? a, integer? b with
    | some m, some n => (f m n).map ofInt
    | _, _ => .error (2, "non-integer argument")
  let compared (numbers : Int → Int → Bool) (texts : ByteText → ByteText → Bool) : ByteText :=
    match integer? a, integer? b with
    | some m, some n => truth (numbers m n)
    | _, _ => truth (texts a b)
  match operator with
  | "|" => .ok (if isNull a then (if isNull b then ['0'] else b) else a)
  | "&" => .ok (if isNull a || isNull b then ['0'] else a)
  | "=" => .ok (compared (fun m n => m = n) (fun s t => s = t))
  | "!=" => .ok (compared (fun m n => m ≠ n) (fun s t => s ≠ t))
  | "<" => .ok (compared (fun m n => m < n) (fun s t => decide (s < t)))
  | ">" => .ok (compared (fun m n => n < m) (fun s t => decide (t < s)))
  | "<=" => .ok (compared (fun m n => m ≤ n) (fun s t => !decide (t < s)))
  | ">=" => .ok (compared (fun m n => n ≤ m) (fun s t => !decide (s < t)))
  | "+" => arithmetic fun m n => .ok (m + n)
  | "-" => arithmetic fun m n => .ok (m - n)
  | "*" => arithmetic fun m n => .ok (m * n)
  | "/" => arithmetic fun m n => if n = 0 then .error (2, "division by zero") else .ok (m.tdiv n)
  | "%" => arithmetic fun m n => if n = 0 then .error (2, "division by zero") else .ok (m.tmod n)
  | _ => matched a b

def missingArgument (after : ByteText) : Nat × String :=
  (2, "syntax error: missing argument after '" ++ after.text ++ "'")

mutual

def operand : Nat → (previous : ByteText) → List ByteText → Reading
  | 0, _, _ => .error (2, "syntax error")
  | _, previous, [] => .error (missingArgument previous)
  | fuel + 1, _, word :: rest =>
    match String.ofList word, rest with
    | "(", rest => do
      let (value, rest) ← expression fuel 1 word rest
      match rest with
      | [')'] :: rest => return (value, rest)
      | _ => throw (2, "syntax error: expecting ')'")
    | "length", text :: rest => .ok (ofNat text.length, rest)
    | "match", text :: pattern :: rest => (matched text pattern).map (·, rest)
    | "substr", text :: start :: count :: rest =>
      match integer? start, integer? count with
      | some s, some n => .ok (if s < 1 then [] else (text.drop (s.toNat - 1)).take n.toNat, rest)
      | _, _ => .ok ([], rest)
    | "index", text :: set :: rest => .ok (ofNat (match text.findIdx? set.contains with | some i => i + 1 | none => 0), rest)
    | _, _ => .ok (word, rest)

def expression : Nat → (level : Nat) → (previous : ByteText) → List ByteText → Reading
  | 0, _, _, _ => .error (2, "syntax error")
  | fuel + 1, level, previous, words => do
    let (value, rest) ← operand fuel previous words
    continued fuel level value rest

def continued : Nat → (level : Nat) → ByteText → List ByteText → Reading
  | 0, _, _, _ => .error (2, "syntax error")
  | fuel + 1, level, value, words =>
    match words with
    | [] => .ok (value, [])
    | operator :: rest =>
      match precedence (String.ofList operator) with
      | none => .ok (value, words)
      | some p =>
        if p < level then .ok (value, words)
        else do
          let (right, rest) ← expression fuel (p + 1) operator rest
          continued fuel level (← compute (String.ofList operator) value right) rest

end

def expr (c : Call) : Running Nat := do
  let c := if c.arguments.head? = some ['-', '-'] then { c with arguments := c.arguments.tail } else c
  if c.arguments.isEmpty then return ← FileTools.missingOperand c |>.map fun _ => 2
  match expression (4 * c.arguments.length + 8) 1 c.name c.arguments with
  | .error (code, message) =>
    c.complainText message
    return code
  | .ok (value, []) =>
    c.print (value ++ ['\n'])
    return if isNull value then 1 else 0
  | .ok (_, extra :: _) =>
    c.complain (.ofString "syntax error: unexpected argument " ++ FileTools.quoted extra)
    return 2

end AutoDiff.SearchTools
