import AutoDiff.Emulation.Shell.Syntax

/-!
Reading a script character by character: words with their quotes, parameters and substitutions, and tokens.
-/

namespace AutoDiff.Shell

structure SyntaxError where
  line : Nat
  message : String
  deriving Repr

inductive Token where
  | finish | newline | semicolon | background | and | or | pipe | left | right | endCase
  | word (w : Word)
  | keyword (name : String)
  | redirection (stream : Nat) (direction : Direction) (stripped : Bool)

def Token.name : Token → String
  | finish => "end of file"
  | newline => "newline"
  | semicolon => "\";\""
  | background => "\"&\""
  | and => "\"&&\""
  | or => "\"||\""
  | pipe => "\"|\""
  | left => "\"(\""
  | right => "\")\""
  | endCase => "\";;\""
  | word _ => "word"
  | keyword name => "\"" ++ name ++ "\""
  | redirection .. => "redirection"

def keywords : List String :=
  ["!", "case", "do", "done", "elif", "else", "esac", "fi", "for", "if", "in", "then", "until", "while", "\x7b", "\x7d"]

/-- A text in the script that a redirection waits for. -/
structure PendingText where
  number : Nat
  mark : ByteText
  stripped : Bool
  verbatim : Bool

structure Reader where
  rest : ByteText
  line : Nat := 1
  /-- The last token, if it is to be read again. -/
  pushed : Option Token := none
  /-- What the next token may be preceded by, and whether it may be a keyword. -/
  skipNewlines : Bool := false
  findKeywords : Bool := false
  pending : List PendingText := []
  texts : List (Nat × Word) := []
  count : Nat := 0

abbrev Reading := StateT Reader (Except SyntaxError)

namespace Reading

def fail {α : Type} (message : String) : Reading α := do throw ⟨(← get).line, message⟩

def unexpected {α : Type} (found : Token) (expected : Option Token) : Reading α :=
  fail ("Syntax error: " ++ found.name ++ " unexpected"
    ++ (match expected with | some t => " (expecting " ++ t.name ++ ")" | none => ""))

def peek? : Reading (Option Char) := return (← get).rest.head?

def skip : Reading Unit := modify fun r =>
  match r.rest with
  | c :: rest => { r with rest, line := if c = '\n' then r.line + 1 else r.line }
  | [] => r

def next? : Reading (Option Char) := do
  let c ← peek?
  skip
  return c

/-- Drops the ends of lines that are continued on the next one. -/
def joinLines : Reading Unit := do
  let rec drop : Nat → Reader → Reader
    | 0, r => r
    | fuel + 1, r =>
      match r.rest with
      | '\\' :: '\n' :: rest => drop fuel { r with rest, line := r.line + 1 }
      | _ => r
  modify fun r => drop r.rest.length r

/-- Takes characters while they are of a kind. -/
def takeWhile (p : Char → Bool) : Reading ByteText := modifyGet fun r =>
  let taken := r.rest.takeWhile p
  (taken, { r with rest := r.rest.drop taken.length, line := r.line + taken.count '\n' })

/-- Takes one character if it is the given one. -/
def accept (c : Char) : Reading Bool := do
  joinLines
  if (← peek?) = some c then
    skip
    return true
  else return false

end Reading

/-- Where a word stands: between double quotes, between braces, or in a text of its own. -/
structure Mode where
  double : Bool := false
  braces : Bool := false
  text : Bool := false
  expression : Bool := false
  deriving DecidableEq, Repr

def isMeta (c : Char) : Bool :=
  c == ' ' || c == '\t' || c == '\n' || c == ';' || c == '&' || c == '|' || c == '(' || c == ')' || c == '<' || c == '>'

def isSpecial (c : Char) : Bool :=
  c == '@' || c == '*' || c == '#' || c == '?' || c == '$' || c == '!' || c == '-' || c.isDigit

def isBackquote (c : Char) : Bool := c.toNat = 0x60

/-- Reads the body of a substitution from the script; whether it ends at a parenthesis. -/
abbrev BodyReader := (closed : Bool) → Reading (Option Command)

namespace Reading

/-- The text of a substitution in backquotes. -/
def backquoted (double : Bool) : Nat → Reading ByteText
  | 0 => fail "Syntax error: EOF in backquote substitution"
  | fuel + 1 => do
    joinLines
    match ← next? with
    | none => fail "Syntax error: EOF in backquote substitution"
    | some '\\' =>
      match ← next? with
      | none => fail "Syntax error: EOF in backquote substitution"
      | some c =>
        let rest ← backquoted double fuel
        return if c = '\\' ∨ isBackquote c ∨ c = '$' ∨ (double ∧ c = '"') then c :: rest else '\\' :: c :: rest
    | some c => if isBackquote c then return [] else return c :: (← backquoted double fuel)

/-- Reads a text of its own with a reader, and goes on after it. -/
def within {α : Type} (text : ByteText) (read : Reading α) : Reading α := do
  let r ← get
  set { r with rest := text, line := 1, pushed := none, pending := [] }
  let value ← read
  modify fun inner => { r with texts := inner.texts, count := inner.count }
  return value

/-- The name of a parameter between braces. The length of a parameter has its name after a hash. -/
def bracedName : Reading (Option (ByteText × Bool)) := do
  joinLines
  match ← peek? with
  | none => return none
  | some c =>
    if isNameStart c then return some (← takeWhile isNameChar, false)
    else if c.isDigit then return some (← takeWhile Char.isDigit, false)
    else if c = '#' then
      skip
      let r ← get
      match r.rest with
      | d :: e :: _ =>
        if isNameStart d then return some (← takeWhile isNameChar, true)
        else if d.isDigit then return some (← takeWhile Char.isDigit, true)
        else if d ≠ '\x7d' ∧ e = '\x7d' ∧ isSpecial d then
          skip
          return some ([d], true)
        else return some (['#'], false)
      | _ => return some (['#'], false)
    else if isSpecial c then
      skip
      return some ([c], false)
    else return none

mutual

/-- The parts of a word up to where it ends in its mode. -/
def parts (body : BodyReader) : Nat → Mode → Reading Word
  | 0, _ => return []
  | fuel + 1, mode => do
    match ← peek? with
    | none => return []
    | some c =>
      if c = '\x7d' ∧ mode.braces then return []
      else if c = '"' ∧ mode.double ∧ !mode.braces ∧ !mode.text ∧ !mode.expression then return []
      else if isMeta c ∧ !mode.double ∧ !mode.braces then return []
      else if c = ')' ∧ mode.expression then
        if (← get).rest.tail.head? = some ')' then return []
        skip
        return .char true c :: (← parts body fuel mode)
      else if c = '(' ∧ mode.expression then
        skip
        let inner ← expressionGroup body fuel mode
        return .char true '(' :: inner ++ (← parts body fuel mode)
      else
        skip
        let first ← part body fuel mode c
        return first ++ (← parts body fuel mode)

/-- An expression in parentheses, with the closing one. -/
def expressionGroup (body : BodyReader) : Nat → Mode → Reading Word
  | 0, _ => return []
  | fuel + 1, mode => do
    match ← next? with
    | none => return []
    | some ')' => return [.char true ')']
    | some '(' =>
      let inner ← expressionGroup body fuel mode
      return .char true '(' :: inner ++ (← expressionGroup body fuel mode)
    | some c =>
      let first ← part body fuel mode c
      return first ++ (← expressionGroup body fuel mode)

/-- What starts with a character that was taken. -/
def part (body : BodyReader) : Nat → Mode → Char → Reading Word
  | 0, _, _ => return []
  | fuel + 1, mode, c => do
    if c = '\\' then
      match ← next? with
      | none => return [.char mode.double '\\']
      | some '\n' => return []
      | some d =>
        let escapes := !mode.double || d = '\\' || isBackquote d || d = '$'
          || (d = '"' && (!mode.text || mode.braces)) || (d = '\x7d' && mode.braces)
        return if escapes then [.char true d] else [.char true '\\', .char true d]
    else if c = '"' ∧ !mode.expression ∧ (!mode.text ∨ mode.braces) then
      if mode.double then return [.quotes]
      else
        let inner ← parts body fuel { double := true }
        match ← next? with
        | none => fail "Syntax error: Unterminated quoted string"
        | some _ => return .quotes :: inner
    else if c = '\'' ∧ !mode.double then
      let inner ← takeWhile (· ≠ '\'')
      match ← next? with
      | none => fail "Syntax error: Unterminated quoted string"
      | some _ => return .quotes :: inner.map (.char true)
    else if c = '$' then dollar body fuel mode
    else if isBackquote c then
      let text ← backquoted mode.double ((← get).rest.length + 1)
      return [.command mode.double (← within text (body false))]
    else return [.char mode.double c]

/-- What follows a dollar sign. -/
def dollar (body : BodyReader) : Nat → Mode → Reading Word
  | 0, _ => return []
  | fuel + 1, mode => do
    joinLines
    match ← peek? with
    | none => return [.char mode.double '$']
    | some c =>
      if c = '(' then
        skip
        if ← accept '(' then
          let inner ← parts body fuel { double := true, expression := true }
          match (← next?), (← next?) with
          | some ')', some ')' => return [.arithmetic mode.double inner]
          | _, _ => fail "Syntax error: Missing '))'"
        else
          let pending := (← get).pending
          modify fun r => { r with pending := [] }
          let inner ← body true
          modify fun r => { r with pending }
          return [.command mode.double inner]
      else if c = '\x7b' then
        skip
        braced body fuel mode
      else if isNameStart c then return [.parameter mode.double (← takeWhile isNameChar) .value]
      else if isSpecial c then
        skip
        return [.parameter mode.double [c] .value]
      else return [.char mode.double '$']

/-- A parameter between braces, after the opening one. -/
def braced (body : BodyReader) : Nat → Mode → Reading Word
  | 0, _ => return []
  | fuel + 1, mode => do
    let name ← bracedName
    joinLines
    let word (double : Bool) : Reading Word := do
      let inner ← parts body fuel { mode with double, braces := true, expression := false }
      match ← next? with
      | none => fail "Syntax error: Missing '\x7d'"
      | some _ => return inner
    match name with
    | none =>
      let _ ← word mode.double
      return [.parameter mode.double [] .unknown]
    | some (name, true) =>
      if (← peek?) = some '\x7d' then
        skip
        return [.parameter mode.double name .length]
      else
        let _ ← word mode.double
        return [.parameter mode.double name .unknown]
    | some (name, false) =>
      match ← peek? with
      | some '\x7d' =>
        skip
        return [.parameter mode.double name .value]
      | some '%' =>
        skip
        let greedy ← accept '%'
        return [.parameter mode.double name (.trim false greedy (← word false))]
      | some '#' =>
        skip
        let greedy ← accept '#'
        return [.parameter mode.double name (.trim true greedy (← word false))]
      | _ =>
        let empty ← accept ':'
        let use? : Option (Word → Use) := match ← peek? with
          | some '-' => some (.default empty)
          | some '+' => some (.alternative empty)
          | some '?' => some (.demand empty)
          | some '=' => some (.assign empty)
          | _ => none
        match use? with
        | some use =>
          skip
          return [.parameter mode.double name (use (← word mode.double))]
        | none =>
          let _ ← word mode.double
          return [.parameter mode.double name .unknown]

end

/-! Texts in the script -/

/-- The lines of a text up to its mark, and what follows. -/
def textLines (p : PendingText) : Nat → ByteText → Nat → ByteText × ByteText × Nat
  | 0, cs, lines => ([], cs, lines)
  | fuel + 1, cs, lines =>
    if cs.isEmpty then ([], [], lines)
    else
      let line := cs.takeWhile (· ≠ '\n')
      let rest := cs.drop (line.length + 1)
      let ended : Bool := line.length < cs.length
      let shown := if p.stripped then line.dropWhile (· = '\t') else line
      if shown = p.mark then ([], rest, lines + (if ended then 1 else 0))
      else
        let (text, rest, lines) := textLines p fuel rest (lines + (if ended then 1 else 0))
        (shown ++ (if ended then ['\n'] else []) ++ text, rest, lines)

def readText (body : BodyReader) (p : PendingText) : Reading Unit := do
  let r ← get
  let (text, rest, lines) := textLines p (r.rest.length + 1) r.rest 0
  set { r with rest, line := r.line + lines }
  let word ← if p.verbatim then pure (text.map (Part.char true))
    else within text (parts body (4 * text.length + 16) { double := true, text := true })
  modify fun r => { r with texts := (p.number, word) :: r.texts }

/-- Reads the texts that redirections wait for, at the start of a line. -/
def readTexts (body : BodyReader) : Reading Unit := do
  let pending := (← get).pending
  modify fun r => { r with pending := [] }
  pending.forM (readText body)

/-! Tokens -/

/-- The direction after its first sign. -/
def redirection (stream? : Option Nat) (sign : Char) : Reading Token := do
  if sign = '>' then
    let stream := stream?.getD 1
    if ← accept '>' then return .redirection stream .append false
    if ← accept '|' then return .redirection stream .clobber false
    if ← accept '&' then return .redirection stream .duplicateOutput false
    return .redirection stream .output false
  else
    let stream := stream?.getD 0
    if ← accept '<' then
      let stripped ← accept '-'
      return .redirection stream (.here 0) stripped
    if ← accept '>' then return .redirection stream .both false
    if ← accept '&' then return .redirection stream .duplicateInput false
    return .redirection stream .input false

/-- The next token, whatever it may be preceded by; keywords are words. -/
def rawToken (body : BodyReader) : Nat → Reading Token
  | 0 => return .finish
  | fuel + 1 => do
    joinLines
    match ← peek? with
    | none => return .finish
    | some ' ' | some '\t' =>
      skip
      rawToken body fuel
    | some '#' =>
      let _ ← takeWhile (· ≠ '\n')
      rawToken body fuel
    | some '\n' =>
      skip
      return .newline
    | some '&' =>
      skip
      return if ← accept '&' then .and else .background
    | some '|' =>
      skip
      return if ← accept '|' then .or else .pipe
    | some ';' =>
      skip
      return if ← accept ';' then .endCase else .semicolon
    | some '(' =>
      skip
      return .left
    | some ')' =>
      skip
      return .right
    | some '<' =>
      skip
      redirection none '<'
    | some '>' =>
      skip
      redirection none '>'
    | some _ =>
      let w ← parts body (8 * (← get).rest.length + 16) {}
      match w, ← peek? with
      | [.char false d], some sign =>
        if d.isDigit ∧ (sign = '<' ∨ sign = '>') then
          skip
          redirection (some (d.toNat - '0'.toNat)) sign
        else return .word w
      | _, _ => return .word w

def nextRaw (body : BodyReader) : Reading Token := do
  match (← get).pushed with
  | some t =>
    modify fun r => { r with pushed := none }
    return t
  | none => rawToken body ((← get).rest.length + 2)

def afterNewlines (body : BodyReader) : Nat → Reading Token
  | 0 => return .finish
  | fuel + 1 => do
    match ← nextRaw body with
    | .newline =>
      readTexts body
      afterNewlines body fuel
    | t => return t

/-- The next token, as the state of the reader asks for it. -/
def token (body : BodyReader) : Reading Token := do
  let r ← get
  let t ← if r.skipNewlines then afterNewlines body (r.rest.length + 2) else nextRaw body
  modify fun r => { r with skipNewlines := false, findKeywords := false }
  match t with
  | .word w =>
    match plain? w with
    | some text =>
      let name := String.ofList text
      return if r.findKeywords ∧ keywords.contains name then .keyword name else t
    | none => return t
  | _ => return t

def pushBack (t : Token) : Reading Unit := modify fun r => { r with pushed := some t }

def want (newlines : Bool) : Reading Unit := modify fun r => { r with skipNewlines := newlines, findKeywords := true }

end Reading

end AutoDiff.Shell
