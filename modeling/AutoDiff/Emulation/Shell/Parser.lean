import AutoDiff.Emulation.Shell.Reader

/-!
Reading commands. A script is read one complete command at a time, so that an error further down shows only
when it is reached.
-/

namespace AutoDiff.Shell

/-- Names that no function can have. -/
def specialBuiltins : List String :=
  [".", ":", "break", "continue", "eval", "exec", "exit", "export", "readonly", "return", "set", "shift", "times",
    "trap", "unset"]

/-- How far a list goes. -/
inductive Extent where
  /-- Over lines, with one command at least. -/
  | several
  /-- To the end of a line. -/
  | line
  /-- Over lines, or nothing at all. -/
  | any
  deriving DecidableEq, Repr

def endsList : Token → Bool
  | .finish | .right | .endCase => true
  | .keyword name => ["do", "done", "elif", "else", "esac", "fi", "then", "\x7d"].contains name
  | _ => false

/-- A complete line, or the end of the script. -/
inductive Line where
  | finish
  | command (c : Option Command)

def append (first : Option Command) (second : Command) : Command :=
  match first with
  | none => second
  | some first => .sequence first second

namespace Reading

def currentLine : Reading Nat := return (← get).line

mutual

/-- The body of a substitution. -/
def body : Nat → BodyReader
  | 0 => fun _ => return none
  | fuel + 1 => fun closed => do
    let c ← list fuel .any none
    if closed then
      let t ← next fuel
      match t with
      | .right => return c
      | t => unexpected t (some .right)
    else return c

def next : Nat → Reading Token
  | 0 => return .finish
  | fuel + 1 => token (body fuel)

/-- Commands after those that were read before. -/
def list : Nat → Extent → Option Command → Reading (Option Command)
  | 0, _, c => return c
  | fuel + 1, extent, before => do
    want (extent ≠ .line)
    let t ← next fuel
    match t with
    | .newline =>
      readTexts (body fuel)
      return before
    | .finish =>
      readTexts (body fuel)
      pushBack .finish
      return before
    | t =>
      pushBack t
      if endsList t ∧ (extent = .any ∨ (extent = .several ∧ before.isSome)) then return before
      let line ← currentLine
      let c ← connected fuel
      let t ← next fuel
      let after := some (append before (match t with | .background => .background line c | _ => c))
      match t with
      | .background | .semicolon => list fuel extent after
      | .newline =>
        pushBack t
        list fuel extent after
      | .finish =>
        readTexts (body fuel)
        pushBack t
        return after
      | t =>
        if extent = .line then unexpected t none
        pushBack t
        return after

/-- Pipelines joined by connectives. -/
def connected : Nat → Reading Command
  | 0 => fail "Syntax error"
  | fuel + 1 => do
    let c ← pipeline fuel
    connectedTo fuel c

def connectedTo : Nat → Command → Reading Command
  | 0, c => return c
  | fuel + 1, c => do
    let t ← next fuel
    match t with
    | .and =>
      want true
      let right ← pipeline fuel
      connectedTo fuel (.both c right)
    | .or =>
      want true
      let right ← pipeline fuel
      connectedTo fuel (.either c right)
    | t =>
      pushBack t
      return c

def pipeline : Nat → Reading Command
  | 0 => fail "Syntax error"
  | fuel + 1 => do
    let t ← next fuel
    let negated ← match t with
      | .keyword "!" =>
        want false
        pure true
      | t =>
        pushBack t
        pure false
    let first ← command fuel
    let others ← piped fuel
    let c := if others.isEmpty then first else .pipeline (first :: others)
    return if negated then .negated c else c

def piped : Nat → Reading (List Command)
  | 0 => return []
  | fuel + 1 => do
    let t ← next fuel
    match t with
    | .pipe =>
      want true
      let c ← command fuel
      return c :: (← piped fuel)
    | t =>
      pushBack t
      return []

def expect : Nat → String → Reading Unit
  | 0, _ => return
  | fuel + 1, name => do
    let t ← next fuel
    match t with
    | .keyword found => unless found = name do unexpected t (some (.keyword name))
    | t => unexpected t (some (.keyword name))

/-- Commands up to a word that ends them. -/
def block : Nat → Reading Command
  | 0 => fail "Syntax error"
  | fuel + 1 => return (← list fuel .several none).getD (.simple 0 [] [] [])

def command : Nat → Reading Command
  | 0 => fail "Syntax error"
  | fuel + 1 => do
    let line ← currentLine
    let t ← next fuel
    match t with
    | .keyword "if" => redirected fuel line (← branch fuel)
    | .keyword "while" => redirected fuel line (← loop fuel false)
    | .keyword "until" => redirected fuel line (← loop fuel true)
    | .keyword "for" => redirected fuel line (← each fuel line)
    | .keyword "case" => redirected fuel line (← caseCommand fuel line)
    | .keyword "\x7b" => do
      let c ← block fuel
      expect fuel "\x7d"
      redirected fuel line c
    | .left => do
      let c ← block fuel
      let t ← next fuel
      match t with
      | .right => redirected fuel line (.subshell line c [])
      | t => unexpected t (some .right)
    | .word _ | .redirection .. =>
      pushBack t
      simple fuel (← currentLine) [] [] []
    | t => unexpected t none

/-- The redirections after a command. -/
def redirected : Nat → Nat → Command → Reading Command
  | 0, _, c => return c
  | fuel + 1, line, c => do
    want false
    let rs ← redirections fuel
    return match rs, c with
      | [], c => c
      | rs, .subshell line c [] => .subshell line c rs
      | rs, c => .redirected line c rs

def redirections : Nat → Reading (List Redirection)
  | 0 => return []
  | fuel + 1 => do
    let t ← next fuel
    match t with
    | .redirection stream direction stripped =>
      let r ← target fuel stream direction stripped
      return r :: (← redirections fuel)
    | t =>
      pushBack t
      return []

/-- The word after a redirection. -/
def target : Nat → Nat → Direction → Bool → Reading Redirection
  | 0, stream, direction, _ => return .mk stream direction []
  | fuel + 1, stream, direction, stripped => do
    let t ← next fuel
    match t, direction with
    | .word w, .here _ =>
      let number := (← get).count
      modify fun r => { r with
        count := number + 1
        pending := r.pending ++ [⟨number, unquoted w, stripped, isQuoted w⟩] }
      return .mk stream (.here number) []
    | .word w, direction => return .mk stream direction w
    | t, _ => unexpected t none

def branch : Nat → Reading Command
  | 0 => fail "Syntax error"
  | fuel + 1 => do
    let test ← block fuel
    expect fuel "then"
    let yes ← block fuel
    let t ← next fuel
    match t with
    | .keyword "elif" => return .branch test yes (some (← branch fuel))
    | .keyword "else" =>
      let no ← block fuel
      expect fuel "fi"
      return .branch test yes (some no)
    | .keyword "fi" => return .branch test yes none
    | t => unexpected t (some (.keyword "fi"))

def loop : Nat → Bool → Reading Command
  | 0, _ => fail "Syntax error"
  | fuel + 1, untilTrue => do
    let test ← block fuel
    expect fuel "do"
    let c ← block fuel
    expect fuel "done"
    return .loop untilTrue test c

def each : Nat → Nat → Reading Command
  | 0, _ => fail "Syntax error"
  | fuel + 1, line => do
    let t ← next fuel
    let name ← match t with
      | .word w =>
        match plain? w with
        | some name => if isName name then pure name else fail "Syntax error: Bad for loop variable"
        | none => fail "Syntax error: Bad for loop variable"
      | _ => fail "Syntax error: Bad for loop variable"
    want true
    let t ← next fuel
    let ws ← match t with
      | .keyword "in" => do
        let (ws, t) ← words fuel
        match t with
        | .newline | .semicolon => pure ws
        | t => unexpected t none
      | t => do
        match t with
        | .semicolon => pure ()
        | t => pushBack t
        pure [[.parameter true ['@'] .value]]
    want true
    expect fuel "do"
    let c ← block fuel
    expect fuel "done"
    return .each line name ws c

def words : Nat → Reading (List Word × Token)
  | 0 => return ([], .finish)
  | fuel + 1 => do
    let t ← next fuel
    match t with
    | .word w =>
      let (ws, t) ← words fuel
      return (w :: ws, t)
    | t => return ([], t)

def caseCommand : Nat → Nat → Reading Command
  | 0, _ => fail "Syntax error"
  | fuel + 1, line => do
    let t ← next fuel
    match t with
    | .word w =>
      want true
      let t ← next fuel
      match t with
      | .keyword "in" => return .cases line w (← clauses fuel)
      | t => unexpected t (some (.keyword "in"))
    | t => unexpected t (some (.word []))

def clauses : Nat → Reading (List (List Word × Option Command))
  | 0 => return []
  | fuel + 1 => do
    want true
    let t ← next fuel
    match t with
    | .keyword "esac" => return []
    | t =>
      let t ← match t with
        | .left => next fuel
        | t => pure t
      let patterns ← alternatives fuel t
      let c ← list fuel .any none
      want true
      let t ← next fuel
      match t with
      | .keyword "esac" => return [(patterns, c)]
      | .endCase => return (patterns, c) :: (← clauses fuel)
      | t => unexpected t (some .endCase)

/-- Patterns from one that was read, up to a parenthesis. -/
def alternatives : Nat → Token → Reading (List Word)
  | 0, _ => return []
  | fuel + 1, first => do
    let w : Word := match first with
      | .word w => w
      | .keyword name => name.toList.map (.char false)
      | _ => []
    let t ← next fuel
    match t with
    | .pipe =>
      let following ← next fuel
      return w :: (← alternatives fuel following)
    | .right => return [w]
    | t => unexpected t (some .right)

/-- A simple command, as far as it was read. -/
def simple : Nat → Nat → List (ByteText × Word) → List Word → List Redirection → Reading Command
  | 0, line, assignments, ws, rs => return .simple line assignments ws rs
  | fuel + 1, line, assignments, ws, rs => do
    let t ← next fuel
    match t with
    | .word w =>
      match ws.isEmpty, assignment? w with
      | true, some a => simple fuel line (assignments ++ [a]) ws rs
      | _, _ => simple fuel line assignments (ws ++ [w]) rs
    | .redirection stream direction stripped =>
      let r ← target fuel stream direction stripped
      simple fuel line assignments ws (rs ++ [r])
    | .left =>
      match assignments, ws, rs with
      | [], [w], [] =>
        let t ← next fuel
        match t, plain? w with
        | .right, some name =>
          if !isName name ∨ specialBuiltins.contains (String.ofList name) then fail "Syntax error: Bad function name"
          want true
          return .define name (← command fuel)
        | .right, none => fail "Syntax error: Bad function name"
        | t, _ => unexpected t (some .right)
      | _, _, _ =>
        pushBack t
        return .simple line assignments ws rs
    | t =>
      pushBack t
      return .simple line assignments ws rs

end

/-- The next complete line of a script. -/
def line : Reading Line := do
  let fuel := 24 * ((← get).rest.length + 8)
  modify fun r => { r with pushed := none, skipNewlines := false, findKeywords := false, pending := [] }
  let t ← next fuel
  match t with
  | .finish => return .finish
  | .newline => return .command none
  | t =>
    pushBack t
    return .command (← list fuel .line none)

end Reading

end AutoDiff.Shell
