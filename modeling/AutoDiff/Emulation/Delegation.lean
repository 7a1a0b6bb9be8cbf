import AutoDiff.Emulation.Shell.Builtin
import AutoDiff.Emulation.System.SmallTools

namespace AutoDiff.Delegation

/-- Runs a command that is looked up on the search path. -/
def launch (spawn : Spawner) (c : Call) (words : List ByteText) : Running (Except IoError ExitStatus) := do
  let name := words.headD []
  let rec attempt : List ByteText → IoError → Running (Except IoError ExitStatus)
    | [], e => return .error e
    | p :: ps, e => do
      match ← spawn p { c with name, arguments := words.tail } with
      | .ok status => return .ok status
      | .error .notExecutable =>
        let shell : ByteText := .ofString "/bin/sh"
        spawn shell { c with name := shell, arguments := p :: words.tail }
      | .error .permissionDenied => attempt ps .permissionDenied
      | .error e' => if e' = .notFound ∨ e' = .notDirectory then attempt ps e else return .error e'
  if name.isEmpty then return .error .notFound
  attempt (SmallTools.candidates c name) .notFound

/-- Runs a command, or complains. -/
def delegate (spawn : Spawner) (c inner : Call) (words : List ByteText) (complaint : ByteText) : Running ExitStatus := do
  match ← launch spawn inner words with
  | .ok status => return status
  | .error e =>
    c.complain (complaint ++ FileTools.quoted (words.headD []) ++ [':', ' '] ++ .ofString e.text)
    return .exited (if e = .notFound then 127 else 126)

/-- The words of a text; quotes keep blanks together, and a backslash takes its next character as it is. -/
def splitWords (environment : List (ByteText × ByteText)) : Nat → ByteText → (quote : Option Char) → Option ByteText →
    Option (List ByteText)
  | 0, _, _, _ => none
  | _, [], none, word => some word.toList
  | _, [], some _, _ => none
  | fuel + 1, ch :: rest, quote, word =>
    let add (t : ByteText) : Option ByteText := some (word.getD [] ++ t)
    match quote, ch, rest with
    | some q, ch, rest =>
      if ch = q then splitWords environment fuel rest none (add [])
      else match ch, rest with
        | '\\', next :: rest =>
          splitWords environment fuel rest quote (add (if q = '\'' ∧ next ≠ '\'' ∧ next ≠ '\\' then ['\\', next] else [next]))
        | ch, rest => splitWords environment fuel rest quote (add [ch])
    | none, '\\', next :: rest =>
      if next = '_' ∨ next = ' ' then splitWords environment fuel (if next = '_' then ' ' :: rest else rest) none (if next = '_' then word else add [' '])
      else splitWords environment fuel rest none (add [next])
    | none, '$', '\x7b' :: rest =>
      let name := rest.takeWhile (· ≠ '\x7d')
      splitWords environment fuel (rest.drop (name.length + 1)) none (add ((environment.lookup name).getD []))
    | none, ch, rest =>
      if ch = '"' ∨ ch = '\'' then splitWords environment fuel rest (some ch) (add [])
      else if Format.isSpace ch then (splitWords environment fuel rest none none).map (word.toList ++ ·)
      else if ch = '#' ∧ word.isNone then some []
      else splitWords environment fuel rest none (add [ch])

def splitText (environment : List (ByteText × ByteText)) (t : ByteText) : Option (List ByteText) :=
  splitWords environment (2 * t.length + 2) t none none

def envOptions : OptionTable :=
  ⟨"C:iS:u:v0", [("ignore-environment", 'i', false), ("null", '0', false), ("unset", 'u', true), ("chdir", 'C', true),
    ("split-string", 'S', true), ("debug", 'v', false)], true⟩

/-- Puts the words of a text to split in its place. -/
def expandSplit (environment : List (ByteText × ByteText)) : List ByteText → List ByteText
  | [] => []
  | argument :: rest =>
    match argument, rest with
    | ['-', 'S'], text :: rest => (splitText environment text).getD [text] ++ rest
    | '-' :: 'S' :: text, rest => (splitText environment text).getD [text] ++ rest
    | '-' :: 'i' :: 'S' :: text, rest => ['-', 'i'] :: (splitText environment text).getD [text] ++ rest
    | '-' :: 'v' :: 'S' :: text, rest => ['-', 'v'] :: (splitText environment text).getD [text] ++ rest
    | ['-', 'i'], rest => argument :: expandSplit environment rest
    | ['-', 'u'], name :: rest => argument :: name :: expandSplit environment rest
    | argument, rest => argument :: rest

def assignment? (t : ByteText) : Option (ByteText × ByteText) :=
  let name := t.takeWhile (· ≠ '=')
  if name.length < t.length then some (name, t.drop (name.length + 1)) else none

/-- Runs a command in another environment. -/
def env (spawn : Spawner) (c : Call) : Running ExitStatus := do
  let o := envOptions.parse (expandSplit c.environment c.arguments)
  if let some message := o.fault? then return .exited (← c.misuse 125 message)
  else
    if o.isAbout then
      c.mumbleTo 1
      return .exited 0
    let (clean, operands) := match o.operands with
      | ['-'] :: rest => (true, rest)
      | rest => (o.has 'i', rest)
    let unset := o.values 'u'
    if let some name := unset.find? fun name => name.isEmpty || name.contains '=' then
      c.complain (.ofString "cannot unset " ++ FileTools.quoted name ++ .ofString ": Invalid argument")
      return .exited 125
    let kept := if clean then [] else c.environment.filter fun (name, _) => !unset.contains name
    let given := (operands.takeWhile fun t => (assignment? t).isSome).filterMap assignment?
    let environment := given.foldl (fun e (name, value) => e.filter (·.1 ≠ name) ++ [(name, value)]) kept
    let words := operands.drop given.length
    let m ← get
    let directory : Except IoError Location := match o.value? 'C' with
      | none => .ok c.directory
      | some p => do
        match ← c.find m p with
        | .directory => FileTools.locate c m p
        | _ => throw .notDirectory
    match directory, words with
    | .error e, _ => do
      c.complain (.ofString "cannot change directory to " ++ FileTools.quoted ((o.value? 'C').getD []) ++ [':', ' ']
        ++ .ofString e.text)
      return .exited 125
    | .ok directory, [] => return .exited (← SmallTools.printEnvironment { c with environment, directory, arguments := [] })
    | .ok directory, words => do
      let status ← delegate spawn c { c with environment, directory } words []
      if status = .exited 127 ∧ (words.headD []).any Format.isSpace then
        if (SmallTools.candidates c (words.headD [])).all fun p => !SmallTools.isRunnable c m p then
          c.complainText "use -[v]S to pass options in shebang lines"
      return status

/-- Runs a command that follows an operand of its own. -/
def timeout (spawn : Spawner) (c : Call) : Running ExitStatus := do
  let t : OptionTable := ⟨"fk:ps:v", [("foreground", 'f', false), ("kill-after", 'k', true), ("preserve-status", 'p', false),
    ("signal", 's', true), ("verbose", 'v', false)], true⟩
  let o := t.parse c.arguments
  let wrong : Option ByteText := o.given.findSome? fun (letter, value) =>
    if letter = 's' ∧ (Shell.Builtin.signal? value).isNone then some (FileTools.quoted value ++ .ofString ": invalid signal")
    else if letter = 'k' ∧ !SmallTools.isDuration value then some (.ofString "invalid time interval " ++ FileTools.quoted value)
    else none
  match wrong, o.fault?, o.operands with
  | some message, _, _ => misused message
  | none, some message, _ => return .exited (← c.misuse 125 message)
  | none, none, duration :: word :: words => do
    if !SmallTools.isDuration duration then misused (.ofString "invalid time interval " ++ FileTools.quoted duration)
    else
      let status ← delegate spawn c c (word :: words) (.ofString "failed to run command ")
      return .exited status.code
  | none, none, _ => do
    if o.isAbout then
      c.mumbleTo 1
      return .exited 0
    c.hint
    return .exited 125
where
  misused (message : ByteText) : Running ExitStatus := do
    c.complain message
    c.hint
    return .exited 125

/-- Runs a command whatever the options before it ask for. `isValue` tells what may be the value of an option. -/
def wrapper (spawn : Spawner) (c : Call) (t : OptionTable) (isValue : ByteText → Bool) (complaint : String) :
    Running ExitStatus := do
  let o := t.parse c.arguments
  match o.given.find? fun (letter, value) => letter ≠ Options.aboutLetter && !isValue value, o.fault? with
  | some (_, value), _ =>
    c.complain (.ofString "invalid adjustment " ++ FileTools.quoted value)
    return .exited 125
  | none, some message => return .exited (← c.misuse 125 message)
  | none, none =>
    if o.isAbout then
      c.mumbleTo 1
      return .exited 0
    if o.operands.isEmpty then return .exited (← c.misuse 125 "missing operand")
    delegate spawn c c o.operands (.ofString complaint)

end AutoDiff.Delegation
