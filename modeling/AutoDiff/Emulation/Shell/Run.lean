import AutoDiff.Emulation.Shell.Builtin

/-!
Running commands. A run is bounded by the number of steps that are given for it.
-/

namespace AutoDiff.Shell

/-- What is written about a child that a signal has ended. -/
def signalMessage : Nat → Option String
  | 1 => some "Hangup"
  | 3 => some "Quit"
  | 4 => some "Illegal instruction"
  | 5 => some "Trace/breakpoint trap"
  | 6 => some "Aborted"
  | 7 => some "Bus error"
  | 8 => some "Floating point exception"
  | 9 => some "Killed"
  | 10 => some "User defined signal 1"
  | 11 => some "Segmentation fault"
  | 12 => some "User defined signal 2"
  | 14 => some "Alarm clock"
  | 15 => some "Terminated"
  | _ => none

namespace Run

def stream? (s : State) (number : Nat) : Option Nat := s.streams.lookup number

def setStream (number : Nat) (id : Option Nat) : Acting Unit :=
  modify fun s =>
    let others := s.streams.filter (·.1 ≠ number)
    { s with streams := match id with | some id => (number, id) :: others | none => others }

/-- Runs work with streams of its own. -/
def keepingStreams {α : Type} (work : Acting α) : Acting α := do
  let before := (← get).streams
  Acting.restoring (fun _ after => { after with streams := before }) work

/-! Redirections -/

/-- A redirection whose word is expanded. -/
structure Redirected where
  stream : Nat
  direction : Direction
  word : ByteText

def expandRedirections (substitute : Substitution) (rs : List Redirection) : Acting (List Redirected) :=
  rs.mapM fun (.mk stream direction w) => do
    match direction with
    | .here number => return ⟨stream, direction, ← Expansion.text substitute false (((← get).texts.lookup number).getD [])⟩
    | _ => return ⟨stream, direction, ← Expansion.text substitute false w⟩

/-- Files that are streams of the program itself. -/
def ownStream? (path : ByteText) : Option Nat :=
  match [("/dev/stdin", 0), ("/dev/stdout", 1), ("/dev/stderr", 2)].lookup (String.ofList path) with
  | some n => some n
  | none => if "/dev/fd/".toList.isPrefixOf path then Builtin.decimal? (path.drop 8) else none

def openingError (reading : Bool) (path : ByteText) (e : IoError) : ByteText :=
  let text := if e = .notFound ∨ e = .notDirectory then (if reading then "No such file" else "Directory nonexistent") else e.text
  .ofString (if reading then "cannot open " else "cannot create ") ++ path ++ [':', ' '] ++ .ofString text

/-- Carries out a redirection; the result tells what is wrong. -/
def redirect (r : Redirected) : Acting (Option ByteText) := do
  let s ← get
  let duplicate (number : Nat) : Acting (Option ByteText) :=
    match stream? s number with
    | some id => do
      setStream r.stream (some id)
      return none
    | none => return some (.ofString s!"{number}: Bad file descriptor")
  let file (reading : Bool) (how : Opening) : Acting (Option ByteText) :=
    match ownStream? r.word with
    | some number => duplicate number
    | none =>
      match s.machine.openFile s.directory r.word how with
      | .ok (id, machine) => do
        set { s with machine }
        setStream r.stream (some id)
        return none
      | .error e => return some (openingError reading r.word e)
  match r.direction with
  | .input => file true .read
  | .output =>
    let isRegular := s.machine.disk.isFile s.directory ⟨r.word.text⟩
    file false (if s.has 'C' ∧ isRegular then .create else .truncate)
  | .clobber => file false .truncate
  | .append => file false .append
  | .both => file false .update
  | .here _ =>
    let (id, machine) := s.machine.openBuffer (.ofByteText r.word)
    set { s with machine }
    setStream r.stream (some id)
    return none
  | .duplicateInput | .duplicateOutput =>
    if r.word = ['-'] then
      setStream r.stream none
      return none
    else match r.word with
      | [d] => if d.isDigit then duplicate (d.toNat - '0'.toNat) else return some (.ofString "Syntax error: Bad fd number")
      | _ => return some (.ofString "Syntax error: Bad fd number")

/-- Carries out redirections until one fails; the result tells whether all could be done. -/
def redirectAll : List Redirected → Acting Bool
  | [] => return true
  | r :: rs => do
    match ← redirect r with
    | none => redirectAll rs
    | some message =>
      Acting.complain message
      return false

/-! Parts of commands -/

/-- The words of a command as arguments. -/
def expandWords (substitute : Substitution) : (assignments : Bool) → List Word → Acting (List ByteText)
  | _, [] => return []
  | assignments, w :: ws => do
    let fields ← match assignments, assignment? w with
      | true, some (name, value) => do
        pure [name ++ '=' :: (← Expansion.text substitute true value)]
      | _, _ => Expansion.fields substitute w
    return fields ++ (← expandWords substitute assignments ws)

def commandWords (substitute : Substitution) : List Word → Acting (List ByteText)
  | [] => return []
  | w :: ws => do
    match ← Expansion.fields substitute w with
    | [] => commandWords substitute ws
    | name :: rest =>
      return name :: rest ++ (← expandWords substitute (Builtin.takesAssignments name) ws)

/-- Assigns for the time of some work. -/
def withAssignments {α : Type} (values : List (ByteText × ByteText)) (work : Acting α) : Acting α := do
  let before := (← get).bindings
  for (name, value) in values do
    Acting.assign name value
    Acting.setVariable name fun v => { v.getD { value := some value } with exported := true }
  Acting.restoring (fun _ after =>
    { after with bindings := values.foldl (fun vs (name, _) =>
        let others := vs.filter (·.1 ≠ name)
        match before.lookup name with
        | some v => (name, v) :: others
        | none => others) after.bindings }) work

/-- Runs the body of a loop once; the result tells whether the loop goes on. -/
def once (depth : Nat) (work : Acting Nat) : Acting (Nat × Bool) := do
  let settle (goesOn : Bool) : Acting (Nat × Bool) := do
    modify fun s => { s with loops := depth }
    return (0, goesOn)
  tryCatch (return (← work, true)) fun
    | .stop n => if n ≤ 1 then settle false else throw (.stop (n - 1))
    | .again n => if n ≤ 1 then settle true else throw (.again (n - 1))
    | j => throw j

/-- Runs work one loop deeper. -/
def inLoop (work : Nat → Acting Nat) : Acting Nat := do
  let before := (← get).loops
  modify fun s => { s with loops := before + 1 }
  Acting.restoring (fun _ after => { after with loops := before }) (work (before + 1))

/-- The status that ends a process of the shell itself. -/
def settled (result : Except Jump Nat) : Acting ExitStatus := do
  match result with
  | .ok n | .error (.leave n) | .error (.back n) => return .exited n
  | .error .fault | .error (.stop _) | .error (.again _) => return .exited (← get).status
  | .error (.gone status) => return status
  | .error (.killed n) => throw (.killed n)

/-- The status of a child, with a note if a signal has ended it. -/
def reap (status : ExitStatus) : Acting Nat := do
  if let .signalled n := status then
    if let some message := signalMessage n then Acting.write 2 (.ofString (message ++ "\n"))
  return status.code

/-- Starts a program; one without a known form is taken for a script. -/
def start (spawn : Spawner) (path : ByteText) (arguments : List ByteText) : Acting (Except IoError ExitStatus) := do
  let s ← get
  match ← Acting.onMachine (spawn path (s.call (arguments.headD []) arguments.tail)) with
  | .error .notExecutable =>
    let shell : ByteText := .ofString "/bin/sh"
    Acting.onMachine (spawn shell (s.call shell (path :: arguments.tail)))
  | result => return result

def notRunnable (name : ByteText) (e : IoError) : Acting Nat := do
  let (text, status) := Builtin.programError e
  Acting.complain (name ++ [':', ' '] ++ .ofString text)
  return status

/-- Runs a program by its name. -/
def program (spawn : Spawner) (arguments : List ByteText) : Acting Nat := do
  let name := arguments.headD []
  let run (path : ByteText) : Acting Nat := do
    match ← start spawn path arguments with
    | .ok status => reap status
    | .error e => notRunnable name e
  if name.contains '/' then run name
  else match Builtin.locateProgram (← get) name with
    | .ok path => run path
    | .error e => do
      let _ ← notRunnable name e
      return 127

/-- Becomes another program. -/
def replace (spawn : Spawner) (arguments : List ByteText) : Acting Nat := do
  let name := arguments.headD []
  let fail (e : IoError) : Acting Nat := do throw (.leave (← notRunnable name e))
  let run (path : ByteText) : Acting Nat := do
    match ← start spawn path arguments with
    | .ok status => throw (.gone status)
    | .error e => fail e
  if name.contains '/' then run name
  else match Builtin.locateProgram (← get) name with
    | .ok path => run path
    | .error e => fail e

/-- Runs a builtin under its name. An error in one that is not special ends only the builtin. -/
def named (name : ByteText) (special : Bool) (work : Acting Nat) : Acting Nat := do
  let before := (← get).builtin
  modify fun s => { s with builtin := some name }
  Acting.restoring (fun _ after => { after with builtin := before }) <|
    if special then work
    else tryCatch work fun
      | .fault => return (← get).status
      | j => throw j

/-- Removes `command` from the front of some words; the result tells whether it was there. -/
def stripCommand : Nat → List ByteText → List ByteText × Bool
  | 0, ws => (ws, false)
  | fuel + 1, ws =>
    match ws with
    | name :: rest =>
      if name = "command".toList then
        let rest := match rest with
          | ['-', 'p'] :: more | ['-', '-'] :: more => more
          | more => more
        match rest with
        | [] | ('-' :: _) :: _ => (ws, false)
        | rest => ((stripCommand fuel rest).1, true)
      else (ws, false)
    | [] => (ws, false)

mutual

/-- Runs a command. `tested` tells that its failure is looked at, and so does not end the script. -/
def run (spawn : Spawner) : Nat → (tested : Bool) → Command → Acting Nat
  | 0, _, _ => throw (.killed 9)
  | fuel + 1, tested, c => do
    if (← get).has 'n' then return (← get).status
    answerSignals spawn fuel
    let status ← evaluate spawn fuel tested c
    Acting.setStatus status
    answerSignals spawn fuel
    let ends : Bool := match c with
      | .simple .. | .subshell .. | .pipeline .. | .background .. => true
      | _ => false
    if ends ∧ !tested ∧ status ≠ 0 ∧ (← get).has 'e' then throw (.leave status)
    return status

def evaluate (spawn : Spawner) : Nat → (tested : Bool) → Command → Acting Nat
  | 0, _, _ => throw (.killed 9)
  | fuel + 1, tested, c => do
    match c with
    | .simple line assignments ws rs => simple spawn fuel tested line assignments ws rs
    | .redirected line body rs =>
      modify fun s => { s with line }
      let targets ← expandRedirections (capture spawn fuel) rs
      keepingStreams do
        if ← redirectAll targets then run spawn fuel tested body else return 2
    | .subshell line body rs =>
      modify fun s => { s with line }
      isolated spawn fuel do
        let targets ← expandRedirections (capture spawn fuel) rs
        if ← redirectAll targets then run spawn fuel tested body else throw .fault
    | .background _ body => do
      let _ ← isolated spawn fuel do
        let (id, machine) := (← get).machine.add { channel := .sink }
        modify fun s => { s with machine }
        setStream 0 (some id)
        run spawn fuel false body
      return 0
    | .pipeline commands => pipeline spawn fuel tested (stream? (← get) 0) commands
    | .negated body => return if (← run spawn fuel true body) = 0 then 1 else 0
    | .both left right =>
      let status ← run spawn fuel true left
      if status = 0 then run spawn fuel tested right else return status
    | .either left right =>
      let status ← run spawn fuel true left
      if status = 0 then return 0 else run spawn fuel tested right
    | .sequence left right =>
      let _ ← run spawn fuel tested left
      run spawn fuel tested right
    | .branch test yes no =>
      if (← run spawn fuel true test) = 0 then run spawn fuel tested yes
      else match no with
        | some no => run spawn fuel tested no
        | none => return 0
    | .loop untilTrue test body => inLoop fun depth => loop spawn fuel depth tested untilTrue test body 0
    | .each line name ws body =>
      modify fun s => { s with line }
      let values ← expandWords (capture spawn fuel) false ws
      inLoop fun depth => each spawn fuel depth tested name body 0 values
    | .cases line w clauses =>
      modify fun s => { s with line }
      let text ← Expansion.text (capture spawn fuel) false w
      cases spawn fuel tested text clauses
    | .define name body =>
      modify fun s => { s with functions := (name, body) :: s.functions.filter (·.1 ≠ name) }
      return 0

def loop (spawn : Spawner) : Nat → (depth : Nat) → (tested untilTrue : Bool) → (test body : Command) → Nat → Acting Nat
  | 0, _, _, _, _, _, _ => throw (.killed 9)
  | fuel + 1, depth, tested, untilTrue, test, body, status => do
    let (answer, goesOn) ← once depth do
      let n ← run spawn fuel true test
      return if (n = 0) != untilTrue then 0 else 1
    if !goesOn then return 0
    if answer ≠ 0 then return status
    let (status, goesOn) ← once depth (run spawn fuel tested body)
    if goesOn then loop spawn fuel depth tested untilTrue test body status else return status

def each (spawn : Spawner) : Nat → (depth : Nat) → (tested : Bool) → ByteText → Command → Nat → List ByteText → Acting Nat
  | 0, _, _, _, _, _, _ => throw (.killed 9)
  | _, _, _, _, _, status, [] => return status
  | fuel + 1, depth, tested, name, body, _, value :: values => do
    Acting.assign name value
    let (status, goesOn) ← once depth (run spawn fuel tested body)
    if goesOn then each spawn fuel depth tested name body status values else return status

def cases (spawn : Spawner) : Nat → (tested : Bool) → ByteText → List (List Word × Option Command) → Acting Nat
  | 0, _, _, _ => throw (.killed 9)
  | _, _, _, [] => return 0
  | fuel + 1, tested, text, (patterns, body) :: rest => do
    if ← anyMatches spawn fuel text patterns then
      match body with
      | some c => run spawn fuel tested c
      | none => return 0
    else cases spawn fuel tested text rest

def anyMatches (spawn : Spawner) : Nat → ByteText → List Word → Acting Bool
  | 0, _, _ => throw (.killed 9)
  | _, _, [] => return false
  | fuel + 1, text, w :: ws => do
    let p ← Expansion.pattern (capture spawn fuel) w
    if p.matchesText text then return true else anyMatches spawn fuel text ws

/-- Runs a command in a process of its own: nothing of the shell changes but the machine. -/
def isolated (spawn : Spawner) : Nat → Acting Nat → Acting Nat
  | 0, _ => throw (.killed 9)
  | fuel + 1, work => do
    let before ← get
    let status ← Acting.restoring (fun before after =>
        { before with machine := after.machine, signals := before.signals ++ after.signals }) do
      modify fun s => { s with traps := s.traps.filter (·.2.isEmpty), signals := [], isSubshell := true }
      conclude spawn fuel work
    modify fun s => { s with line := before.line }
    return status.code

/-- Ends a process of the shell: runs what the script wants to be run at its end. -/
def conclude (spawn : Spawner) : Nat → Acting Nat → Acting ExitStatus
  | 0, _ => throw (.killed 9)
  | fuel + 1, work => do
    let result ← (tryCatch (return .ok (← work)) fun j => return .error j : Acting (Except Jump Nat))
    let status ← settled result
    match result, (← get).traps.lookup 0 with
    | .error (.gone _), _ | _, none => return status
    | _, some action =>
      modify fun s => { s with traps := s.traps.filter (·.1 ≠ 0), status := status.code, builtin := none }
      let last ← (tryCatch (do
          let _ ← script spawn fuel action
          return .ok status.code) fun j => return .error j : Acting (Except Jump Nat))
      settled last

/-- Runs commands side by side, each with the output of the one before as its input. -/
def pipeline (spawn : Spawner) : Nat → (tested : Bool) → (input : Option Nat) → List Command → Acting Nat
  | 0, _, _, _ => throw (.killed 9)
  | _, _, _, [] => return 0
  | fuel + 1, tested, input, [c] =>
    isolated spawn fuel do
      setStream 0 input
      run spawn fuel tested c
  | fuel + 1, tested, input, c :: cs => do
    let (id, machine) := (← get).machine.openBuffer .empty
    modify fun s => { s with machine }
    let _ ← isolated spawn fuel do
      setStream 0 input
      setStream 1 (some id)
      run spawn fuel tested c
    pipeline spawn fuel tested (some id) cs

/-- What a command writes to its output. -/
def capture (spawn : Spawner) : Nat → Substitution
  | 0, _ => throw (.killed 9)
  | _, none => do
    modify fun s => { s with substituted := 0 }
    return []
  | fuel + 1, some body => do
    let (id, machine) := (← get).machine.openBuffer .empty
    modify fun s => { s with machine }
    let status ← isolated spawn fuel do
      setStream 1 (some id)
      run spawn fuel false body
    modify fun s => { s with substituted := status }
    return ((← get).machine.remaining id).byteText

def simple (spawn : Spawner) : Nat → (tested : Bool) → Nat → List (ByteText × Word) → List Word → List Redirection → Acting Nat
  | 0, _, _, _, _, _ => throw (.killed 9)
  | fuel + 1, tested, line, assignments, ws, rs => do
    modify fun s => { s with line, substituted := 0 }
    let substitute := capture spawn fuel
    let given ← commandWords substitute ws
    let (arguments, stripped) := stripCommand (given.length + 1) given
    let name := arguments.headD []
    let special := Builtin.isSpecial (given.headD [])
    let targets ← expandRedirections substitute rs
    let s ← get
    let traceTo := stream? s 2
    let function? := if stripped ∨ special then none else s.functions.lookup name
    let isExec := name = "exec".toList ∧ function?.isNone
    let work : Acting Nat := do
      if !(← redirectAll targets) then
        Acting.setStatus 2
        if special then throw .fault else return 2
      if given.isEmpty ∨ special then
        let values ← assignOneByOne substitute fuel assignments
        trace traceTo (values.map fun (name, value) => name ++ '=' :: value) given
        if given.isEmpty then return (← get).substituted
        dispatch spawn fuel tested special function? arguments
      else
        let values ← expandAssignments substitute fuel assignments
        trace traceTo (values.map fun (name, value) => name ++ '=' :: value) given
        withAssignments values (dispatch spawn fuel tested special function? arguments)
    if isExec ∧ arguments.length = 1 then work else keepingStreams work

def assignOneByOne (substitute : Substitution) : Nat → List (ByteText × Word) → Acting (List (ByteText × ByteText))
  | 0, _ => throw (.killed 9)
  | _, [] => return []
  | fuel + 1, (name, w) :: rest => do
    let value ← Expansion.text substitute true w
    Acting.assign name value
    return (name, value) :: (← assignOneByOne substitute fuel rest)

/-- The values of assignments, of which later ones see the earlier ones. -/
def expandAssignments (substitute : Substitution) : Nat → List (ByteText × Word) → Acting (List (ByteText × ByteText))
  | 0, _ => throw (.killed 9)
  | _, [] => return []
  | fuel + 1, (name, w) :: rest => do
    let value ← Expansion.text substitute true w
    let others ← withAssignments [(name, value)] (expandAssignments substitute fuel rest)
    return (name, value) :: others

/-- Writes a command before it is run, if the script asks for that. -/
def trace (stream : Option Nat) (assignments given : List ByteText) : Acting Unit := do
  let s ← get
  if s.has 'x' ∧ !(assignments.isEmpty ∧ given.isEmpty) then
    if let some id := stream then
      let mark := (s.value? "PS4".toList).getD []
      let line := mark ++ ByteText.joinWith [' '] (assignments ++ given) ++ ['\n']
      modify fun s => { s with machine := s.machine.send id (.ofByteText line) }

def dispatch (spawn : Spawner) : Nat → (tested special : Bool) → Option Command → List ByteText → Acting Nat
  | 0, _, _, _, _ => throw (.killed 9)
  | fuel + 1, tested, special, function?, arguments => do
    let name := arguments.headD []
    match function? with
    | some body => callFunction spawn fuel tested body arguments.tail
    | none =>
      if Builtin.isBuiltin name then named name special (builtin spawn fuel tested (String.ofList name) arguments.tail)
      else program spawn arguments

def builtin (spawn : Spawner) : Nat → (tested : Bool) → String → List ByteText → Acting Nat
  | 0, _, _, _ => throw (.killed 9)
  | fuel + 1, _, name, arguments => do
    match name with
    | "eval" => script spawn fuel (ByteText.joinWith [' '] arguments)
    | "." => source spawn fuel arguments
    | "exec" => if arguments.isEmpty then return 0 else replace spawn arguments
    | "command" => do
      let (flags, operands) ← Builtin.letters "pvV" arguments
      if flags.contains 'V' then Builtin.typeNames operands
      else if flags.contains 'v' then Builtin.commandName operands
      else return 0
    | name => Builtin.run name arguments

def callFunction (spawn : Spawner) : Nat → (tested : Bool) → Command → List ByteText → Acting Nat
  | 0, _, _, _ => throw (.killed 9)
  | fuel + 1, tested, body, arguments => do
    let before ← get
    modify fun s => { s with arguments, loops := 0, saved := [] :: s.saved }
    Acting.restoring (fun _ after =>
        let values := after.saved.headD []
        { after with
          arguments := before.arguments
          loops := before.loops
          saved := after.saved.tail
          bindings := values.foldl (fun vs (name, old) =>
            let others := vs.filter (·.1 ≠ name)
            match old with
            | some v => (name, v) :: others
            | none => others) after.bindings }) <|
      tryCatch (run spawn fuel tested body) fun
        | .back status => return status
        | j => throw j

/-- Runs the commands of a file. -/
def source (spawn : Spawner) : Nat → List ByteText → Acting Nat
  | 0, _ => throw (.killed 9)
  | fuel + 1, arguments => do
    match arguments with
    | [] => return 0
    | name :: _ =>
      let s ← get
      let path := if name.contains '/' then some name
        else (Builtin.candidates s name).find? fun p => s.machine.disk.isFile s.directory ⟨p.text⟩
      match path with
      | none => Acting.fault (name ++ .ofString ": not found")
      | some path =>
        match s.machine.disk.read s.directory ⟨path.text⟩ with
        | .error e => Acting.fault (openingError true path e)
        | .ok content =>
          modify fun s => { s with builtin := some path }
          tryCatch (script spawn fuel content.byteText) fun
            | .back status => return status
            | j => throw j

/-- Runs the commands of a text. -/
def script (spawn : Spawner) : Nat → ByteText → Acting Nat
  | 0, _ => throw (.killed 9)
  | fuel + 1, text => lines spawn fuel { rest := text } 0

/-- Reads one complete line after another and runs it. -/
def lines (spawn : Spawner) : Nat → Reader → Nat → Acting Nat
  | 0, _, _ => throw (.killed 9)
  | fuel + 1, r, status => do
    let s ← get
    match Reading.line.run { r with count := s.texts.length, texts := [] } with
    | .error e => do
      modify fun s => { s with line := e.line }
      Acting.faultText e.message
    | .ok (found, next) =>
      if s.has 'v' then Acting.write 2 (r.rest.take (r.rest.length - next.rest.length))
      modify fun s => { s with texts := next.texts ++ s.texts }
      match found with
      | .finish => return status
      | .command none => lines spawn fuel next status
      | .command (some c) =>
        if s.has 'n' then lines spawn fuel next status
        else
          let status ← run spawn fuel false c
          lines spawn fuel next status

/-- Runs what the script has for the signals that have come. -/
def answerSignals (spawn : Spawner) : Nat → Acting Unit
  | 0 => throw (.killed 9)
  | fuel + 1 => do
    let s ← get
    match s.signals with
    | [] => return
    | n :: rest =>
      set { s with signals := rest }
      match s.traps.lookup n with
      | none | some [] => answerSignals spawn fuel
      | some action =>
        let _ ← script spawn fuel action
        Acting.setStatus s.status
        answerSignals spawn fuel

end

end Run

end AutoDiff.Shell
