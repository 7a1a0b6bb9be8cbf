import AutoDiff.Emulation.Shell.Expansion
import AutoDiff.Emulation.Shell.Parser
import AutoDiff.Emulation.System.Condition
import AutoDiff.Emulation.System.FileTools

/-!
Commands that a shell carries out itself, as far as they run no other commands. Each gives its status.
-/

namespace AutoDiff.Shell.Builtin

def names : List String :=
  ["[", "alias", "bg", "cd", "command", "echo", "false", "fg", "getopts", "hash", "jobs", "kill", "local", "printf", "pwd",
    "read", "test", "true", "type", "ulimit", "umask", "unalias", "wait"] ++ specialBuiltins

def isSpecial (name : ByteText) : Bool := specialBuiltins.contains (String.ofList name)

def isBuiltin (name : ByteText) : Bool := names.contains (String.ofList name)

/-- Builtins whose arguments may be assignments. -/
def takesAssignments (name : ByteText) : Bool := ["export", "readonly", "local"].contains (String.ofList name)

def print (t : ByteText) : Acting Unit := Acting.write 1 t

def decimal? (t : ByteText) : Option Nat :=
  if t.isEmpty ∨ !t.all Char.isDigit then none
  else some (t.foldl (fun n c => 10 * n + (c.toNat - '0'.toNat)) 0)

def number (t : ByteText) : Acting Nat :=
  match decimal? t with
  | some n => return n
  | none => Acting.fault (.ofString "Illegal number: " ++ t)

/-- Reads letters that stand as options before the operands. -/
def letters (allowed : String) : List ByteText → Acting (List Char × List ByteText)
  | [] => return ([], [])
  | argument :: rest =>
    match argument with
    | ['-', '-'] => return ([], rest)
    | '-' :: c :: more => do
      for letter in c :: more do
        unless allowed.toList.contains letter do Acting.fault (.ofString "Illegal option -" ++ [letter])
      let (found, rest) ← letters allowed rest
      return ((c :: more) ++ found, rest)
    | _ => return ([], argument :: rest)

/-- A text between single quotes that can be read again. -/
def singleQuoted (t : ByteText) : ByteText :=
  ['\''] ++ (t.flatMap fun c => if c = '\'' then "'\"'\"'".toList else [c]) ++ ['\'']

/-! Looking up -/

inductive Meaning where
  | keyword | special | function | builtin
  | program (path : ByteText)
  | nothing (e : IoError)

/-- The paths of a name in the directories of the search path. -/
def candidates (s : State) (name : ByteText) : List ByteText :=
  if name.contains '/' then [name]
  else (((s.value? "PATH".toList).getD []).splitOn ':').map fun directory =>
    if directory.isEmpty then name else FileTools.inside directory name

/-- The first file of a name in the search path. -/
def locateProgram (s : State) (name : ByteText) : Except IoError ByteText :=
  let found := (candidates s name).find? fun p => s.machine.disk.isFile s.directory ⟨p.text⟩
  match found with
  | some p => .ok p
  | none =>
    if (candidates s name).any fun p => s.machine.disk.isPresent s.directory ⟨p.text⟩ then .error .permissionDenied
    else .error .notFound

def meaning (s : State) (name : ByteText) : Meaning :=
  if keywords.contains (String.ofList name) then .keyword
  else if isSpecial name then .special
  else if (s.functions.lookup name).isSome then .function
  else if isBuiltin name then .builtin
  else match locateProgram s name with
    | .ok p => .program p
    | .error e => .nothing e

/-- Why no program could be run, and the status for that. -/
def programError (e : IoError) : String × Nat :=
  match e with
  | .notFound | .notDirectory => ("not found", 127)
  | e => (e.text, if e = .nameTooLong ∨ e = .tooManyLinks then 127 else 126)

def describe (s : State) (name : ByteText) : ByteText × Nat :=
  match meaning s name with
  | .keyword => (name ++ .ofString " is a shell keyword\n", 0)
  | .special => (name ++ .ofString " is a special shell builtin\n", 0)
  | .function => (name ++ .ofString " is a shell function\n", 0)
  | .builtin => (name ++ .ofString " is a shell builtin\n", 0)
  | .program p => (name ++ .ofString " is " ++ p ++ ['\n'], 0)
  | .nothing _ => (name ++ .ofString ": not found\n", 127)

def typeNames (arguments : List ByteText) : Acting Nat := do
  let s ← get
  let described := arguments.map (describe s)
  for (text, _) in described do print text
  return (described.map (·.2)).foldl max 0

/-- Writes how a command would be run. -/
def commandName (arguments : List ByteText) : Acting Nat := do
  let s ← get
  match arguments with
  | [] => return 0
  | name :: _ =>
    match meaning s name with
    | .nothing _ => return 127
    | .program p =>
      print (p ++ ['\n'])
      return 0
    | _ =>
      print (name ++ ['\n'])
      return 0

/-! Output -/

def echo (arguments : List ByteText) : Acting Nat := do
  match arguments with
  | ['-', 'n'] :: rest => print (Format.echoed rest false)
  | _ => print (Format.echoed arguments true)
  return 0

def numberFault : Format.NumberFault → String
  | .notNumeric => ": expected numeric value"
  | .incomplete => ": not completely converted"
  | .outOfRange => ": Numerical result out of range"

def printf (arguments : List ByteText) : Acting Nat := do
  let (_, operands) ← letters "" arguments
  match operands with
  | [] => Acting.faultText "usage: printf format [arg ...]"
  | format :: rest =>
    let p := Format.run format rest
    for (argument, f) in p.faults do Acting.complain (argument ++ .ofString (numberFault f))
    match p.badDirective with
    | some (directive, complete) =>
      Acting.complain (if complete then directive ++ .ofString ": invalid directive" else .ofString "missing format character")
      print p.output
      Acting.setStatus 2
      throw .fault
    | none =>
      print p.output
      return if p.faults.isEmpty then 0 else 1

def test (bracket : Bool) (arguments : List ByteText) : Acting Nat := do
  if bracket ∧ arguments.getLast? ≠ some [']'] then Acting.faultText "missing ]"
  let s ← get
  match Condition.check ⟨s.machine.disk, s.directory⟩ (if bracket then arguments.dropLast else arguments) with
  | .ok holds => return if holds then 0 else 1
  | .error message => Acting.fault message

/-! Places -/

/-- Sets a variable that programs see. -/
def publish (name : String) (value : ByteText) : Acting Unit := do
  Acting.assign name.toList value
  Acting.setVariable name.toList fun v => { v.getD { value := some value } with exported := true }

def changeDirectory (arguments : List ByteText) : Acting Nat := do
  let (_, operands) ← letters "LP" arguments
  let s ← get
  let target := match operands with
    | [] => (s.value? "HOME".toList).getD []
    | ['-'] :: _ => (s.value? "OLDPWD".toList).getD (FileTools.locationText s.directory)
    | operand :: _ => operand
  let target := if target.isEmpty then ['.'] else target
  match s.machine.disk.locate s.directory ⟨target.text⟩ with
  | .ok l =>
    if s.machine.disk.entry? l = some .directory then
      publish "OLDPWD" (FileTools.locationText s.directory)
      modify fun s => { s with directory := l }
      publish "PWD" (FileTools.locationText l)
      if operands.head? = some ['-'] then print (FileTools.locationText l ++ ['\n'])
      return 0
    else Acting.fault (.ofString "can't cd to " ++ target)
  | .error _ => Acting.fault (.ofString "can't cd to " ++ target)

def workingDirectory (arguments : List ByteText) : Acting Nat := do
  let _ ← letters "LP" arguments
  print (FileTools.locationText (← get).directory ++ ['\n'])
  return 0

/-! Variables and options -/

/-- Splits `name=value`. -/
def splitAssignment (t : ByteText) : ByteText × Option ByteText :=
  let name := t.takeWhile (· ≠ '=')
  (name, if name.length < t.length then some (t.drop (name.length + 1)) else none)

def checkName (name : ByteText) : Acting Unit := do
  unless isName name do Acting.fault (name ++ .ofString ": bad variable name")

def sortedVariables (s : State) : List (ByteText × Variable) := s.bindings.mergeSort fun a b => a.1.isAtMost b.1

/-- Marks variables, or lists those that are marked. -/
def mark (word : String) (marked : Variable → Bool) (change : Variable → Variable) (arguments : List ByteText) : Acting Nat := do
  let (flags, operands) ← letters "p" arguments
  if operands.isEmpty ∨ flags.contains 'p' then
    for (name, v) in sortedVariables (← get) do
      if marked v then
        let value := match v.value with
          | some value => '=' :: singleQuoted value
          | none => []
        print (.ofString (word ++ " ") ++ name ++ value ++ ['\n'])
    return 0
  for operand in operands do
    let (name, value?) := splitAssignment operand
    checkName name
    if let some value := value? then Acting.assign name value
    Acting.setVariable name fun v => change (v.getD { value := none })
  return 0

def unset (arguments : List ByteText) : Acting Nat := do
  let (flags, operands) ← letters "vf" arguments
  for name in operands do
    if flags.contains 'f' then modify fun s => { s with functions := s.functions.filter (·.1 ≠ name) }
    else
      checkName name
      Acting.unassign name
  return 0

/-- Makes variables local to a function; their values before are kept for its end. -/
def makeLocal (arguments : List ByteText) : Acting Nat := do
  for operand in arguments do
    let s ← get
    match s.saved with
    | [] => Acting.faultText "not in a function"
    | scope :: outer =>
      let (name, value?) := splitAssignment operand
      checkName name
      let scope := if (scope.lookup name).isSome then scope else (name, s.binding? name) :: scope
      set { s with saved := scope :: outer }
      if let some value := value? then Acting.assign name value
  return 0

def optionNames : List (String × Char) :=
  [("errexit", 'e'), ("noglob", 'f'), ("ignoreeof", 'I'), ("interactive", 'i'), ("monitor", 'm'), ("noexec", 'n'),
    ("stdin", 's'), ("xtrace", 'x'), ("verbose", 'v'), ("vi", 'V'), ("emacs", 'E'), ("noclobber", 'C'), ("allexport", 'a'),
    ("notify", 'b'), ("nounset", 'u'), ("nolog", '\x01'), ("debug", '\x02')]

def setOption (letter : Char) (on : Bool) : Acting Unit :=
  modify fun s => { s with options := (if on then [letter] else []) ++ s.options.filter (· ≠ letter) }

def setOptionLetter (letter : Char) (on : Bool) : Acting Unit := do
  unless optionNames.any (·.2 == letter) do Acting.fault (.ofString "Illegal option -" ++ [letter])
  setOption letter on

def setOptionName (name : ByteText) (on : Bool) : Acting Unit := do
  match optionNames.lookup (String.ofList name) with
  | some letter => setOption letter on
  | none => Acting.fault (.ofString "Illegal option -o " ++ name)

/-- Sets the options of one argument; the result tells whether a name has to follow. -/
def optionGroup (on : Bool) : List Char → Acting Bool
  | [] => return false
  | 'o' :: rest => do
    let _ ← optionGroup on rest
    return true
  | c :: rest => do
    setOptionLetter c on
    optionGroup on rest

/-- Sets options and then, if any are given, the arguments of the script. -/
def setArguments : Nat → List ByteText → Acting Unit
  | 0, _ => return
  | fuel + 1, arguments => do
    match arguments with
    | [] => return
    | ['-', '-'] :: rest => modify fun s => { s with arguments := rest, optionLetters := [] }
    | ['-'] :: rest =>
      setOption 'x' false
      setOption 'v' false
      unless rest.isEmpty do modify fun s => { s with arguments := rest }
    | (sign :: c :: group) :: rest =>
      if sign = '-' ∨ sign = '+' then
        if ← optionGroup (sign = '-') (c :: group) then
          match rest with
          | name :: rest =>
            setOptionName name (sign = '-')
            setArguments fuel rest
          | [] => return
        else setArguments fuel rest
      else modify fun s => { s with arguments, optionLetters := [] }
    | _ => modify fun s => { s with arguments, optionLetters := [] }

def setCommand (arguments : List ByteText) : Acting Nat := do
  if arguments.isEmpty then
    for (name, v) in sortedVariables (← get) do
      if let some value := v.value then print (name ++ '=' :: singleQuoted value ++ ['\n'])
    return 0
  setArguments (arguments.length + 1) arguments
  return 0

def shift (arguments : List ByteText) : Acting Nat := do
  let n ← match arguments with
    | [] => pure 1
    | a :: _ => number a
  if (← get).arguments.length < n then Acting.faultText "can't shift that many"
  modify fun s => { s with arguments := s.arguments.drop n }
  return 0

/-! Reading -/

/-- A line of the input without its end; a backslash joins it with the next one unless the reading is raw.
Escaped characters are marked. -/
def readLine (raw : Bool) : Nat → ByteText → List (Bool × Char) × Nat × Bool
  | 0, _ => ([], 0, false)
  | fuel + 1, cs =>
    match cs with
    | [] => ([], 0, false)
    | '\n' :: _ => ([], 1, true)
    | '\\' :: c :: rest =>
      if raw then
        let (line, used, ended) := readLine raw fuel (c :: rest)
        ((false, '\\') :: line, used + 1, ended)
      else
        let (line, used, ended) := readLine raw fuel rest
        (if c = '\n' then line else (true, c) :: line, used + 2, ended)
    | c :: rest =>
      let (line, used, ended) := readLine raw fuel rest
      ((false, c) :: line, used + 1, ended)

def isBlankSeparator (separators : ByteText) (g : Bool × Char) : Bool :=
  !g.1 && separators.contains g.2 && (g.2 = ' ' || g.2 = '\t' || g.2 = '\n')

/-- The fields of a line, of which the last one takes what is left. -/
def lineFields (separators : ByteText) : Nat → List (Bool × Char) → List ByteText
  | 0, _ => []
  | count + 1, line =>
    let line := line.dropWhile (isBlankSeparator separators)
    if count = 0 then
      let trimmed := (line.reverse.dropWhile (isBlankSeparator separators)).reverse
      let isSeparator (g : Bool × Char) : Bool := !g.1 && separators.contains g.2
      let one := trimmed.takeWhile (!isSeparator ·)
      [if trimmed.length = one.length + 1 then one.map (·.2) else trimmed.map (·.2)]
    else
      let field := line.takeWhile fun g => g.1 || !separators.contains g.2
      let rest := line.drop field.length
      let rest := rest.dropWhile (isBlankSeparator separators)
      let rest := match rest with
        | (false, c) :: more => if separators.contains c then more else rest
        | rest => rest
      field.map (·.2) :: lineFields separators count rest

def readVariables (arguments : List ByteText) : Acting Nat := do
  let (flags, operands) ← letters "r" (match arguments with
    | ['-', 'p'] :: _ :: rest => rest
    | rest => rest)
  if operands.isEmpty then Acting.faultText "arg count"
  let s ← get
  match s.streams.lookup 0 with
  | none => return 1
  | some id =>
    let input := (s.machine.remaining id).byteText
    let (line, used, ended) := readLine (flags.contains 'r') (input.length + 1) input
    set { s with machine := s.machine.advance id used }
    let values := lineFields s.separators operands.length line
    for (name, i) in operands.zipIdx do Acting.assign name ((values[i]?).getD [])
    return if ended then 0 else 1

/-- Reads the next option of a list of arguments into variables. -/
def getopts (arguments : List ByteText) : Acting Nat := do
  match arguments with
  | table :: name :: given =>
    let s ← get
    let arguments := if given.isEmpty then s.arguments else given
    let index := ((s.value? "OPTIND".toList).bind decimal?).getD 1
    let finish (index : Nat) : Acting Nat := do
      Acting.assign "OPTIND".toList (toString index).toList
      Acting.assign name ['?']
      modify fun s => { s with optionLetters := [] }
      return 1
    let start : Option (ByteText × Nat) :=
      if !s.optionLetters.isEmpty then some (s.optionLetters, index)
      else match arguments[index - 1]? with
        | some ('-' :: c :: rest) => if c = '-' ∧ rest.isEmpty then none else some (c :: rest, index + 1)
        | _ => none
    match start with
    | none => finish (if arguments[index - 1]? = some ['-', '-'] ∧ s.optionLetters.isEmpty then index + 1 else index)
    | some ([], index) => finish index
    | some (c :: rest, index) =>
      let quiet := table.head? = some ':'
      let after := (table.dropWhile (· ≠ c)).drop 1
      let known := table.contains c ∧ c ≠ ':'
      Acting.assign "OPTIND".toList (toString index).toList
      if !known then
        modify fun s => { s with optionLetters := rest }
        if quiet then Acting.assign "OPTARG".toList [c]
        else
          Acting.write 2 (.ofString "Illegal option -" ++ [c, '\n'])
          Acting.unassign "OPTARG".toList
        Acting.assign name ['?']
        return 0
      else if after.head? = some ':' then
        modify fun s => { s with optionLetters := [] }
        match rest, arguments[index - 1]? with
        | [], none =>
          if quiet then
            Acting.assign "OPTARG".toList [c]
            Acting.assign name [':']
          else
            Acting.write 2 (.ofString "No arg for -" ++ [c] ++ .ofString " option\n")
            Acting.unassign "OPTARG".toList
            Acting.assign name ['?']
          return 0
        | [], some value =>
          Acting.assign "OPTIND".toList (toString (index + 1)).toList
          Acting.assign "OPTARG".toList value
          Acting.assign name [c]
          return 0
        | value, _ =>
          Acting.assign "OPTARG".toList value
          Acting.assign name [c]
          return 0
      else
        modify fun s => { s with optionLetters := rest }
        Acting.assign "OPTARG".toList []
        Acting.assign name [c]
        return 0
  | _ => Acting.faultText "Usage: getopts optstring var [arg...]"

/-! Signals -/

/-- A signal by its number or its name, with or without `SIG`; 0 is the end of a script. -/
def signal? (t : ByteText) : Option Nat :=
  match decimal? t with
  | some n => if n ≤ 64 then some n else none
  | none =>
    let name := String.ofList (t.map Char.toUpper)
    if name = "EXIT" then some 0
    else ExitStatus.signalNumber? (if name.startsWith "SIG" then (name.drop 3).toString else name)

def signalName (n : Nat) : ByteText := if n = 0 then "EXIT".toList else ((ExitStatus.signalName? n).getD (toString n)).toList

def trap (arguments : List ByteText) : Acting Nat := do
  let (_, operands) ← letters "" (match arguments with
    | ['-'] :: _ => ['-', '-'] :: arguments
    | rest => rest)
  match operands with
  | [] =>
    for (n, action) in (← get).traps.mergeSort fun a b => a.1 ≤ b.1 do
      print (.ofString "trap -- " ++ singleQuoted action ++ [' '] ++ signalName n ++ ['\n'])
    return 0
  | [single] =>
    match signal? single with
    | some n =>
      modify fun s => { s with traps := s.traps.filter (·.1 ≠ n) }
      return 0
    | none => bad single
  | action :: signals =>
    for name in (if (decimal? action).isSome then operands else signals) do
      match signal? name with
      | none => return ← bad name
      | some n =>
        modify fun s =>
          let others := s.traps.filter (·.1 ≠ n)
          { s with traps := if action = ['-'] ∨ (decimal? action).isSome then others else (n, action) :: others }
    return 0
where
  bad (name : ByteText) : Acting Nat := do
    Acting.write 2 (.ofString "trap: " ++ name ++ .ofString ": bad trap\n")
    return 1

/-- Signals that do nothing unless there is a trap for them. -/
def harmless : List Nat := [17, 18, 23, 28]

/-- Sends a signal to the process of the script. -/
def raiseSignal (n : Nat) : Acting Unit := do
  let s ← get
  match s.traps.lookup n with
  | some _ => if n = 9 ∨ n = 19 then throw (.killed n) else set { s with signals := s.signals ++ [n] }
  | none => unless n = 0 ∨ harmless.contains n do throw (.killed n)

def kill (arguments : List ByteText) : Acting Nat := do
  let usage : Acting Nat := Acting.faultText "Usage: kill [-s sigspec | -signum | -sigspec] [pid | job]... or\nkill -l [exitstatus]"
  let (n, operands) ← match arguments with
    | ['-', 'l'] :: _ => return ← list
    | ['-', 's'] :: name :: rest => chosen name rest
    | ['-', '-'] :: rest => pure (15, rest)
    | ('-' :: name) :: rest => chosen name rest
    | rest => pure (15, rest)
  if operands.isEmpty then return ← usage
  let mut status := 0
  for operand in operands do
    if decimal? operand = some processNumber ∨ operand = ['0'] then raiseSignal n
    else if (decimal? operand).isSome then
      Acting.complain (.ofString "No such process\n")
      status := 1
    else Acting.fault (.ofString "Illegal number: " ++ operand)
  return status
where
  chosen (name : ByteText) (rest : List ByteText) : Acting (Nat × List ByteText) :=
    match signal? name with
    | some n => return (n, rest)
    | none => Acting.fault (.ofString "invalid signal number or name: " ++ name)
  list : Acting Nat := do
    match arguments.tail with
    | [] => for name in ExitStatus.signalNames do print (.ofString (name ++ "\n"))
    | operand :: _ =>
      let n ← number operand
      match ExitStatus.signalName? (if 128 < n then n - 128 else n) with
      | some name => print (.ofString (name ++ "\n"))
      | none => Acting.fault (.ofString "invalid signal number or exit status: " ++ operand)
    return 0

/-! Leaving -/

/-- The status that is given, else the one of the last command. -/
def givenStatus (arguments : List ByteText) : Acting Nat := do
  match arguments with
  | [] => return (← get).status
  | a :: _ => return (← number a) % 256

def leave (arguments : List ByteText) : Acting Nat := do throw (.leave (← givenStatus arguments))

def back (arguments : List ByteText) : Acting Nat := do
  match arguments with
  | [] => throw (.back (← get).status)
  | a :: _ => throw (.back (← number a))

/-- Leaves loops, as many as there are at most. -/
def loopJump (jump : Nat → Jump) (arguments : List ByteText) : Acting Nat := do
  let n ← match arguments with
    | [] => pure 1
    | a :: _ => number a
  if n = 0 then Acting.fault (.ofString "Illegal number: " ++ arguments.headD [])
  let loops := (← get).loops
  if loops = 0 then return 0
  throw (jump (min n loops))

/-- Runs a builtin that runs no other commands. -/
def run (name : String) (arguments : List ByteText) : Acting Nat :=
  match name with
  | ":" | "true" | "hash" | "ulimit" | "alias" | "unalias" | "jobs" | "bg" | "fg" => return 0
  | "false" => return 1
  | "echo" => echo arguments
  | "printf" => printf arguments
  | "test" => test false arguments
  | "[" => test true arguments
  | "cd" | "chdir" => changeDirectory arguments
  | "pwd" => workingDirectory arguments
  | "export" => mark name (·.exported) (fun v => { v with exported := true }) arguments
  | "readonly" => mark name (·.readOnly) (fun v => { v with readOnly := true }) arguments
  | "unset" => unset arguments
  | "local" => makeLocal arguments
  | "set" => setCommand arguments
  | "shift" => shift arguments
  | "read" => readVariables arguments
  | "getopts" => getopts arguments
  | "trap" => trap arguments
  | "kill" => kill arguments
  | "exit" => leave arguments
  | "return" => back arguments
  | "break" => loopJump .stop arguments
  | "continue" => loopJump .again arguments
  | "type" => typeNames arguments
  | "umask" => do
    if arguments.isEmpty then print (.ofString "0022\n")
    return 0
  | "times" => do
    print (.ofString "0m0.000000s 0m0.000000s\n0m0.000000s 0m0.000000s\n")
    return 0
  | "wait" => return if arguments.isEmpty then 0 else 127
  | _ => return 127

end AutoDiff.Shell.Builtin
