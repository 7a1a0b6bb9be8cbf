import AutoDiff.Emulation.Shell.Run

namespace AutoDiff.Shell.Start

/-- Reads the letters of one argument. The result tells whether the script is an argument, and the arguments
after those that the letters use. -/
def flagLetters (on : Bool) : List Char → (command : Bool) → List ByteText → Acting (Bool × List ByteText)
  | [], command, rest => return (command, rest)
  | 'c' :: more, _, rest => flagLetters on more true rest
  | 'l' :: more, command, rest => flagLetters on more command rest
  | 'o' :: more, command, rest => do
    if let some name := rest.head? then Builtin.setOptionName name on
    flagLetters on more command rest.tail
  | c :: more, command, rest => do
    Builtin.setOptionLetter c on
    flagLetters on more command rest

/-- Reads the options before the script. -/
def flags : Nat → (command : Bool) → List ByteText → Acting (Bool × List ByteText)
  | 0, command, rest => return (command, rest)
  | fuel + 1, command, arguments => do
    match arguments with
    | ['-'] :: rest | ['-', '-'] :: rest => return (command, rest)
    | (sign :: letters) :: rest =>
      if sign = '-' ∨ sign = '+' then
        let (command, rest) ← flagLetters (sign = '-') letters command rest
        flags fuel command rest
      else return (command, arguments)
    | _ => return (command, arguments)

/-- The bound on the steps of a script. -/
def fuel : Nat := 100000

/-- Runs a text. The first of its arguments is its name. -/
def runText (spawn : Spawner) (text : ByteText) (arguments : List ByteText) : Acting Nat := do
  modify fun s => { s with name := arguments.headD s.name, arguments := arguments.tail }
  Run.script spawn fuel text

/-- Runs the input; the arguments do not name it. -/
def runInput (spawn : Spawner) (arguments : List ByteText) : Acting Nat := do
  let content ← Acting.onMachine (((← get).call [] []).readAll)
  runText spawn content.byteText ((← get).name :: arguments)

def runFile (spawn : Spawner) (path : ByteText) (arguments : List ByteText) : Acting Nat := do
  let s ← get
  match s.machine.disk.find s.directory ⟨path.text⟩ with
  | .ok (.file content _) => runText spawn content.byteText (path :: arguments)
  | .ok _ => return 0
  | .error e => Acting.fault (Run.openingError true path e)

def work (spawn : Spawner) (arguments : List ByteText) : Acting Nat := do
  let (command, operands) ← flags (arguments.length + 1) false arguments
  let s ← get
  match command, operands with
  | true, [] => Acting.faultText "-c requires an argument"
  | true, text :: rest => runText spawn text (if rest.isEmpty then [s.name] else rest)
  | false, [] => runInput spawn []
  | false, path :: rest => if s.has 's' then runInput spawn (path :: rest) else runFile spawn path rest

/-- Where programs are looked up if nothing else is said. -/
def standardPath : String := "/usr/local/sbin:/usr/local/bin:/usr/sbin:/usr/bin:/sbin:/bin"

/-- Variables that a shell gives a value unless its environment has one. -/
def defaults : List (String × String) := [("PATH", standardPath), ("PS1", "# "), ("PS2", "> "), ("PS4", "+ ")]

/-- Variables that a shell gives a value in any case. -/
def settled (c : Call) : List (String × ByteText) :=
  [("IFS", " \t\n".toList), ("OPTIND", ['1']), ("PPID", (toString (processNumber - 1)).toList),
    ("PWD", FileTools.locationText c.directory)]

def bindings (c : Call) : List (ByteText × Variable) :=
  let given := c.environment.filterMap fun (name, value) =>
    if isName name then some (name, { value := some value, exported := true }) else none
  let missing := defaults.filterMap fun (name, value) =>
    if (given.lookup name.toList).isSome then none else some (name.toList, { value := some value.toList })
  (settled c).foldl (fun vs (name, value) =>
    let exported : Bool := name == "PWD" || (vs.lookup name.toList).any (·.exported)
    (name.toList, { value := some value, exported }) :: vs.filter (·.1 ≠ name.toList)) (given ++ missing)

def state (c : Call) (machine : Machine) : State :=
  { machine, name := c.name, bindings := bindings c, streams := c.streams, directory := c.directory }

end Start

/-- Runs the shell. -/
def shell (spawn : Spawner) (c : Call) : Running ExitStatus := fun m =>
  match (Run.conclude spawn Start.fuel (Start.work spawn c.arguments)).run (Start.state c m) with
  | (.ok status, s) => (status, s.machine)
  | (.error (.killed n), s) => (.signalled n, s.machine)
  | (.error _, s) => (.exited s.status, s.machine)

end AutoDiff.Shell
