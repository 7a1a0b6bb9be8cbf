import AutoDiff.Host.Process
import AutoDiff.Emulation.Programs

namespace AutoDiff.Execution

/-- How much of a file is looked at for the program that runs it. -/
def headerSize : Nat := 256

def isBlank (c : Char) : Bool := c == ' ' || c == '\t'

/-- The program that the first line of a file names, and the rest of that line. -/
def interpreter? (t : ByteText) : Option (ByteText × Option ByteText) :=
  match t.take headerSize with
  | '#' :: '!' :: header =>
    let line := header.takeWhile (· ≠ '\n')
    let complete : Bool := line.length < header.length || t.length ≤ headerSize
    let words := line.dropWhile isBlank
    let name := words.takeWhile (!isBlank ·)
    let rest := ((words.drop name.length).dropWhile isBlank).reverse.dropWhile isBlank |>.reverse
    if name.isEmpty || (!complete && name.length = words.length) then none
    else some (name, if rest.isEmpty then none else some rest)
  | _ => none

/-- Runs a file; `links` bounds the files that name each other. -/
def runFile (spawn : Spawner) : (links : Nat) → Spawner
  | 0, _, _ => return .error .tooManyLinks
  | links + 1, path, c => do
    match c.find (← get) path with
    | .error e => return .error e
    | .ok (.file (.program name) true) => return .ok (← Programs.run spawn name c)
    | .ok (.file content true) =>
      match interpreter? content.byteText with
      | some (program, argument) =>
        runFile spawn links program { c with name := program, arguments := argument.toList ++ path :: c.arguments }
      | none => return .error .notExecutable
    | .ok _ => return .error .permissionDenied

def linkLimit : Nat := 6

/-- Runs programs that run programs, at most `depth` within each other. -/
def execute : (depth : Nat) → Spawner
  | 0, _, _ => return .error .notFound
  | depth + 1, path, c => runFile (execute depth) linkLimit path c

def depthLimit : Nat := 40

/-- Runs a program without input, whose output is lost. -/
def launch : Launcher := fun program arguments environment directory disk =>
  if arguments.any (·.toList.contains '\x00') then .error .nulData
  else
    let (input, m) := ({ disk } : Machine).add { channel := .sink }
    let (output, m) := m.openBuffer .empty
    let (errors, m) := m.openBuffer .empty
    let path := ByteText.ofString program.text
    let call : Call :=
      { name := path, arguments := arguments.map .ofString, directory
        environment := environment.map fun (name, value) => (.ofString name, .ofString value)
        streams := [(0, input), (1, output), (2, errors)] }
    match (execute depthLimit path call).run m with
    | (.error e, _) => .error e
    | (.ok status, m) => .ok ({ status, errors := (m.collected? errors).map ByteText.toBytes }, m.disk)

end AutoDiff.Execution
