import AutoDiff.Emulation.System.FileTools

namespace AutoDiff.SmallTools

/-- Words with blanks between them. Leading options choose whether a line ends after them and whether escapes
stand for something. -/
def echo (c : Call) : Running Nat := do
  let isOption (t : ByteText) : Bool :=
    t.head? == some '-' && 1 < t.length && t.tail.all fun ch => ch == 'n' || ch == 'e' || ch == 'E'
  let letters := (c.arguments.takeWhile isOption).flatMap List.tail
  let words := c.arguments.dropWhile isOption
  let newline := !letters.contains 'n'
  let escapes : Bool := (letters.filter (· ≠ 'n')).getLast? == some 'e'
  if c.arguments = ["--help".toList] ∨ c.arguments = ["--version".toList] then c.mumbleTo 1
  else if escapes then c.print (Format.echoed words newline)
  else c.print (ByteText.joinWith [' '] words ++ if newline then ['\n'] else [])
  return 0

def fault : Format.NumberFault → String
  | .notNumeric => ": expected a numeric value"
  | .incomplete => ": value not completely converted"
  | .outOfRange => ": Numerical result out of range"

def printf (c : Call) : Running Nat := do
  if c.arguments = ["--help".toList] ∨ c.arguments = ["--version".toList] then
    c.mumbleTo 1
    return 0
  let operands := if c.arguments.head? = some ['-', '-'] then c.arguments.tail else c.arguments
  match operands with
  | [] => c.misuse 1 "missing operand"
  | format :: arguments =>
    let p := Format.run format arguments
    c.print p.output
    for (argument, f) in p.faults do c.complain (FileTools.quoted argument ++ .ofString (fault f))
    match p.badDirective with
    | some (directive, _) =>
      c.complain (directive ++ .ofString ": invalid conversion specification")
      return 1
    | none =>
      if p.arguments.length = arguments.length then
        if let some first := arguments.head? then
          c.complain (.ofString "warning: ignoring excess arguments, starting with " ++ FileTools.quoted first)
      return if p.faults.isEmpty then 0 else 1

/-- Complains about the first operand of a program that takes none. -/
def noOperands (c : Call) (t : OptionTable) (code : Nat) (body : Options → Running Nat) : Running Nat :=
  c.withOptions t code fun o =>
    match o.operands with
    | [] => body o
    | operand :: _ => c.misuse code ("extra operand " ++ (FileTools.quoted operand).text)

def isDuration (t : ByteText) : Bool :=
  let digits := t.takeWhile fun ch => ch.isDigit || ch == '.'
  !digits.isEmpty && digits.any Char.isDigit && ["", "s", "m", "h", "d"].contains (String.ofList (t.drop digits.length))

def sleep (c : Call) : Running Nat :=
  c.withOptions ⟨"", [], false⟩ 1 fun o => do
    if o.operands.isEmpty then FileTools.missingOperand c
    else match o.operands.filter (!isDuration ·) with
      | [] => return 0
      | bad => do
        for operand in bad do c.complain (.ofString "invalid time interval " ++ FileTools.quoted operand)
        c.hint
        return 1

def uname (c : Call) : Running Nat :=
  noOperands c ⟨"asnrvmpio", [("all", 'a', false)], false⟩ 1 fun o => do
    match o.given.map (·.1) with
    | [] | ['s'] | ['o'] => c.print (if o.has 'o' then .ofString "GNU/Linux\n" else .ofString "Linux\n")
    | ['m'] => c.print (.ofString "x86_64\n")
    | _ => c.mumbleTo 1
    return 0

def whoami (c : Call) : Running Nat :=
  noOperands c ⟨"", [], false⟩ 1 fun _ => do
    c.print (.ofString "root\n")
    return 0

def identity (c : Call) : Running Nat :=
  c.withOptions ⟨"agnruzGZ", [("user", 'u', false), ("group", 'g', false), ("name", 'n', false)], false⟩ 1 fun o => do
    let number := if o.has 'n' then "root" else "0"
    FileTools.each (if o.operands.isEmpty then ["root".toList] else o.operands) fun user => do
      if user ≠ "root".toList then
        c.complain (FileTools.quoted user ++ .ofString ": no such user")
        return 1
      c.print (.ofString ((if o.has 'u' || o.has 'g' || o.has 'G' then number
        else "uid=0(root) gid=0(root) groups=0(root)") ++ "\n"))
      return 0

def printEnvironment (c : Call) : Running Nat :=
  c.withOptions ⟨"iu:0", [("null", '0', false)], true⟩ 2 fun o => do
    let ending : ByteText := if o.has '0' then ['\x00'] else ['\n']
    if o.operands.isEmpty then
      for (name, value) in c.environment do c.print (name ++ '=' :: value ++ ending)
      return 0
    FileTools.each o.operands fun name => do
      match c.environment.lookup name with
      | some value =>
        c.print (value ++ ending)
        return 0
      | none => return 1

def isRunnable (c : Call) (m : Machine) (p : ByteText) : Bool :=
  match c.find m p with
  | .ok (.file _ executable) => executable
  | _ => false

/-- Where a name may be on the search path. -/
def candidates (c : Call) (name : ByteText) : List ByteText :=
  if name.contains '/' then [name]
  else (((c.environment.lookup "PATH".toList).getD (.ofString "/bin:/usr/bin")).splitOn ':').map fun directory =>
    if directory.isEmpty then name else FileTools.inside directory name

/-- Arguments after their first letters: `a` asks for all places, `s` for none to be shown. -/
def whichLetters : List ByteText → List Char × List ByteText
  | ['-', '-'] :: names => ([], names)
  | ('-' :: letter :: more) :: rest =>
    let (letters, names) := whichLetters rest
    (letter :: more ++ letters, names)
  | names => ([], names)

def which (c : Call) : Running Nat := do
  let (letters, names) := whichLetters c.arguments
  if let some letter := letters.find? fun letter => letter ≠ 'a' && letter ≠ 's' then
    c.printError (.ofString "Illegal option -" ++ [letter, '\n'])
    c.print (.ofString "Usage: " ++ c.name ++ .ofString " [-as] args\n")
    return 2
  let m ← get
  let code ← FileTools.each names fun name => do
    match (candidates c name).filter (isRunnable c m) with
    | [] => return 1
    | found =>
      unless letters.contains 's' do
        for p in (if letters.contains 'a' then found else found.take 1) do c.print (p ++ ['\n'])
      return 0
  return if names.isEmpty then 1 else code

/-- A library without its symbols is still that library. -/
def strip (c : Call) : Running Nat :=
  FileTools.each (c.arguments.filter (·.head? ≠ some '-')) fun p => do
    match c.find (← get) p with
    | .ok (.file (.library _) _) | .ok (.file (.object _) _) => return 0
    | .ok _ => do
      c.mumble
      return 1
    | .error _ => do
      c.complain (FileTools.quoted p ++ .ofString ": No such file")
      return 1

end AutoDiff.SmallTools
