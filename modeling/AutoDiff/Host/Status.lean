namespace AutoDiff

inductive ExitStatus where
  | exited (code : Nat)
  | signalled (number : Nat)
  deriving DecidableEq, Repr

namespace ExitStatus

def isSuccess (s : ExitStatus) : Bool := s == exited 0

def signalNames : List String :=
  ["HUP", "INT", "QUIT", "ILL", "TRAP", "ABRT", "BUS", "FPE", "KILL", "USR1", "SEGV", "USR2", "PIPE",
    "ALRM", "TERM", "STKFLT", "CHLD", "CONT", "STOP", "TSTP", "TTIN", "TTOU", "URG", "XCPU", "XFSZ",
    "VTALRM", "PROF", "WINCH", "IO", "PWR", "SYS"]

def signalName? (number : Nat) : Option String :=
  if number = 0 then none else signalNames[number - 1]?

def signalNumber? (name : String) : Option Nat := (signalNames.idxOf? name).map (· + 1)

def text : ExitStatus → String
  | exited code => s!"exit status: {code}"
  | signalled number =>
    s!"signal: {number}" ++ (match signalName? number with | some name => s!" (SIG{name})" | none => "")

/-- The number that a shell gives to an end. -/
def code : ExitStatus → Nat
  | exited code => code
  | signalled number => 128 + number

end ExitStatus

end AutoDiff
