import AutoDiff.Host.Libraries
import AutoDiff.Host.Process

/-!
The machine on which models are compiled: its files, its environment, its log, and what it may refuse.
A job is a calculation that acts on it and may fail; what was done before a failure stays done.
-/

namespace AutoDiff

inductive LogLevel where
  | debug | info | warn
  deriving DecidableEq, Repr

def LogLevel.name : LogLevel → String
  | debug => "DEBUG" | info => "INFO" | warn => "WARN"

structure LogLine where
  level : LogLevel
  text : String
  deriving DecidableEq, Repr

/-- The steps that a machine may refuse. -/
inductive Operation where
  | makeDirectory (path : Path)
  | write (path : Path)
  | stage (directory : Path)
  | fill (staged : Location)
  | launch (program : Path)
  | rename (staged : Location) (target : Path)
  deriving DecidableEq, Repr

structure Host where
  disk : Disk := {}
  workingDirectory : Location := []
  environment : List (String × String) := []
  log : List LogLine := []
  libraries : Libraries := {}
  launcher : Launcher
  /-- Errors that steps end in whatever the state of the disk. -/
  obstacle : Operation → Option IoError := fun _ => none

abbrev Job (ε : Type) := ExceptT ε (StateM Host)

namespace Host

def isFile (h : Host) (p : Path) : Bool := h.disk.isFile h.workingDirectory p

def isDirectory (h : Host) (p : Path) : Bool := h.disk.isDirectory h.workingDirectory p

def release (h : Host) (library : Nat) : Host := { h with libraries := h.libraries.release library }

def environmentValue? (h : Host) (name : String) : Option String := h.environment.lookup name

end Host

namespace Job

variable {ε β : Type}

def record (level : LogLevel) (text : String) : Job ε Unit :=
  modify fun h => { h with log := h.log ++ [⟨level, text⟩] }

/-- Carries out a step on the disk, unless the machine refuses it. -/
def act (operation : Operation) (step : Host → Except IoError (β × Disk)) : Job IoError β := do
  let h ← get
  match h.obstacle operation with
  | some e => throw e
  | none =>
    match step h with
    | .error e => throw e
    | .ok (result, disk) =>
      set { h with disk }
      return result

def readText (p : Path) : Job IoError String := do
  let h ← get
  match h.disk.readText h.workingDirectory p with
  | .ok text => return text
  | .error e => throw e

def write (p : Path) (content : Content) : Job IoError Unit :=
  act (.write p) fun h => return ((), ← h.disk.write h.workingDirectory p content)

def makeDirectory (p : Path) : Job IoError Unit :=
  act (.makeDirectory p) fun h => return ((), ← h.disk.makeDirectory h.workingDirectory p)

/-- A directory that cannot be made may be there already. -/
def tolerate (p : Path) (e : IoError) : Job IoError Unit := do
  if (← get).isDirectory p then return () else throw e

/-- Makes a directory and those around it that are missing; `depth` bounds their number. -/
def makeDirectoriesWithin : Nat → Path → Job IoError Unit
  | 0, _ => throw .notFound
  | depth + 1, p =>
    if p.text.isEmpty then return ()
    else tryCatch (makeDirectory p) fun
      | .notFound =>
        match p.parent? with
        | none => throw .notFound
        | some parent => do
          makeDirectoriesWithin depth parent
          tryCatch (makeDirectory p) (tolerate p)
      | e => tolerate p e

def makeDirectories (p : Path) : Job IoError Unit := makeDirectoriesWithin (p.parts.length + 2) p

end Job

end AutoDiff
