import AutoDiff.Host.Basic

/-!
Files under construction. A staged file has a name that nothing else has. It is gone when the work on it
is done, whether that succeeds or fails, unless it was moved to another place, or the error that the work ends in
holds it; then it goes with the error.
-/

namespace AutoDiff

namespace Disk

def stagedName (mark suffix : String) (n : Nat) : String := mark ++ toString n ++ suffix

/-- The first staged name at or after `n` that is free in a directory, looking at `fuel` names. -/
def freeName (d : Disk) (directory : Location) (mark suffix : String) : Nat → Nat → String
  | 0, n => stagedName mark suffix n
  | fuel + 1, n =>
    if (d.entry? (directory ++ [stagedName mark suffix n])).isNone then stagedName mark suffix n
    else d.freeName directory mark suffix fuel (n + 1)

end Disk

/-- A staged file that could not be moved to its place, and why. -/
structure PersistError where
  error : IoError
  staged : Location
  deriving DecidableEq, Repr

/-- Errors that may hold a staged file. -/
class Holds (ε : Type) where
  held? : ε → Option Location

namespace Job

variable {ε β : Type}

/-- Makes an empty file with a fresh name. -/
def stage (directory : Path) (mark suffix : String) : Job IoError Location :=
  act (.stage directory) fun h => do
    let l ← h.disk.locate h.workingDirectory (if directory.text.isEmpty then ⟨"."⟩ else directory)
    let name := h.disk.freeName l mark suffix h.disk.entries.length 0
    let staged ← h.disk.locate h.workingDirectory (directory.join name)
    h.disk.checkParent staged
    return (staged, h.disk.insert staged (.file .empty false))

def fill (staged : Location) (content : Content) : Job IoError Unit :=
  act (.fill staged) fun h => .ok ((), h.disk.put staged content)

/-- Moves a staged file to its place, or hands it over with the error. -/
def persist (staged : Location) (target : Path) : Job PersistError Unit :=
  (act (.rename staged target) fun h => do
    return ((), ← h.disk.rename staged (← h.disk.locate h.workingDirectory target))).adapt (⟨·, staged⟩)

/-- Removes a staged file that is still there. -/
def discard (staged : Location) : StateM Host Unit :=
  modify fun h => match h.disk.entry? staged with
    | some .directory => h
    | _ => { h with disk := h.disk.erase staged }

variable [Holds ε]

/-- Whether work on a staged file ends in an error that holds it. -/
def keeps (staged : Location) : Except ε β → Bool
  | .ok _ => false
  | .error e => Holds.held? e = some staged

/-- What becomes of the disk when an error is dropped. -/
def release (e : ε) : StateM Host Unit :=
  match Holds.held? e with
  | some staged => discard staged
  | none => pure ()

/-- Works on a staged file, and discards it in the end unless it is kept. -/
def withStaged (report : IoError → ε) (directory : Path) (mark suffix : String) (work : Location → Job ε β) :
    Job ε β := do
  let staged ← (stage directory mark suffix).adapt report
  ExceptT.mk do
    let result ← (work staged).run
    unless keeps staged result do discard staged
    return result

end Job

end AutoDiff
