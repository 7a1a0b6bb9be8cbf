import AutoDiff.Artifact.Interpreted
import AutoDiff.CSource.Library
import AutoDiff.Host.Basic
import AutoDiff.KernelSet.Json

namespace AutoDiff

inductive LoadError where
  | invalidModelName (name : String)
  | notFound (path : Path)
  | notALibrary (path : Path)
  | missingSymbol (path : Path) (symbol : String)
  | invalidMetadata (what : String)
  | kernels (e : TraceError)
  | read (path : Path) (e : IoError)
  | malformedKernels
  deriving DecidableEq, Repr

/-- The wording of an error; two of them have no fixed one. -/
def LoadError.message? : LoadError → Option String
  | invalidModelName name => some s!"invalid model name '{name}': expected a C identifier"
  | notFound path => some s!"compiled model not found at {path.text}"
  | notALibrary _ | malformedKernels => none
  | missingSymbol path symbol => some s!"symbol {symbol} is missing from {path.text}"
  | invalidMetadata what => some ("invalid artifact metadata: " ++ what)
  | kernels e => some ("invalid kernels: " ++ e.message)
  | read path e => some s!"failed to read {path.text}: {e.message}"

def KernelSet.toArtifact (k : KernelSet Binary64) : Except LoadError (Artifact Binary64) :=
  match k.validate with
  | .ok () => .ok k.artifact
  | .error e => .error (.kernels e)

namespace Artifact

def loadedText (path : Path) (a : Artifact Binary64) : String :=
  s!"loaded {path.text} ({a.inputSize} inputs, {a.outputSize} outputs, order {a.order.name})"

def checkName (name : String) : Except LoadError Unit :=
  if isModelName name then .ok () else .error (.invalidModelName name)

/-- The file of a model, which has to be there. -/
def checkFile (path : Path) : Job LoadError Unit := do
  unless (← get).isFile path do throw (.notFound path)

def ofExcept {ε β : Type} (e : Except ε β) : Job ε β := .mk (pure e)

/-- Loads kernels that were written as JSON. -/
def openInterpreted (name : String) (generic : Path) : Job LoadError (Artifact Binary64) := do
  ofExcept (checkName name)
  let path := kernels generic
  checkFile path
  let text ← (Job.readText path).adapt (.read path)
  match KernelSet.parse? text with
  | none => throw .malformedKernels
  | some k =>
    let a ← ofExcept k.toArtifact
    Job.record .debug (loadedText path a)
    return a

def bindError (path : Path) : CSource.BindError → LoadError
  | .missingSymbol symbol => .missingSymbol path symbol
  | .unknownOrder order => .invalidMetadata s!"derivative order {order}"
  | .noDimensions inputSize outputSize => .invalidMetadata s!"dimensions {inputSize} -> {outputSize}"

/-- Opens the library at a path. -/
def openLibrary (path : Path) : Job LoadError (Nat × CSource.TranslationUnit) := do
  let h ← get
  match h.libraries.openAt? h.disk h.workingDirectory path with
  | none => throw (.notALibrary path)
  | some (id, unit, libraries) =>
    set { h with libraries }
    return (id, unit)

/-- Loads a library. One that is not of the model is closed again. -/
def openNative (name : String) (generic : Path) : Job LoadError (Artifact Binary64) := do
  ofExcept (checkName name)
  let path := library generic
  checkFile path
  let (id, unit) ← openLibrary path
  match unit.bind CSource.powerRule name with
  | .error e =>
    modify (·.release id)
    throw (bindError path e)
  | .ok a =>
    Job.record .debug (loadedText path a)
    return { a with handle := some id }

end Artifact

end AutoDiff
