import AutoDiff.Artifact.Load
import AutoDiff.CompiledModel
import AutoDiff.Host.Toolchain
import AutoDiff.KernelSet.Source

/-!
Compilation of models. A backend turns kernels into a file and loads that file back. Files are written
under a staged name and moved into place, so that a file that is there is complete.
-/

namespace AutoDiff

inductive CompileError where
  | invalidModelName (name : String)
  | createDirectory (path : Path) (e : IoError)
  | trace (e : TraceError)
  | toolchain (e : ToolchainError)
  | write (path : Path) (e : IoError)
  | load (e : LoadError)
  /-- The model itself failed while it was recorded. -/
  | modelFault
  deriving DecidableEq, Repr

/-- The wording of an error, where it has a fixed one. -/
def CompileError.message? : CompileError → Option String
  | invalidModelName name => some s!"invalid model name '{name}': expected a C identifier"
  | createDirectory path e => some s!"failed to create artifact directory {path.text}: {e.message}"
  | trace e => some ("tracing failed: " ++ e.message)
  | toolchain e => e.message?.map ("compilation failed: " ++ ·)
  | write path e => some s!"failed to write {path.text}: {e.message}"
  | load e => e.message?.map ("failed to load the compiled model: " ++ ·)
  | modelFault => none

instance : Holds CompileError where
  held?
    | .toolchain e => Holds.held? e
    | _ => none

/-- Kernels are either kept as JSON and interpreted, or compiled to a library. -/
inductive Backend where
  | interpreted
  | native
  deriving DecidableEq, Repr

namespace Backend

def artifactPath : Backend → Path → Path
  | interpreted, generic => Artifact.kernels generic
  | native, generic => Artifact.library generic

def generateInterpreted (kernels : KernelSet Binary64) (path : Path) : Job CompileError Unit :=
  Job.withStaged (.write path) (path.parent?.getD ⟨""⟩) Artifact.stagedMark ".json" fun staged => do
    (Job.fill staged (.ofText kernels.toJson.pretty)).adapt (.write path)
    (Job.persist staged path).adapt fun e => .write path e.error

def generateNative (name : String) (kernels : KernelSet Binary64) (generic : Path) (c : Config) :
    Job CompileError Unit := do
  let toolchain ← (Toolchain.resolve c).adapt CompileError.toolchain
  let source := Content.source (kernels.source name)
  if c.keepSources then
    let path := Artifact.source generic
    (Job.write path source).adapt (.write path)
    Job.record .debug s!"wrote generated source to {path.text}"
  (toolchain.compileShared source (Artifact.library generic)).adapt CompileError.toolchain

/-- Makes the file of a model. -/
def generate (b : Backend) (name : String) (kernels : KernelSet Binary64) (generic : Path) (c : Config) :
    Job CompileError Path := do
  match b with
  | interpreted => generateInterpreted kernels (b.artifactPath generic)
  | native => generateNative name kernels generic c
  return b.artifactPath generic

def load : Backend → (name : String) → (generic : Path) → Job LoadError (Artifact Binary64)
  | interpreted => Artifact.openInterpreted
  | native => Artifact.openNative

def artifactExists (b : Backend) (h : Host) (name : String) (directory : Path) : Bool :=
  h.isFile (b.artifactPath (Artifact.generic name directory))

end Backend

namespace Model

def countText (t : Option (Trace Binary64)) : String :=
  match t with
  | some t => s!"Some({t.size})"
  | none => "None"

/-- The kernels of a model, with an account of the sizes. -/
def kernelsLogged (m : Model Binary64) (order : Order) : Job CompileError (KernelSet Binary64) := do
  match m.recorded, m.kernels order with
  | .ok (.error e), _ => throw (.trace e)
  | .ok (.ok recorded), some result =>
    Job.record .debug
      s!"recorded {recorded.size} nodes over {recorded.inputCount} inputs ({m.parameters.length} parameters)"
    match result with
    | .error e => throw (.trace e)
    | .ok k =>
      Job.record .debug (s!"kernels: forward {k.forward.size} nodes, jacobian {countText k.jacobian}, "
        ++ s!"hessian {countText k.hessian}")
      return k
  | _, _ => throw .modelFault

/-- Compiles a model under a name and loads what was made. -/
def compile (m : Model Binary64) (b : Backend) (name : String) (order : Order) (c : Config) :
    Job CompileError (CompiledModel Binary64) := do
  unless Artifact.isModelName name do throw (.invalidModelName name)
  (Job.makeDirectories c.artifactDirectory).adapt (.createDirectory c.artifactDirectory)
  let kernels ← m.kernelsLogged order
  let generic := Artifact.generic name c.artifactDirectory
  let path ← b.generate name kernels generic c
  Job.record (if c.verbose then .info else .debug) s!"Compiled library to {path.text}"
  return ⟨← (b.load name generic).adapt CompileError.load⟩

end Model

end AutoDiff
