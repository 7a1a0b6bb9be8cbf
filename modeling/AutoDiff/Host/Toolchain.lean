import AutoDiff.Config.Basic
import AutoDiff.Host.Staging
import AutoDiff.Text.Blank
import AutoDiff.Text.Utf8
import AutoDiff.Artifact.Path

namespace AutoDiff

inductive ToolchainError where
  | compilerNotFound
  | compilerMissing (name : String)
  | spawn (compiler : Path) (e : IoError)
  | failed (compiler : Path) (status : ExitStatus) (errors : Option String)
  | io (e : IoError)
  | persist (e : PersistError)
  deriving DecidableEq, Repr

/-- The wording of an error, unless part of it is a compiler's own. -/
def ToolchainError.message? : ToolchainError → Option String
  | compilerNotFound => some "no C compiler found; set ADCG_CC or CC, or install cc, gcc or clang"
  | compilerMissing name => some s!"configured compiler '{name}' was not found"
  | spawn compiler e => some s!"failed to run {compiler.text}: {e.message}"
  | failed compiler status errors =>
    errors.map fun errors => s!"{compiler.text} exited with {status.text}: {errors}"
  | io e => some s!"io: {e.message}"
  | persist e =>
    some s!"failed to move compiled library into place: failed to persist temporary file path: {e.error.message}"

/-- A library that could not be moved into place. -/
instance : Holds ToolchainError where
  held?
    | .persist e => some e.staged
    | _ => none

/-- A compiler that was found, and the flags it gets. -/
structure Toolchain where
  compiler : Path
  flags : List String
  verbose : Bool
  deriving DecidableEq, Repr

namespace Host

def isExecutable (h : Host) (p : Path) : Bool :=
  match h.disk.find h.workingDirectory p with
  | .ok (.file _ executable) => executable
  | _ => false

def splitColons (text : String) : List String := (text.toList.splitOn ':').map String.ofList

/-- Whether a name says where the program is, rather than only what it is called. -/
def isPlaced (p : Path) : Bool := 1 < p.components.length + (if p.isAbsolute then 1 else 0)

/-- A directory of the search path. The home directory may be written as a tilde. -/
def searchDirectory (h : Host) (text : String) : Path :=
  match (Path.mk text).components, h.environmentValue? "HOME" with
  | "~" :: rest, some home => rest.foldl Path.join ⟨home⟩
  | _, _ => ⟨text⟩

/-- A program by its place, or by its name in the directories of the search path. -/
def which? (h : Host) (p : Path) : Option Path :=
  if isPlaced p then (if h.isExecutable p then some p else none)
  else do
    let directories ← h.environmentValue? "PATH"
    ((splitColons directories).map fun d => (h.searchDirectory d).join p.text).find? h.isExecutable

/-- The compiler that the environment names; blanks around the name do not count. -/
def namedCompiler? (h : Host) : Option String :=
  ["ADCG_CC", "CC"].findSome? fun name =>
    match (h.environmentValue? name).map Text.trim with
    | none | some "" => none
    | some compiler => some compiler

/-- The compiler of a configuration, else that of the environment, else the first of the usual names. -/
def findCompiler (h : Host) (c : Config) : Except ToolchainError Path :=
  match c.compiler, h.namedCompiler? with
  | some p, _ => ((h.which? p).map .ok).getD (.error (.compilerMissing p.text))
  | none, some name => ((h.which? ⟨name⟩).map .ok).getD (.error (.compilerMissing name))
  | none, none => ((["cc", "gcc", "clang"].findSome? fun name => h.which? ⟨name⟩).map .ok).getD
      (.error .compilerNotFound)

end Host

namespace Toolchain

def resolve (c : Config) : Job ToolchainError Toolchain := do
  match (← get).findCompiler c with
  | .error e => throw e
  | .ok compiler =>
    Job.record .debug s!"using C compiler {compiler.text}"
    return ⟨compiler, c.optimizationFlags, c.verbose⟩

/-- The flags come first and the libraries last. -/
def arguments (t : Toolchain) (source output : String) : List String :=
  t.flags ++ ["-shared", "-fPIC", "-rdynamic", "-o", output, source, "-lm"]

def locationText (l : Location) : String := String.join (l.map ("/" ++ ·))

/-- Runs the compiler on a staged source; what it makes goes to the staged output. -/
def launch (t : Toolchain) (source output : Location) : Job IoError Process :=
  Job.act (.launch t.compiler) fun h =>
    h.launcher t.compiler (t.arguments (locationText source) (locationText output)) h.environment h.workingDirectory h.disk

def errorText? (p : Process) : Option String :=
  p.errors.map fun errors => String.ofList (Text.trimChars (Text.decodeLossy errors))

/-- Compiles a source into the library `output`. -/
def compileShared (t : Toolchain) (source : Content) (output : Path) : Job ToolchainError Unit :=
  Job.withStaged .io ⟨"/tmp"⟩ "adcg-" ".c" fun sourceFile => do
    (Job.fill sourceFile source).adapt ToolchainError.io
    Job.withStaged .io (output.parent?.getD ⟨""⟩) Artifact.stagedMark Artifact.librarySuffix fun staged => do
      let process ← (t.launch sourceFile staged).adapt (.spawn t.compiler)
      let errors := errorText? process
      unless process.status.isSuccess do throw (.failed t.compiler process.status errors)
      let warnings := errors.getD ""
      unless warnings.isEmpty do Job.record .warn s!"{t.compiler.text}: {warnings}"
      (Job.persist staged output).adapt ToolchainError.persist

end Toolchain

end AutoDiff
