import AutoDiff.CommandLine.Run
import AutoDiff.Host.Idle

open AutoDiff CommandLine

def usageText : String :=
  "usage: adcg [--verbose] info|eval|jacobian|hessian --name NAME --dir DIR [--interpreted] "
    ++ "[--input VALUES] [--params VALUES] [--output-dim K]\n"

/-- The file that an invocation loads. -/
def modelFile (i : Invocation) : Path :=
  let generic := Artifact.generic i.name i.directory
  if i.interpreted then Artifact.kernels generic else Artifact.library generic

/-- A machine that holds one file, if that file can be read. -/
def hostWith (file : Path) (data? : Option ByteArray) : Host :=
  match data? with
  | none => Host.idle
  | some data =>
    let placed : Job IoError Unit := do
      Job.makeDirectories (file.parent?.getD ⟨""⟩)
      Job.write file (.bytes data.data)
    (placed.run.run Host.idle).2

def main (arguments : List String) : IO UInt32 := do
  match parse? arguments with
  | none =>
    IO.eprint usageText
    return 2
  | some i =>
    let file := modelFile i
    let data? ← try some <$> IO.FS.readBinFile file.text catch _ => pure none
    let outcome := i.run (hostWith file data?)
    IO.print outcome.output
    match outcome.error?, outcome with
    | some text, _ => IO.eprint text
    | none, .failure _ => IO.eprint s!"error[adcg]: failed to load {file.text}\n"
    | none, _ => pure ()
    return outcome.code.toUInt32
