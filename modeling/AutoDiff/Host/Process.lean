import AutoDiff.Disk
import AutoDiff.Host.Status

namespace AutoDiff

/-- How a program ended, and what it wrote to its error stream. A program may write errors in words of its own,
which are then `none`. -/
structure Process where
  status : ExitStatus
  errors : Option (List UInt8) := some []
  deriving DecidableEq, Repr

/-- Runs a program on a disk, which it may change. It may fail to start. -/
abbrev Launcher :=
  (program : Path) → (arguments : List String) → (environment : List (String × String)) → (directory : Location) →
    Disk → Except IoError (Process × Disk)

end AutoDiff
