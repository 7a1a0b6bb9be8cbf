import AutoDiff.Emulation.Execution
import AutoDiff.Host.Idle

/-!
A machine with the usual programs. This is the only place where the library meets the emulation of programs:
everything else takes whatever a machine launches programs with.
-/

namespace AutoDiff.Host

def programFiles (directory : Location) : List (Location × Entry) :=
  Programs.names.map fun name => (directory ++ [name], .file (.program name) true)

def standard : Host :=
  { idle with
    disk := ⟨idle.disk.entries ++ programFiles ["bin"] ++ programFiles ["usr", "bin"]⟩
    launcher := Execution.launch }

end AutoDiff.Host
