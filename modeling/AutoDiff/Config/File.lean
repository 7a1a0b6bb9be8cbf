import AutoDiff.Config.Toml
import AutoDiff.Host.Basic

namespace AutoDiff

inductive ConfigError where
  | read (path : Path) (e : IoError)
  | malformed
  deriving DecidableEq, Repr

/-- The wording of an error; a malformed file has no fixed one. -/
def ConfigError.message? : ConfigError → Option String
  | read path e => some s!"failed to read config {path.text}: {e.message}"
  | malformed => none

def Config.ofFile (path : Path) : Job ConfigError Config := do
  let text ← (Job.readText path).adapt (.read path)
  match ofToml? text with
  | some c => return c
  | none => throw .malformed

end AutoDiff
