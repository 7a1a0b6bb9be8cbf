import AutoDiff.Config.Basic
import AutoDiff.Toml.Parser

namespace AutoDiff.Config

def toDocument (c : Config) : Toml.Document :=
  [("optimization_flags", .texts c.optimizationFlags), ("artifact_directory", .text c.artifactDirectory.text)]
    ++ (match c.compiler with | some compiler => [("compiler", .text compiler.text)] | none => [])
    ++ [("keep_sources", .flag c.keepSources), ("verbose", .flag c.verbose)]

def toToml (c : Config) : String := Toml.render c.toDocument

/-- Changes one setting; `none` if there is no such setting, or it is of another kind. -/
def assign? (c : Config) : String × Toml.Value → Option Config
  | ("optimization_flags", .texts flags) => some { c with optimizationFlags := flags }
  | ("artifact_directory", .text directory) => some { c with artifactDirectory := ⟨directory⟩ }
  | ("compiler", .text compiler) => some { c with compiler := some ⟨compiler⟩ }
  | ("keep_sources", .flag keepSources) => some { c with keepSources }
  | ("verbose", .flag verbose) => some { c with verbose }
  | _ => none

/-- Settings that a text does not name keep their defaults. -/
def ofToml? (text : String) : Option Config := do (← Toml.parse? text).foldlM assign? {}

end AutoDiff.Config
