import AutoDiff.Path

namespace AutoDiff

structure Config where
  optimizationFlags : List String := ["-O3", "-march=native", "-mtune=native", "-ffast-math"]
  artifactDirectory : Path := ⟨"/tmp/adcodegen"⟩
  /-- The compiler to use; without one it is looked for. -/
  compiler : Option Path := none
  /-- Whether the generated source is kept next to the library. -/
  keepSources : Bool := false
  verbose : Bool := false
  deriving DecidableEq, Repr

namespace Config

def inDirectory (directory : Path) : Config := { artifactDirectory := directory }

def withFlags (c : Config) (flags : List String) : Config := { c with optimizationFlags := flags }

def withCompiler (c : Config) (compiler : Path) : Config := { c with compiler := some compiler }

end Config

end AutoDiff
