import AutoDiff.Path

/-!
Model names and the paths of what is built for them. A model named `m` has the path `libm` without a
suffix in its directory; every kind of file has a suffix of its own.
-/

namespace AutoDiff.Artifact

def isLetter (c : Char) : Bool := c.isAlpha || c == '_'

/-- Model names become parts of C identifiers: ASCII letters, digits and underscores, no digit first. -/
def isModelName (name : String) : Bool :=
  match name.toList with
  | [] => false
  | c :: cs => isLetter c && cs.all fun c => isLetter c || c.isDigit

def generic (name : String) (directory : Path) : Path := directory.join ("lib" ++ name)

def librarySuffix : String := ".so"

def library (generic : Path) : Path := generic.withSuffix librarySuffix

def kernels (generic : Path) : Path := generic.withSuffix ".kernels.json"

def source (generic : Path) : Path := generic.withSuffix ".c"

/-- Files under construction have names that start so. -/
def stagedMark : String := ".adcg-"

end AutoDiff.Artifact
