namespace AutoDiff

structure Path where
  text : String
  deriving DecidableEq, Repr, Inhabited

namespace Path

def splitSlashes : List Char → List (List Char)
  | [] => [[]]
  | c :: cs =>
    if c = '/' then [] :: splitSlashes cs
    else match splitSlashes cs with
      | [] => [[c]]
      | part :: parts => (c :: part) :: parts

/-- What stands between the slashes, also where it is empty. -/
def parts (p : Path) : List String := (splitSlashes p.text.toList).map String.ofList

def isAbsolute (p : Path) : Bool := p.text.toList.head? == some '/'

def endsWithSlash (p : Path) : Bool := p.text.toList.getLast? == some '/'

/-- The path of `name` in the directory `p`. -/
def join (p : Path) (name : String) : Path :=
  ⟨if p.text.isEmpty || p.endsWithSlash then p.text ++ name else p.text ++ "/" ++ name⟩

/-- Appends to the last part as it is, whatever dots that part has. -/
def withSuffix (p : Path) (suffix : String) : Path := ⟨p.text ++ suffix⟩

/-- The parts that matter: empty parts and dots are left out, a leading dot is kept. -/
def components (p : Path) : List String :=
  let parts := p.parts
  let significant := (if p.isAbsolute then parts else parts.drop 1).filter fun part => part ≠ "" ∧ part ≠ "."
  if p.isAbsolute then significant else parts.take 1 |>.filter (· ≠ "") |> (· ++ significant)

/-- The path without its last component. The root and the empty path have no parent. -/
def parent? (p : Path) : Option Path :=
  if p.components.isEmpty then none
  else some ⟨(if p.isAbsolute then "/" else "") ++ "/".intercalate p.components.dropLast⟩

end Path

end AutoDiff
