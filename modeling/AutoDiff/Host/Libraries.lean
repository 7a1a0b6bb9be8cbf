import AutoDiff.Disk

/-!
The libraries that are open. A path under which a library is open leads to that library, whatever the file at
the path has become since. A file that is open already is not opened again under another path.
-/

namespace AutoDiff

/-- A library with the paths under which it was opened, and how often it is in use. -/
structure OpenLibrary where
  paths : List Path
  location : Location
  unit : CSource.TranslationUnit
  users : Nat
  deriving DecidableEq

structure Libraries where
  opened : List (Nat × OpenLibrary) := []
  deriving DecidableEq

namespace Libraries

def byPath? (ls : Libraries) (p : Path) : Option (Nat × OpenLibrary) :=
  ls.opened.find? fun (_, l) => l.paths.contains p

def byFile? (ls : Libraries) (location : Location) (unit : CSource.TranslationUnit) : Option (Nat × OpenLibrary) :=
  ls.opened.find? fun (_, l) => l.location = location ∧ l.unit = unit

/-- A number that no open library has. -/
def fresh (ls : Libraries) : Nat := (ls.opened.map (·.1 + 1)).foldl max 0

def put (ls : Libraries) (id : Nat) (l : OpenLibrary) : Libraries := ⟨(id, l) :: ls.opened.filter (·.1 ≠ id)⟩

def use (ls : Libraries) (id : Nat) (l : OpenLibrary) (p : Path) : Nat × CSource.TranslationUnit × Libraries :=
  (id, l.unit, ls.put id { l with users := l.users + 1, paths := if l.paths.contains p then l.paths else p :: l.paths })

/-- One use of a library less; without any it is closed. -/
def release (ls : Libraries) (id : Nat) : Libraries :=
  match ls.opened.lookup id with
  | none => ls
  | some l => if l.users ≤ 1 then ⟨ls.opened.filter (·.1 ≠ id)⟩ else ls.put id { l with users := l.users - 1 }

/-- Names of places of the system, which stand for them in a path after a dollar sign. -/
def placeNames : List String := ["ORIGIN", "PLATFORM", "LIB"]

/-- Whether a text starts with a placeholder, whose name is in braces or ends before the next character. -/
def startsWithPlace (t : List Char) : Bool :=
  placeNames.any fun name =>
    ("$\x7b" ++ name ++ "\x7d").toList.isPrefixOf t
      || (("$" ++ name).toList.isPrefixOf t
        && !(t[name.length + 1]?).any fun c => c.isAlphanum || c == '_')

def hasPlace : List Char → Bool
  | [] => false
  | c :: cs => startsWithPlace (c :: cs) || hasPlace cs

/-- A path without a slash names a library of the system, and so does one with a placeholder. -/
def isForeign (p : Path) : Bool :=
  !p.text.toList.contains '/' || hasPlace p.text.toList

def openAt? (ls : Libraries) (d : Disk) (directory : Location) (p : Path) :
    Option (Nat × CSource.TranslationUnit × Libraries) :=
  match ls.byPath? p with
  | some (id, l) => some (ls.use id l p)
  | none =>
    if isForeign p then none
    else match d.locate directory p, d.read directory p with
      | .ok location, .ok (.library unit) =>
        match ls.byFile? location unit with
        | some (id, l) => some (ls.use id l p)
        | none => some (ls.use ls.fresh ⟨[], location, unit, 0⟩ p)
      | _, _ => none

end Libraries

end AutoDiff
