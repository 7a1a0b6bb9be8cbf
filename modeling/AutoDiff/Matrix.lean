namespace AutoDiff

structure Matrix (α : Type) where
  rows : Nat
  columns : Nat
  entries : Array α
  deriving DecidableEq, Repr

namespace Matrix

variable {α : Type}

def get? (m : Matrix α) (i j : Nat) : Option α :=
  if j < m.columns then m.entries[i * m.columns + j]? else none

def row (m : Matrix α) (i : Nat) : List α :=
  (m.entries.toList.drop (i * m.columns)).take m.columns

/-- The upper left part. -/
def block (m : Matrix α) (rows columns : Nat) : Matrix α :=
  { rows, columns, entries := ((List.range rows).flatMap fun i => (m.row i).take columns).toArray }

def toLists (m : Matrix α) : List (List α) := (List.range m.rows).map m.row

end Matrix

end AutoDiff
