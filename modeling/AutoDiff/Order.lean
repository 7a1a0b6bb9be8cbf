import AutoDiff.Text.Blank

namespace AutoDiff

inductive Order where
  | zeroth
  | first
  | second
  deriving DecidableEq, Repr, Inhabited

namespace Order

def toNat : Order → Nat
  | zeroth => 0
  | first => 1
  | second => 2

def ofNat? : Nat → Option Order
  | 0 => some zeroth
  | 1 => some first
  | 2 => some second
  | _ => none

instance : Ord Order := ⟨fun a b => compare a.toNat b.toNat⟩
instance : LE Order := ⟨fun a b => a.toNat ≤ b.toNat⟩
instance (a b : Order) : Decidable (a ≤ b) := inferInstanceAs (Decidable (a.toNat ≤ b.toNat))

def includesJacobian (order : Order) : Bool := first ≤ order
def includesHessian (order : Order) : Bool := second ≤ order

def all : List Order := [zeroth, first, second]

def name : Order → String
  | zeroth => "zero"
  | first => "first"
  | second => "second"

def ofName? (name : String) : Option Order := all.find? (·.name == name)

/-- A text that is no order, as it was compared. -/
structure Unknown where
  word : String
  deriving DecidableEq, Repr

def Unknown.message (u : Unknown) : String :=
  s!"unknown derivative order '{u.word}' (expected zero|first|second or 0|1|2)"

/-- An order is written as its name or its number, in any ASCII case and between blanks; `none` is a
second name of the lowest order. -/
def parse (text : String) : Except Unknown Order :=
  match Text.asciiLower (Text.trim text) with
  | "0" | "zero" | "none" => .ok zeroth
  | "1" | "first" => .ok first
  | "2" | "second" => .ok second
  | word => .error ⟨word⟩

end Order

/-- What an artifact can compute. -/
inductive Capability where
  | valueOnly
  | valueAndJacobian
  | valueJacobianAndHessian
  deriving DecidableEq, Repr

namespace Capability

def ofOrder : Order → Capability
  | .zeroth => valueOnly
  | .first => valueAndJacobian
  | .second => valueJacobianAndHessian

def order : Capability → Order
  | valueOnly => .zeroth
  | valueAndJacobian => .first
  | valueJacobianAndHessian => .second

def supports (capability : Capability) (order : Order) : Bool := order ≤ capability.order

def name : Capability → String
  | valueOnly => "ValueOnly"
  | valueAndJacobian => "ValueAndJacobian"
  | valueJacobianAndHessian => "ValueJacobianAndHessian"

end Capability

end AutoDiff
