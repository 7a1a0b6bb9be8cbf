import AutoDiff.Proofs.NumberLaws
import AutoDiff.Proofs.Values

namespace AutoDiff

open NumberKinds

section Folding

variable {E : Type} [Arithmetic E]

open Arithmetic

/-- The constant that an operation is folded to, if it is, given those that its operands are folded to. A product with
zero, a quotient of zero and a power with exponent zero are folded whatever the other operand is. -/
def foldBinary? (op : BinaryOp) : Option E → Option E → Option E
  | some c, some d => some (binary op c d)
  | some c, none => if (op = .mul ∨ op = .div) ∧ equal c (ofInt 0) = true then some c else none
  | none, some d =>
    if op = .mul ∧ equal d (ofInt 0) = true then some d
    else if op = .pow ∧ equal d (ofInt 0) = true then some (ofInt 1)
    else none
  | none, none => none

def foldPower? (exponent : Int32) (base : Option E) : Option E :=
  if exponent = 0 then some (ofInt 1) else if exponent = 1 then base else base.map (power · exponent)

def Node.folded? (f : NodeId → Option E) : Node E → Option E
  | input _ | weight _ => none
  | const c => some c
  | unary op arg => (f arg).map (Arithmetic.unary op)
  | binary op lhs rhs => foldBinary? op (f lhs) (f rhs)
  | power base exponent => foldPower? exponent (f base)

def Expression.folded? : Expression E → Option E
  | input _ | weight _ => none
  | const c => some c
  | unary op a => a.folded?.map (Arithmetic.unary op)
  | binary op a b => foldBinary? op a.folded? b.folded?
  | power a exponent => foldPower? (.ofInt exponent) a.folded?

namespace Trace

def folded? (t : Trace E) (id : NodeId) : Option E := (t.expression id).folded?

theorem folded?_eq {t : Trace E} (ordered : t.Ordered) {id : NodeId} {node : Node E}
    (found : t.nodes[id]? = some node) : t.folded? id = node.folded? t.folded? := by
  rw [folded?, expression_eq ordered found]
  cases node with
  | input | weight | const | unary | binary => rfl
  | power base exponent => simp [Node.unfold, Expression.folded?, Node.folded?, folded?]

end Trace

end Folding

theorem Node.folded?_congr {E : Type} [Arithmetic E] {f g : NodeId → Option E} (node : Node E)
    (same : ∀ operand : Nat, operand ∈ node.operands → f operand = g operand) : node.folded? f = node.folded? g := by
  cases node <;> simp_all [folded?, operands]

theorem Node.folded?_mapOperands {E : Type} [Arithmetic E] (f : NodeId → Option E) (g : NodeId → NodeId)
    (node : Node E) : (node.mapOperands g).folded? f = node.folded? (f ∘ g) := by
  cases node <;> rfl

def Simplified.const? {E : Type} (t : Trace E) : Simplified E → Option E
  | existing id => t.const? id
  | fresh (.const c) => some c
  | fresh _ => none

namespace Trace

theorem Placed.const?_eq {E : Type} {s u : Trace E} {made : Simplified E} {id : NodeId} (placed : s.Placed made id u) :
    u.const? id = made.const? s := by
  cases placed with
  | existing => rfl
  | @found node id there =>
      unfold Trace.const?
      rw [there]
      cases node <;> rfl
  | @appended node _ =>
      unfold Trace.const?
      rw [push_nodes_size]
      cases node <;> rfl

variable {E : Type} [Arithmetic E] [NumberKinds E] [SpecialLaws E] {s t : Trace E} {x w : Array E}

theorem not_isConst_zero {id : NodeId} {n : Int} (unit : n = 1 ∨ n = -1) (found : t.isConst id n = true) {c : E}
    (known : t.const? id = some c) : ¬Arithmetic.equal c (Arithmetic.ofInt 0) = true := by
  obtain ⟨d, same, recognized⟩ := isConst_eq_true_iff.mp found
  obtain rfl := Option.some.inj (known.symm.trans same)
  intro zero
  rw [SpecialLaws.equal_zero_iff, SpecialLaws.eq_of_equal c n unit recognized, SpecialLaws.isZero_unit n unit] at zero
  cases zero

omit [NumberKinds E] [SpecialLaws E] in
/-- What is negated twice is no constant: a constant would have been folded. -/
theorem Irreducible.const?_eq_none (irreducible : t.Irreducible) (ordered : t.Ordered) {id inner : NodeId}
    {op : UnaryOp} (found : t.nodes[id]? = some (.unary op inner)) : t.const? inner = none := by
  have kept := irreducible.simplify ordered found
  cases known : t.const? inner with
  | none => rfl
  | some c => simp [Trace.simplify, simplifyUnary, known] at kept

omit [NumberKinds E] [SpecialLaws E] in
theorem foldBinary?_eq_none {op : BinaryOp} {lhs rhs : NodeId} (either : t.const? lhs = none ∨ t.const? rhs = none)
    (unreducible : t.Unreducible op lhs rhs) : foldBinary? op (t.const? lhs) (t.const? rhs) = none := by
  cases left : t.const? lhs with
  | none =>
      cases right : t.const? rhs with
      | none => rfl
      | some d => cases op <;> simp_all [foldBinary?, Unreducible, isConst]
  | some c =>
      cases right : t.const? rhs with
      | none => cases op <;> simp_all [foldBinary?, Unreducible, isConst]
      | some d => simp [left, right] at either

theorem Rewrites.const?_eq (irreducible : t.Irreducible) (ordered : t.Ordered) {node : Node E} {made : Simplified E}
    (rewrites : t.Rewrites node made) : made.const? t = node.folded? t.const? := by
  induction rewrites with
  | @leaf node leaf => cases node <;> first | rfl | cases leaf
  | foldUnary op known => simp [Simplified.const?, Node.folded?, known]
  | foldBinary op first second => simp [Simplified.const?, Node.folded?, foldBinary?, first, second]
  | foldPower zero one known => simp [Simplified.const?, Node.folded?, foldPower?, zero, one, known]
  | @negNeg arg inner double =>
      have outer : t.const? arg = none := by
        unfold Trace.const?
        rw [double]
      simp [Simplified.const?, Node.folded?, outer, irreducible.const?_eq_none ordered double]
  | keepUnary unknown => simp [Simplified.const?, Node.folded?, unknown]
  | keepPower zero one unknown => simp [Simplified.const?, Node.folded?, foldPower?, zero, one, unknown]
  | powerZero base => rfl
  | powerOne base => rfl
  | zeroAdd zero unknown | subZero zero unknown | addZero zero unknown =>
      obtain ⟨c, known, _⟩ := isConst_eq_true_iff.mp zero
      simp [Simplified.const?, Node.folded?, foldBinary?, known, unknown]
  | zeroSub zero unknown _ ih =>
      obtain ⟨c, known, _⟩ := isConst_eq_true_iff.mp zero
      rw [ih]
      simp [Node.folded?, foldBinary?, known, unknown]
  | zeroMul zero unknown | mulZero zero unknown | zeroDiv zero unknown | powZero zero unknown =>
      obtain ⟨c, known, recognized⟩ := isConst_eq_true_iff.mp zero
      simp [Simplified.const?, Node.folded?, foldBinary?, known, unknown, recognized]
  | oneMul one unknown | mulOne one unknown | powOne one unknown =>
      obtain ⟨c, known, _⟩ := isConst_eq_true_iff.mp one
      simp [Simplified.const?, Node.folded?, foldBinary?, known, unknown, not_isConst_zero (.inl rfl) one known]
  | divOne one unknown =>
      obtain ⟨c, known, _⟩ := isConst_eq_true_iff.mp one
      simp [Simplified.const?, Node.folded?, foldBinary?, known, unknown]
  | minusMul minus unknown _ ih | mulMinus minus unknown _ ih =>
      obtain ⟨c, known, _⟩ := isConst_eq_true_iff.mp minus
      rw [ih]
      simp [Node.folded?, foldBinary?, known, unknown, not_isConst_zero (.inr rfl) minus known]
  | @keepBinary op lhs rhs either unreducible =>
      have unfolded : foldBinary? op (t.const? lhs) (t.const? rhs) = none := foldBinary?_eq_none either unreducible
      rw [Node.folded?, unfolded]
      unfold Trace.ordered
      split <;> rfl

end Trace

end AutoDiff
