import AutoDiff.Proofs.Binary64Laws
import AutoDiff.Proofs.ExtendedRationalLaws
import AutoDiff.Proofs.LostSigns

/-!
Infinities and numbers that are none in optimized traces. Where zero constants absorb nothing special, and no operation
tells the sign of a zero that may have lost it, a trace and the optimized one agree; otherwise they need not.
-/

namespace AutoDiff

open NumberKinds

namespace Trace

variable {E : Type} [Arithmetic E] [NumberKinds E] [SpecialLaws E] {s t u : Trace E} {x w values : Array E}

/-- What is known of a node and what has become of it: it is a constant if it is folded, and its value is kept. -/
def Follows (t : Trace E) (x w values : Array E) (old new : NodeId) (s : Trace E) : Prop :=
  s.const? new = t.folded? old ∧
    ∃ v v', values[old]? = some v ∧ (s.expression new).value? x w = some v' ∧ t.Kept values old v v'

theorem Follows.absorbing {node : Node E} {rename : NodeId → NodeId} (follows : ∀ operand : Nat,
      operand ∈ node.operands → t.Follows x w values operand (rename operand) s)
    (absorbing : node.Absorbing t.folded? fun operand => values[operand]?) :
    (node.mapOperands rename).Absorbing s.const? fun id => (s.expression id).value? x w := by
  rw [Node.absorbing_mapOperands]
  cases node with
  | input | weight | const | unary | power => trivial
  | binary op lhs rhs =>
      obtain ⟨left, a, a', givenLeft, valueLeft, keptLeft⟩ := follows lhs (by simp [Node.operands])
      obtain ⟨right, b, b', givenRight, valueRight, keptRight⟩ := follows rhs (by simp [Node.operands])
      cases op with
      | add | sub | pow => trivial
      | mul =>
          refine ⟨fun zero v value => ?_, fun zero v value => ?_⟩
          · obtain rfl := Option.some.inj (valueRight.symm.trans value)
            exact keptRight.isFinite (absorbing.1 (left ▸ zero) b givenRight)
          · obtain rfl := Option.some.inj (valueLeft.symm.trans value)
            exact keptLeft.isFinite (absorbing.2 (right ▸ zero) a givenLeft)
      | div =>
          intro zero unknown v value
          obtain rfl := Option.some.inj (valueRight.symm.trans value)
          obtain ⟨nonzero, number⟩ := absorbing (left ▸ zero) (right ▸ unknown) b givenRight
          exact ⟨keptRight.isZero_eq_false nonzero, keptRight.isNaN_eq_false number⟩

omit [SpecialLaws E] in
theorem Extends.follows {old new : NodeId} (more : Extends s u) (less : new < s.size)
    (follows : t.Follows x w values old new s) : t.Follows x w values old new u := by
  have same : u.const? new = s.const? new := by
    unfold Trace.const?
    rw [more.nodes new less]
  rw [Follows, same, more.expression less]
  exact follows

variable [DecidableEq E]

theorem Sharing.follows {n : Nat} {rename : NodeId → NodeId} {node : Node E} {made : Simplified E} {id : NodeId}
    (sharing : t.Sharing n rename s node made id u) (irreducible : s.Irreducible) (ordered : t.Ordered)
    (valued : t.Valued x w values) (robust : t.Robust x w values)
    (known : ∀ old : Nat, old < n → t.Reachable old → t.Follows x w values old (rename old) s) :
    t.Follows x w values n id u := by
  have operands (operand : Nat) (member : operand ∈ node.operands) :
      t.Follows x w values operand (rename operand) s :=
    known operand (sharing.operands operand member).1 (sharing.operands operand member).2
  have constants (operand : Nat) (member : operand ∈ node.operands) :
      (s.const? ∘ rename) operand = t.folded? operand := (operands operand member).1
  have rewrites := rewrites_of_simplify sharing.simplified
  constructor
  · rw [sharing.placed.const?_eq, rewrites.const?_eq irreducible sharing.ordered, Node.folded?_mapOperands,
      Node.folded?_congr node constants, folded?_eq ordered sharing.found]
  · have less : n < values.size := valued.1 ▸ (Array.getElem?_eq_some_iff.mp sharing.found).1
    have value : values[n]? = some values[n] := Array.getElem?_eq_getElem less
    obtain ⟨v', middle, kept⟩ := robust.exists_kept valued ordered sharing.reachable sharing.found
      (f := s.expression ∘ rename) (fun operand member => (operands operand member).2) value
    rw [← Node.unfold_mapOperands] at middle
    have absorbing := Follows.absorbing operands (robust.absorbing n node sharing.reachable sharing.found)
    obtain ⟨v'', after, same | ⟨agree, lossy⟩⟩ := rewrites.exists_agree sharing.ordered absorbing middle
    · refine ⟨_, v'', value, ?_, kept.trans_same same⟩
      rwa [sharing.placed.expression sharing.ordered sharing.defined]
    · rw [Node.lossy_mapOperands, Node.lossy_congr constants] at lossy
      refine ⟨_, v'', value, ?_, kept.trans_agree agree (.identity sharing.found lossy value)⟩
      rwa [sharing.placed.expression sharing.ordered sharing.defined]

/-- Where zero constants absorb nothing special, and no needed operation tells the sign of a zero that may have lost it,
optimization keeps the outputs but for the sign of a zero, infinities and numbers that are none among them. -/
theorem evaluate_optimize_agree (verified : t.verify = .ok ()) (inputs : x.size = t.inputCount)
    (weights : w.size = t.weightCount) (robust : ∀ values, t.values? x w = some values → t.Robust x w values) :
    ∃ r before after, t.optimize = some r ∧ t.evaluate x w = some (.ok before) ∧ r.evaluate x w = some (.ok after) ∧
      List.Forall₂ Agree before.toList after.toList := by
  have wellFormed := t.verify_eq_ok_iff.mp verified
  obtain ⟨values, run, valued⟩ := exists_values? wellFormed.toConsistent inputs weights
  refine exists_evaluations_of_each wellFormed (Q := fun old new s => old < t.size ∧ t.Follows x w values old new s)
    (fun more less follows => ⟨follows.1, more.follows less follows.2⟩) (fun sharing irreducible known => ?_) inputs
    weights fun follows value => ?_
  · exact ⟨sharing.reachable.lt_size wellFormed, sharing.follows irreducible wellFormed.ordered valued
      (robust values run) fun old less reachable => (known old less reachable).2⟩
  · obtain ⟨less, _, v, v', before, after, kept⟩ := follows
    rw [valued.eq_value? wellFormed.ordered less, value] at before
    cases before
    exact ⟨v', after, kept.agree⟩

def besideReciprocal (E : Type) [Arithmetic E] : Trace E where
  nodes := #[.input 0, .const (Arithmetic.ofInt 0), .binary .add 0 1, .const (Arithmetic.ofInt 1), .binary .div 3 0,
    .binary .mul 2 2]
  inputCount := 1
  weightCount := 0
  outputs := [2, 4, 5]

def Keeps {E : Type} [Arithmetic E] [NumberKinds E] [DecidableEq E] (t : Trace E) (x before : Array E) : Prop :=
  t.verify = .ok () ∧ t.evaluate x #[] = some (.ok before) ∧
    ∃ r after, t.optimize = some r ∧ r.evaluate x #[] = some (.ok after) ∧
      List.Forall₂ Agree before.toList after.toList

omit [DecidableEq E] in
theorem robust_besideReciprocal [ZeroLaws E] {x values : Array E} (size : x.size = 1)
    (verified : (besideReciprocal E).verify = .ok ()) (sum : (besideReciprocal E).folded? 2 = none)
    (one : (besideReciprocal E).folded? 3 = some (Arithmetic.ofInt 1))
    (run : (besideReciprocal E).values? x #[] = some values) : (besideReciprocal E).Robust x #[] values := by
  obtain ⟨others, same, valued⟩ := exists_values? ((besideReciprocal E).verify_eq_ok_iff.mp verified).toConsistent
    (x := x) (w := #[]) size rfl
  obtain rfl := Option.some.inj (run.symm.trans same)
  refine .of_divisors valued (fun id node _ found => ?_) (fun id lhs rhs _ found => ?_)
    (fun id lhs rhs _ found => ?_) (fun id base exponent _ found => ?_)
  all_goals
    have member := Array.mem_of_getElem? found
    simp only [besideReciprocal, List.mem_toArray, List.mem_cons, List.not_mem_nil, or_false] at member
  · rcases member with rfl | rfl | rfl | rfl | rfl | rfl
    · trivial
    · trivial
    · trivial
    · trivial
    · rintro ⟨d, known, zero⟩
      obtain rfl := Option.some.inj (one.symm.trans known)
      cases zero.symm.trans (SpecialLaws.isZero_unit 1 (.inl rfl))
    · simp [Node.Absorbing, ZeroConstant, sum]
  · rcases member with same | same | same | same | same | same <;> cases same
    intro lost
    -- the divisor is an input, which nothing has simplified
    cases lost with
    | identity found lossy =>
        cases found
        cases lossy
    | operation found member =>
        cases found
        cases member
  · rcases member with same | same | same | same | same | same <;> cases same
  · rcases member with same | same | same | same | same | same <;> cases same

/-- The sum with a negative zero loses its sign; the reciprocal does not depend on it. -/
theorem evaluate_optimize_agree_besideReciprocal :
    (besideReciprocal ExtendedRational).Keeps #[.negativeZero] #[.number 0, .infinity true, .number 0] ∧
      letI := Binary64.knownLibrary
      (besideReciprocal Binary64).Keeps #[Binary64.neg ⟨0⟩] #[⟨0⟩, Binary64.infinity.neg, ⟨0⟩] := by
  have kept {E : Type} [Arithmetic E] [NumberKinds E] [SpecialLaws E] [ZeroLaws E] [DecidableEq E]
      {x before : Array E} (size : x.size = 1) (verified : (besideReciprocal E).verify = .ok ())
      (sum : (besideReciprocal E).folded? 2 = none)
      (one : (besideReciprocal E).folded? 3 = some (Arithmetic.ofInt 1))
      (evaluated : (besideReciprocal E).evaluate x #[] = some (.ok before)) :
      (besideReciprocal E).Keeps x before := by
    obtain ⟨r, _, after, optimized, same, again, agree⟩ := evaluate_optimize_agree verified (w := #[]) size rfl
      fun values run => robust_besideReciprocal size verified sum one run
    rw [evaluated] at same
    cases same
    exact ⟨verified, evaluated, r, after, optimized, again, agree⟩
  constructor
  · exact kept rfl (by decide +kernel) (by decide +kernel) (by decide +kernel) (by decide +kernel)
  · let _ := Binary64.knownLibrary
    have := Binary64.libraryLaws_known
    exact kept rfl (by decide +kernel) (by decide +kernel) (by decide +kernel) (by decide +kernel)

def quotientOfZero : Trace ExtendedRational where
  nodes := #[.input 0, .const (.number 0), .binary .div 1 0]
  inputCount := 1
  weightCount := 0
  outputs := [2]

def reciprocalOfSum : Trace ExtendedRational where
  nodes := #[.input 0, .const (.number 0), .binary .add 0 1, .const (.number 1), .binary .div 3 2]
  inputCount := 1
  weightCount := 0
  outputs := [4]

theorem optimize_quotientOfZero : quotientOfZero.optimize =
    some { nodes := #[.const (.number 0)], inputCount := 1, weightCount := 0, outputs := [0] } := by
  have verified : quotientOfZero.verify = .ok () := by decide +kernel
  refine optimize_of_rebuild (quotientOfZero.verify_eq_ok_iff.mp verified)
    (u := { nodes := #[.input 0, .const (.number 0)], inputCount := 1, weightCount := 0, outputs := [1] }) ?_ ?_
  · decide +kernel
  · decide +kernel

theorem optimize_reciprocalOfSum : reciprocalOfSum.optimize =
    some { nodes := #[.input 0, .const (.number 1), .binary .div 1 0], inputCount := 1, weightCount := 0,
           outputs := [2] } := by
  have verified : reciprocalOfSum.verify = .ok () := by decide +kernel
  refine optimize_of_rebuild (reciprocalOfSum.verify_eq_ok_iff.mp verified)
    (u := { nodes := #[.input 0, .const (.number 0), .const (.number 1), .binary .div 2 0], inputCount := 1,
            weightCount := 0, outputs := [3] }) ?_ ?_
  · decide +kernel
  · decide +kernel

/-- Without any product, a quotient that is no number becomes zero, and an infinity becomes the opposite one. -/
theorem optimize_changes_special :
    (quotientOfZero.verify = .ok () ∧ (∀ lhs rhs : NodeId, .binary .mul lhs rhs ∉ quotientOfZero.nodes) ∧
      quotientOfZero.evaluate #[.number 0] #[] = some (.ok #[.nan]) ∧
      (∃ r, quotientOfZero.optimize = some r ∧ r.evaluate #[.number 0] #[] = some (.ok #[.number 0])) ∧
      ¬Agree ExtendedRational.nan (.number 0)) ∧
    reciprocalOfSum.verify = .ok () ∧ (∀ lhs rhs : NodeId, .binary .mul lhs rhs ∉ reciprocalOfSum.nodes) ∧
      reciprocalOfSum.evaluate #[.negativeZero] #[] = some (.ok #[.infinity false]) ∧
      (∃ r, reciprocalOfSum.optimize = some r ∧ r.evaluate #[.negativeZero] #[] = some (.ok #[.infinity true])) ∧
      ¬Agree (ExtendedRational.infinity false) (.infinity true) := by
  refine ⟨⟨by decide +kernel, by simp [quotientOfZero], by decide +kernel,
    ⟨_, optimize_quotientOfZero, by decide +kernel⟩, ?_⟩, by decide +kernel, by simp [reciprocalOfSum],
    by decide +kernel, ⟨_, optimize_reciprocalOfSum, by decide +kernel⟩, ?_⟩
  all_goals simp [Agree, Same, NumberKinds.isNaN, NumberKinds.isZero, ExtendedRational.isFinite]

end Trace

end AutoDiff
