import AutoDiff.Proofs.Binary64Laws
import AutoDiff.Proofs.ExtendedRationalLaws
import AutoDiff.Proofs.Values

/-!
Optimization where everything is finite. The rules of simplification are identities but for the sign of a zero, and
whatever comes of that sign is not finite or a zero again. So a trace and the optimized one have the same results, but
for the sign of a zero, wherever all that is calculated is finite.
-/

namespace AutoDiff

open NumberKinds
open FiniteLaws

variable {E : Type} [Arithmetic E] [NumberKinds E] [FiniteLaws E]

section Laws

variable {op : BinaryOp} {x y result : E}

theorem Near.isFinite (near : Near x y) (finite : NumberKinds.isFinite x = true) :
    NumberKinds.isFinite y = true := by
  rcases near with rfl | ⟨_, zero⟩
  · exact finite
  · exact isFinite_of_isZero _ zero

theorem near_comm (commutes : op.isCommutative = true)
    (law : NumberKinds.isFinite (Arithmetic.binary op x y) = true → Near (Arithmetic.binary op x y) result)
    (finite : NumberKinds.isFinite (Arithmetic.binary op y x) = true) :
    Near (Arithmetic.binary op y x) result := by
  have swapped := FiniteLaws.comm op y x commutes finite
  exact swapped.trans (law (swapped.isFinite finite))

end Laws

namespace Expression

variable {x w : Array E} {a b c d : Expression E} {op : BinaryOp}

def IsFinite (x w : Array E) (a : Expression E) : Prop := ∃ v, a.value? x w = some v ∧ isFinite v = true

/-- The expressions have finite values at `x` and `w`, the same but for the sign of a zero. -/
def Near (x w : Array E) (a b : Expression E) : Prop :=
  ∃ u v, a.value? x w = some u ∧ b.value? x w = some v ∧ isFinite u = true ∧ AutoDiff.Near u v

omit [FiniteLaws E] in
theorem IsFinite.near_self (finite : a.IsFinite x w) : a.Near x w a := by
  obtain ⟨v, value, finite⟩ := finite
  exact ⟨v, v, value, value, finite, .refl v⟩

theorem Near.right (near : a.Near x w b) : b.IsFinite x w := by
  obtain ⟨u, v, _, value, finite, near⟩ := near
  exact ⟨v, value, near.isFinite finite⟩

omit [FiniteLaws E] in
theorem Near.trans (first : a.Near x w b) (second : b.Near x w c) : a.Near x w c := by
  obtain ⟨u, v, left, middle, finite, near⟩ := first
  obtain ⟨v', w', again, right, _, nearer⟩ := second
  obtain rfl := Option.some.inj (middle.symm.trans again)
  exact ⟨u, w', left, right, finite, near.trans nearer⟩

omit [FiniteLaws E] in
theorem IsFinite.exists_unary {op : UnaryOp} (finite : (unary op a).IsFinite x w) :
    ∃ u, a.value? x w = some u ∧ isFinite (Arithmetic.unary op u) = true := by
  obtain ⟨v, value, finite⟩ := finite
  obtain ⟨u, given, rfl⟩ := Option.map_eq_some_iff.mp value
  exact ⟨u, given, finite⟩

omit [FiniteLaws E] in
theorem IsFinite.exists_binary (finite : (binary op a b).IsFinite x w) :
    ∃ u v, a.value? x w = some u ∧ b.value? x w = some v ∧ isFinite (Arithmetic.binary op u v) = true := by
  obtain ⟨v, value, finite⟩ := finite
  obtain ⟨u, left, value⟩ := Option.bind_eq_some_iff.mp value
  obtain ⟨v, right, rfl⟩ := Option.map_eq_some_iff.mp value
  exact ⟨u, v, left, right, finite⟩

omit [FiniteLaws E] in
theorem IsFinite.exists_power {exponent : Int} (finite : (power a exponent).IsFinite x w) :
    ∃ u, a.value? x w = some u ∧ isFinite (Arithmetic.power u (.ofInt exponent)) = true := by
  obtain ⟨v, value, finite⟩ := finite
  obtain ⟨u, given, rfl⟩ := Option.map_eq_some_iff.mp value
  exact ⟨u, given, finite⟩

end Expression

theorem Node.near_congr {x w : Array E} {f g : NodeId → Expression E} (node : Node E)
    (near : ∀ operand : Nat, operand ∈ node.operands → (f operand).Near x w (g operand))
    (finite : (node.unfold f).IsFinite x w) : (node.unfold f).Near x w (node.unfold g) := by
  cases node with
  | input | weight | const => exact finite.near_self
  | unary op arg =>
      obtain ⟨u, given, finite⟩ := finite.exists_unary
      obtain ⟨u', v, same, value, _, near⟩ := near arg (by simp [operands])
      obtain rfl := Option.some.inj (given.symm.trans same)
      exact ⟨_, _, by simp [unfold, Expression.value?, given], by simp [unfold, Expression.value?, value], finite,
        near_unary op near finite⟩
  | binary op lhs rhs =>
      obtain ⟨u, v, left, right, finite⟩ := finite.exists_binary
      obtain ⟨u', y, same, first, _, nearLeft⟩ := near lhs (by simp [operands])
      obtain rfl := Option.some.inj (left.symm.trans same)
      obtain ⟨v', z, same, second, _, nearRight⟩ := near rhs (by simp [operands])
      obtain rfl := Option.some.inj (right.symm.trans same)
      exact ⟨_, _, by simp [unfold, Expression.value?, left, right], by simp [unfold, Expression.value?, first, second],
        finite, near_binary op nearLeft nearRight finite⟩
  | power base exponent =>
      obtain ⟨u, given, finite⟩ := finite.exists_power
      obtain ⟨u', v, same, value, _, near⟩ := near base (by simp [operands])
      obtain rfl := Option.some.inj (given.symm.trans same)
      exact ⟨_, _, by simp [unfold, Expression.value?, given], by simp [unfold, Expression.value?, value], finite,
        near_power _ near finite⟩

namespace Trace

variable {s t : Trace E} {x w : Array E}

theorem near_of_isConst_left (ordered : t.Ordered) {op : BinaryOp} {lhs rhs : NodeId} {n : Int} {b : Expression E}
    (recognized : t.isConst lhs n = true)
    (finite : ((Node.binary op lhs rhs : Node E).unfold t.expression).IsFinite x w)
    (law : ∀ c v, (t.expression lhs).value? x w = some c → AutoDiff.Near (Arithmetic.ofInt n) c →
      (t.expression rhs).value? x w = some v → isFinite (Arithmetic.binary op (Arithmetic.ofInt n) v) = true →
      ∃ r, b.value? x w = some r ∧ AutoDiff.Near (Arithmetic.binary op (Arithmetic.ofInt n) v) r) :
    ((Node.binary op lhs rhs : Node E).unfold t.expression).Near x w b := by
  obtain ⟨c, known, same⟩ := isConst_eq_true_iff.mp recognized
  have near := near_of_equal c n same
  obtain ⟨u, v, left, right, finite⟩ := finite.exists_binary
  have given : (t.expression lhs).value? x w = some c := by rw [expression_const ordered known]; rfl
  obtain rfl := Option.some.inj (given.symm.trans left)
  have replaced := near_binary op near (.refl v) finite
  obtain ⟨r, value, result⟩ := law c v given near.symm right (replaced.isFinite finite)
  exact ⟨_, r, by simp [Node.unfold, Expression.value?, left, right], value, finite, replaced.trans result⟩

theorem near_of_isConst_right (ordered : t.Ordered) {op : BinaryOp} {lhs rhs : NodeId} {n : Int} {b : Expression E}
    (recognized : t.isConst rhs n = true)
    (finite : ((Node.binary op lhs rhs : Node E).unfold t.expression).IsFinite x w)
    (law : ∀ u c, (t.expression lhs).value? x w = some u → (t.expression rhs).value? x w = some c →
      AutoDiff.Near (Arithmetic.ofInt n) c → isFinite (Arithmetic.binary op u (Arithmetic.ofInt n)) = true →
      ∃ r, b.value? x w = some r ∧ AutoDiff.Near (Arithmetic.binary op u (Arithmetic.ofInt n)) r) :
    ((Node.binary op lhs rhs : Node E).unfold t.expression).Near x w b := by
  obtain ⟨c, known, same⟩ := isConst_eq_true_iff.mp recognized
  have near := near_of_equal c n same
  obtain ⟨u, v, left, right, finite⟩ := finite.exists_binary
  have given : (t.expression rhs).value? x w = some c := by rw [expression_const ordered known]; rfl
  obtain rfl := Option.some.inj (given.symm.trans right)
  have replaced := near_binary op (.refl u) near finite
  obtain ⟨r, value, result⟩ := law u c left given near.symm (replaced.isFinite finite)
  exact ⟨_, r, by simp [Node.unfold, Expression.value?, left, right], value, finite, replaced.trans result⟩

theorem near_ordered (op : BinaryOp) (lhs rhs : NodeId)
    (finite : (Expression.binary op (t.expression lhs) (t.expression rhs)).IsFinite x w) :
    (Expression.binary op (t.expression lhs) (t.expression rhs)).Near x w
      ((Trace.ordered op lhs rhs : Node E).unfold t.expression) := by
  unfold Trace.ordered
  split
  · next swapped =>
      obtain ⟨u, v, left, right, finite⟩ := finite.exists_binary
      exact ⟨_, _, by simp [Expression.value?, left, right], by simp [Node.unfold, Expression.value?, left, right],
        finite, FiniteLaws.comm op u v swapped.1 finite⟩
  · exact finite.near_self

/-- Every rule is an identity but for the sign of a zero, where the result is finite. -/
theorem Rewrites.near (ordered : t.Ordered) {node : Node E} {made : Simplified E} (rewrites : t.Rewrites node made)
    (finite : (node.unfold t.expression).IsFinite x w) : (node.unfold t.expression).Near x w (made.unfold t) := by
  induction rewrites with
  | leaf | keepUnary | keepPower => exact finite.near_self
  | keepBinary => exact near_ordered _ _ _ finite
  | foldUnary op known =>
      simp only [Node.unfold, Simplified.unfold, expression_const ordered known] at finite ⊢
      obtain ⟨u, given, finite⟩ := finite.exists_unary
      obtain rfl := Option.some.inj given
      exact ⟨_, _, rfl, rfl, finite, .refl _⟩
  | foldBinary op first second =>
      simp only [Node.unfold, Simplified.unfold, expression_const ordered first,
        expression_const ordered second] at finite ⊢
      obtain ⟨u, v, left, right, finite⟩ := finite.exists_binary
      obtain rfl := Option.some.inj left
      obtain rfl := Option.some.inj right
      exact ⟨_, _, rfl, rfl, finite, .refl _⟩
  | foldPower _ _ known =>
      simp only [Node.unfold, Simplified.unfold, expression_const ordered known] at finite ⊢
      obtain ⟨u, given, finite⟩ := finite.exists_power
      obtain rfl := Option.some.inj given
      exact ⟨_, _, rfl, by simp [Expression.value?], finite, .refl _⟩
  | negNeg double =>
      simp only [Node.unfold, Simplified.unfold, expression_eq ordered double] at finite ⊢
      obtain ⟨u, given, finite⟩ := finite.exists_unary
      obtain ⟨v, inner, rfl⟩ := Option.map_eq_some_iff.mp given
      exact ⟨_, v, by simp [Expression.value?, inner], inner, finite, neg_neg v finite⟩
  | zeroAdd zero =>
      exact near_of_isConst_left ordered zero finite fun _ v _ _ right finite =>
        ⟨v, right, near_comm rfl (add_zero v) finite⟩
  | addZero zero =>
      exact near_of_isConst_right ordered zero finite fun u _ left _ _ finite => ⟨u, left, add_zero u finite⟩
  | subZero zero =>
      exact near_of_isConst_right ordered zero finite fun u _ left _ _ finite => ⟨u, left, sub_zero u finite⟩
  | @zeroSub _ rhs _ zero _ _ ih =>
      have negated := near_of_isConst_left (b := .unary .neg (t.expression rhs)) ordered zero finite
        fun _ v _ _ right finite => ⟨_, by simp [Expression.value?, right], zero_sub v finite⟩
      exact negated.trans (ih negated.right)
  | zeroMul zero =>
      exact near_of_isConst_left ordered zero finite fun c v given same _ finite =>
        ⟨c, given, (zero_mul v finite).trans same⟩
  | mulZero zero =>
      exact near_of_isConst_right ordered zero finite fun u c _ given same finite =>
        ⟨c, given, (near_comm rfl (zero_mul u) finite).trans same⟩
  | oneMul one =>
      exact near_of_isConst_left ordered one finite fun _ v _ _ right finite => ⟨v, right, one_mul v finite⟩
  | mulOne one =>
      exact near_of_isConst_right ordered one finite fun u _ left _ _ finite =>
        ⟨u, left, near_comm rfl (one_mul u) finite⟩
  | @minusMul _ rhs _ minus _ _ ih =>
      have negated := near_of_isConst_left (b := .unary .neg (t.expression rhs)) ordered minus finite
        fun _ v _ _ right finite => ⟨_, by simp [Expression.value?, right], minus_mul v finite⟩
      exact negated.trans (ih negated.right)
  | @mulMinus lhs _ _ minus _ _ ih =>
      have negated := near_of_isConst_right (b := .unary .neg (t.expression lhs)) ordered minus finite
        fun u _ left _ _ finite => ⟨_, by simp [Expression.value?, left], near_comm rfl (minus_mul u) finite⟩
      exact negated.trans (ih negated.right)
  | zeroDiv zero =>
      exact near_of_isConst_left ordered zero finite fun c v given same _ finite =>
        ⟨c, given, (zero_div v finite).trans same⟩
  | divOne one =>
      exact near_of_isConst_right ordered one finite fun u _ left _ _ finite => ⟨u, left, div_one u finite⟩
  | powOne one =>
      exact near_of_isConst_right ordered one finite fun u _ left _ _ finite => ⟨u, left, pow_one u finite⟩
  | powZero zero =>
      exact near_of_isConst_right ordered zero finite fun u _ _ _ _ finite => ⟨_, rfl, pow_zero u finite⟩
  | powerZero base =>
      obtain ⟨u, given, finite⟩ := finite.exists_power
      exact ⟨_, _, by simp [Node.unfold, Expression.value?, given], rfl, finite, power_zero u finite⟩
  | powerOne base =>
      obtain ⟨u, given, finite⟩ := finite.exists_power
      exact ⟨_, u, by simp [Node.unfold, Expression.value?, given], given, finite, power_one u finite⟩

variable [DecidableEq E]

theorem Sharing.near {n : Nat} {rename : NodeId → NodeId} {node : Node E} {made : Simplified E} {id : NodeId}
    {u : Trace E} (sharing : t.Sharing n rename s node made id u) (ordered : t.Ordered)
    (finite : (t.expression n).IsFinite x w)
    (near : ∀ old : Nat, old < n → t.Reachable old → (t.expression old).Near x w (s.expression (rename old))) :
    (t.expression n).Near x w (u.expression id) := by
  rw [expression_eq ordered sharing.found] at finite ⊢
  have operands : (node.unfold t.expression).Near x w (node.unfold (s.expression ∘ rename)) :=
    node.near_congr (fun operand member =>
      near operand (sharing.operands operand member).1 (sharing.operands operand member).2) finite
  rw [← Node.unfold_mapOperands] at operands
  rw [sharing.placed.expression sharing.ordered sharing.defined]
  exact operands.trans ((rewrites_of_simplify sharing.simplified).near sharing.ordered operands.right)

/-- Where everything that the outputs are calculated from is finite, optimization keeps them but for the sign of a
zero. -/
theorem evaluate_optimize_near (verified : t.verify = .ok ()) (inputs : x.size = t.inputCount)
    (weights : w.size = t.weightCount)
    (finite : ∀ values, t.values? x w = some values → ∀ (id : Nat) (v : E), t.Reachable id → values[id]? = some v →
      isFinite v = true) :
    ∃ r before after, t.optimize = some r ∧ t.evaluate x w = some (.ok before) ∧ r.evaluate x w = some (.ok after) ∧
      List.Forall₂ AutoDiff.Near before.toList after.toList := by
  have wellFormed := t.verify_eq_ok_iff.mp verified
  obtain ⟨values, run, valued⟩ := exists_values? wellFormed.toConsistent inputs weights
  have each (id : Nat) (reachable : t.Reachable id) : (t.expression id).IsFinite x w := by
    have less := reachable.lt_size wellFormed
    have inside : id < values.size := valued.1 ▸ less
    have found : values[id]? = some values[id] := Array.getElem?_eq_getElem inside
    exact ⟨_, (valued.eq_value? wellFormed.ordered less).symm.trans found, finite values run id _ reachable found⟩
  refine exists_evaluations_of_each wellFormed
    (Q := fun old new s => (t.expression old).Near x w (s.expression new)) (fun more less near => ?_)
    (fun sharing _ near => ?_) inputs weights fun near value => ?_
  · rwa [more.expression less]
  · exact sharing.near wellFormed.ordered (each _ sharing.reachable) near
  · obtain ⟨u, v', given, other, _, near⟩ := near
    obtain rfl := Option.some.inj (given.symm.trans value)
    exact ⟨v', other, near⟩

def squareOfSum (E : Type) [Arithmetic E] : Trace E where
  nodes := #[.input 0, .const (Arithmetic.ofInt 0), .binary .add 0 1, .binary .mul 2 2]
  inputCount := 1
  weightCount := 0
  outputs := [2, 3]

def NearlyKeeps {E : Type} [Arithmetic E] [NumberKinds E] [DecidableEq E] (t : Trace E) (x before : Array E) : Prop :=
  t.verify = .ok () ∧ t.evaluate x #[] = some (.ok before) ∧
    ∃ r after, t.optimize = some r ∧ r.evaluate x #[] = some (.ok after) ∧
      List.Forall₂ AutoDiff.Near before.toList after.toList

/-- The sum with a negative zero is the positive one, and optimized it is the negative one. -/
theorem evaluate_optimize_near_squareOfSum :
    (squareOfSum ExtendedRational).NearlyKeeps #[.negativeZero] #[.number 0, .number 0] ∧
      letI := Binary64.knownLibrary
      (squareOfSum Binary64).NearlyKeeps #[Binary64.neg ⟨0⟩] #[⟨0⟩, ⟨0⟩] := by
  have kept {E : Type} [Arithmetic E] [NumberKinds E] [FiniteLaws E] [DecidableEq E] {x before values : Array E}
      (size : x.size = 1) (verified : (squareOfSum E).verify = .ok ())
      (evaluated : (squareOfSum E).evaluate x #[] = some (.ok before))
      (run : (squareOfSum E).values? x #[] = some values) (finite : ∀ v ∈ values, isFinite v = true) :
      (squareOfSum E).NearlyKeeps x before := by
    obtain ⟨r, _, after, optimized, same, again, near⟩ := evaluate_optimize_near verified (w := #[]) size rfl
      fun others same id v _ found => by
        obtain rfl := Option.some.inj (run.symm.trans same)
        exact finite v (Array.mem_of_getElem? found)
    rw [evaluated] at same
    cases same
    exact ⟨verified, evaluated, r, after, optimized, again, near⟩
  constructor
  · have run : (squareOfSum ExtendedRational).values? #[.negativeZero] #[] =
        some #[.negativeZero, .number 0, .number 0, .number 0] := by decide +kernel
    exact kept rfl (by decide +kernel) (by decide +kernel) run (by decide)
  · let _ := Binary64.knownLibrary
    have := Binary64.libraryLaws_known
    have run : (squareOfSum Binary64).values? #[Binary64.neg ⟨0⟩] #[] =
        some #[Binary64.neg ⟨0⟩, ⟨0⟩, ⟨0⟩, ⟨0⟩] := by decide +kernel
    exact kept rfl (by decide +kernel) (by decide +kernel) run (by decide)

end Trace

end AutoDiff
