import AutoDiff.Proofs.Folding

/-!
The rules of simplification where something is infinite, or no number at all. Those for a zero constant are no
identities there: a product with zero, or a quotient of zero, is made zero whatever the other operand is, and the sign
of a zero may change.
-/

namespace AutoDiff

open NumberKinds

section Conditions

variable {E : Type} [NumberKinds E]

def ZeroConstant (c : Option E) : Prop := ∃ d, c = some d ∧ isZero d = true

/-- A sum, difference, product or quotient of a zero constant and something that is not constant: a zero that
simplification makes of it may have another sign. -/
def Node.Lossy (f : NodeId → Option E) : Node E → Prop
  | binary op lhs rhs => op ≠ .pow ∧ (ZeroConstant (f lhs) ∧ f rhs = none ∨ f lhs = none ∧ ZeroConstant (f rhs))
  | _ => False

/-- Zero constants are multiplied with finite numbers only, and nothing but a constant that they are divided by is zero
or no number. -/
def Node.Absorbing (f value : NodeId → Option E) : Node E → Prop
  | binary .mul lhs rhs =>
    (ZeroConstant (f lhs) → ∀ v, value rhs = some v → isFinite v = true) ∧
      (ZeroConstant (f rhs) → ∀ v, value lhs = some v → isFinite v = true)
  | binary .div lhs rhs =>
    ZeroConstant (f lhs) → f rhs = none → ∀ v, value rhs = some v → isZero v = false ∧ isNaN v = false
  | _ => True

theorem Node.lossy_mapOperands (f : NodeId → Option E) (g : NodeId → NodeId) (node : Node E) :
    (node.mapOperands g).Lossy f = node.Lossy (f ∘ g) := by
  cases node <;> rfl

theorem Node.lossy_congr {f g : NodeId → Option E} {node : Node E}
    (same : ∀ operand : Nat, operand ∈ node.operands → f operand = g operand) : node.Lossy f = node.Lossy g := by
  cases node <;> simp_all [Lossy, operands]

theorem Node.absorbing_mapOperands (f value : NodeId → Option E) (g : NodeId → NodeId) (node : Node E) :
    (node.mapOperands g).Absorbing f value = node.Absorbing (f ∘ g) (value ∘ g) := by
  cases node with
  | binary op lhs rhs => cases op <;> rfl
  | input | weight | const | unary | power => rfl

end Conditions

namespace Trace

variable {E : Type} [Arithmetic E] [NumberKinds E] [SpecialLaws E] {s t : Trace E} {x w : Array E}

theorem Rewrites.exists_same_neg (ordered : t.Ordered) {arg : NodeId} {made : Simplified E}
    (rewrites : t.Rewrites (.unary .neg arg) made) {v : E} (value : (t.expression arg).value? x w = some v) :
    ∃ v', (made.unfold t).value? x w = some v' ∧ Same (Arithmetic.unary .neg v) v' := by
  cases rewrites with
  | leaf leaf => cases leaf
  | foldUnary _ known =>
      rw [expression_const ordered known] at value
      cases value
      exact ⟨_, rfl, .refl _⟩
  | negNeg double =>
      rw [expression_eq ordered double] at value
      obtain ⟨u, inner, rfl⟩ := Option.map_eq_some_iff.mp value
      exact ⟨u, inner, SpecialLaws.neg_neg u⟩
  | keepUnary => exact ⟨_, by simp [Simplified.unfold, Node.unfold, Expression.value?, value], .refl _⟩

omit [NumberKinds E] [SpecialLaws E] in
theorem exists_value_left (ordered : t.Ordered) {op : BinaryOp} {lhs rhs : NodeId} {n : Int} {v : E}
    (found : t.isConst lhs n = true)
    (value : ((Node.binary op lhs rhs : Node E).unfold t.expression).value? x w = some v) :
    ∃ c u, t.const? lhs = some c ∧ (t.expression lhs).value? x w = some c ∧
      Arithmetic.equal c (Arithmetic.ofInt n) = true ∧ (t.expression rhs).value? x w = some u ∧
      v = Arithmetic.binary op c u := by
  obtain ⟨c, known, recognized⟩ := isConst_eq_true_iff.mp found
  have same := expression_const ordered known
  rw [Node.unfold, same] at value
  obtain ⟨u, given, result⟩ := Option.map_eq_some_iff.mp value
  exact ⟨c, u, known, by rw [same]; rfl, recognized, given, result.symm⟩

omit [NumberKinds E] [SpecialLaws E] in
theorem exists_value_right (ordered : t.Ordered) {op : BinaryOp} {lhs rhs : NodeId} {n : Int} {v : E}
    (found : t.isConst rhs n = true)
    (value : ((Node.binary op lhs rhs : Node E).unfold t.expression).value? x w = some v) :
    ∃ c u, t.const? rhs = some c ∧ (t.expression rhs).value? x w = some c ∧
      Arithmetic.equal c (Arithmetic.ofInt n) = true ∧ (t.expression lhs).value? x w = some u ∧
      v = Arithmetic.binary op u c := by
  obtain ⟨c, known, recognized⟩ := isConst_eq_true_iff.mp found
  have same := expression_const ordered known
  rw [Node.unfold, same] at value
  obtain ⟨u, given, result⟩ := Option.bind_eq_some_iff.mp value
  exact ⟨c, u, known, by rw [same]; rfl, recognized, given, (Option.some.inj result).symm⟩

theorem exists_agree_left (ordered : t.Ordered) {op : BinaryOp} {lhs rhs : NodeId} {v : E} {result : Option E}
    (zero : t.isConst lhs 0 = true) (unknown : t.const? rhs = none) (other : op ≠ .pow)
    (value : ((Node.binary op lhs rhs : Node E).unfold t.expression).value? x w = some v)
    (law : ∀ c u, t.const? lhs = some c → (t.expression lhs).value? x w = some c → isZero c = true →
      (t.expression rhs).value? x w = some u → ∃ v', result = some v' ∧ Agree (Arithmetic.binary op c u) v') :
    ∃ v', result = some v' ∧ (Same v v' ∨ Agree v v' ∧ (Node.binary op lhs rhs : Node E).Lossy t.const?) := by
  obtain ⟨c, u, known, given, recognized, right, rfl⟩ := exists_value_left ordered zero value
  have isZero := (SpecialLaws.equal_zero_iff c).mp recognized
  obtain ⟨v', made, agree⟩ := law c u known given isZero right
  exact ⟨v', made, .inr ⟨agree, other, .inl ⟨⟨c, known, isZero⟩, unknown⟩⟩⟩

theorem exists_agree_right (ordered : t.Ordered) {op : BinaryOp} {lhs rhs : NodeId} {v : E} {result : Option E}
    (zero : t.isConst rhs 0 = true) (unknown : t.const? lhs = none) (other : op ≠ .pow)
    (value : ((Node.binary op lhs rhs : Node E).unfold t.expression).value? x w = some v)
    (law : ∀ u c, (t.expression lhs).value? x w = some u → t.const? rhs = some c →
      (t.expression rhs).value? x w = some c → isZero c = true →
      ∃ v', result = some v' ∧ Agree (Arithmetic.binary op u c) v') :
    ∃ v', result = some v' ∧ (Same v v' ∨ Agree v v' ∧ (Node.binary op lhs rhs : Node E).Lossy t.const?) := by
  obtain ⟨c, u, known, given, recognized, left, rfl⟩ := exists_value_right ordered zero value
  have isZero := (SpecialLaws.equal_zero_iff c).mp recognized
  obtain ⟨v', made, agree⟩ := law u c left known given isZero
  exact ⟨v', made, .inr ⟨agree, other, .inr ⟨unknown, ⟨c, known, isZero⟩⟩⟩⟩

theorem exists_same_left (ordered : t.Ordered) {op : BinaryOp} {lhs rhs : NodeId} {n : Int} {v : E}
    {result : Option E} (unit : n = 1 ∨ n = -1) (recognized : t.isConst lhs n = true)
    (value : ((Node.binary op lhs rhs : Node E).unfold t.expression).value? x w = some v)
    (law : ∀ u, (t.expression rhs).value? x w = some u →
      ∃ v', result = some v' ∧ Same (Arithmetic.binary op (Arithmetic.ofInt n) u) v') :
    ∃ v', result = some v' ∧ (Same v v' ∨ Agree v v' ∧ (Node.binary op lhs rhs : Node E).Lossy t.const?) := by
  obtain ⟨c, u, _, _, equal, right, rfl⟩ := exists_value_left ordered recognized value
  obtain rfl := SpecialLaws.eq_of_equal c n unit equal
  obtain ⟨v', made, same⟩ := law u right
  exact ⟨v', made, .inl same⟩

theorem exists_same_right (ordered : t.Ordered) {op : BinaryOp} {lhs rhs : NodeId} {n : Int} {v : E}
    {result : Option E} (unit : n = 1 ∨ n = -1) (recognized : t.isConst rhs n = true)
    (value : ((Node.binary op lhs rhs : Node E).unfold t.expression).value? x w = some v)
    (law : ∀ u, (t.expression lhs).value? x w = some u →
      ∃ v', result = some v' ∧ Same (Arithmetic.binary op u (Arithmetic.ofInt n)) v') :
    ∃ v', result = some v' ∧ (Same v v' ∨ Agree v v' ∧ (Node.binary op lhs rhs : Node E).Lossy t.const?) := by
  obtain ⟨c, u, _, _, equal, left, rfl⟩ := exists_value_right ordered recognized value
  obtain rfl := SpecialLaws.eq_of_equal c n unit equal
  obtain ⟨v', made, same⟩ := law u left
  exact ⟨v', made, .inl same⟩

theorem Rewrites.exists_agree (ordered : t.Ordered) {node : Node E} {made : Simplified E}
    (rewrites : t.Rewrites node made) (absorbing : node.Absorbing t.const? fun id => (t.expression id).value? x w)
    {v : E} (value : (node.unfold t.expression).value? x w = some v) :
    ∃ v', (made.unfold t).value? x w = some v' ∧ (Same v v' ∨ Agree v v' ∧ node.Lossy t.const?) := by
  cases rewrites with
  | leaf | keepUnary | keepPower => exact ⟨v, value, .inl (.refl v)⟩
  | @keepBinary op lhs rhs =>
      by_cases swapped : op.isCommutative = true ∧ rhs < lhs
      · obtain ⟨u, left, value⟩ := Option.bind_eq_some_iff.mp value
        obtain ⟨u', right, rfl⟩ := Option.map_eq_some_iff.mp value
        refine ⟨_, ?_, .inl (SpecialLaws.comm op u u' swapped.1)⟩
        simp [Simplified.unfold, Trace.ordered, swapped, Node.unfold, Expression.value?, left, right]
      · refine ⟨v, ?_, .inl (.refl v)⟩
        rwa [Simplified.unfold, Trace.ordered, if_neg swapped]
  | foldUnary op known =>
      rw [Node.unfold, expression_const ordered known] at value
      cases value
      exact ⟨_, rfl, .inl (.refl _)⟩
  | foldBinary op first second =>
      rw [Node.unfold, expression_const ordered first, expression_const ordered second] at value
      cases value
      exact ⟨_, rfl, .inl (.refl _)⟩
  | foldPower _ _ known =>
      rw [Node.unfold, expression_const ordered known] at value
      cases value
      exact ⟨_, rfl, .inl (by rw [Int32.ofInt_toInt]; exact .refl _)⟩
  | negNeg double =>
      obtain ⟨u, given, rfl⟩ := Option.map_eq_some_iff.mp value
      obtain ⟨v', result, same⟩ := (Rewrites.negNeg double).exists_same_neg ordered given
      exact ⟨v', result, .inl same⟩
  | zeroAdd zero unknown =>
      refine exists_agree_left ordered zero unknown (by decide) value fun c u _ _ isZero right => ⟨u, right, ?_⟩
      exact (SpecialLaws.comm .add c u rfl).agree.trans (SpecialLaws.add_zero u c isZero)
  | addZero zero unknown =>
      exact exists_agree_right ordered zero unknown (by decide) value fun u c left _ _ isZero =>
        ⟨u, left, SpecialLaws.add_zero u c isZero⟩
  | subZero zero unknown =>
      exact exists_agree_right ordered zero unknown (by decide) value fun u c left _ _ isZero =>
        ⟨u, left, SpecialLaws.sub_zero u c isZero⟩
  | zeroSub zero unknown negation =>
      refine exists_agree_left ordered zero unknown (by decide) value fun c u _ _ isZero right => ?_
      obtain ⟨v', result, negated⟩ := negation.exists_same_neg ordered right
      exact ⟨v', result, (SpecialLaws.zero_sub c u isZero).trans negated.agree⟩
  | zeroMul zero unknown =>
      refine exists_agree_left ordered zero unknown (by decide) value fun c u known given isZero right => ?_
      have finite := absorbing.1 ⟨c, known, isZero⟩ u right
      exact ⟨c, given, .inr ⟨SpecialLaws.zero_mul c u isZero finite, isZero⟩⟩
  | mulZero zero unknown =>
      refine exists_agree_right ordered zero unknown (by decide) value fun u c left known given isZero => ?_
      have finite := absorbing.2 ⟨c, known, isZero⟩ u left
      have product := (SpecialLaws.comm .mul c u rfl).isZero (SpecialLaws.zero_mul c u isZero finite)
      exact ⟨c, given, .inr ⟨product, isZero⟩⟩
  | oneMul one =>
      exact exists_same_left ordered (.inl rfl) one value fun u right => ⟨u, right, SpecialLaws.one_mul u⟩
  | mulOne one =>
      exact exists_same_right ordered (.inl rfl) one value fun u left =>
        ⟨u, left, (SpecialLaws.comm .mul u _ rfl).trans (SpecialLaws.one_mul u)⟩
  | minusMul minus _ negation =>
      refine exists_same_left ordered (.inr rfl) minus value fun u right => ?_
      obtain ⟨v', result, negated⟩ := negation.exists_same_neg ordered right
      exact ⟨v', result, (SpecialLaws.minus_mul u).trans negated⟩
  | mulMinus minus _ negation =>
      refine exists_same_right ordered (.inr rfl) minus value fun u left => ?_
      obtain ⟨v', result, negated⟩ := negation.exists_same_neg ordered left
      exact ⟨v', result, ((SpecialLaws.comm .mul u _ rfl).trans (SpecialLaws.minus_mul u)).trans negated⟩
  | zeroDiv zero unknown =>
      refine exists_agree_left ordered zero unknown (by decide) value fun c u known given isZero right => ?_
      obtain ⟨nonzero, number⟩ := absorbing ⟨c, known, isZero⟩ unknown u right
      exact ⟨c, given, .inr ⟨SpecialLaws.zero_div c u isZero nonzero number, isZero⟩⟩
  | divOne one =>
      exact exists_same_right ordered (.inl rfl) one value fun u left => ⟨u, left, SpecialLaws.div_one u⟩
  | powOne one =>
      exact exists_same_right ordered (.inl rfl) one value fun u left => ⟨u, left, SpecialLaws.pow_one u⟩
  | powZero zero =>
      obtain ⟨c, u, _, _, recognized, left, rfl⟩ := exists_value_right ordered zero value
      exact ⟨_, rfl, .inl (SpecialLaws.pow_zero u c ((SpecialLaws.equal_zero_iff c).mp recognized))⟩
  | powerZero base =>
      obtain ⟨u, given, rfl⟩ := Option.map_eq_some_iff.mp value
      exact ⟨_, rfl, .inl (SpecialLaws.power_zero u)⟩
  | powerOne base =>
      obtain ⟨u, given, rfl⟩ := Option.map_eq_some_iff.mp value
      exact ⟨u, given, .inl (SpecialLaws.power_one u)⟩

end Trace

end AutoDiff
