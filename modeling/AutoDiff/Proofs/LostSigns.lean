import AutoDiff.Proofs.AbsorbedZeros

/-!
Zeros that lose their sign in optimization. Such a zero may be told by an operation on it: a number divided by it is
another infinity than before. Where no operation tells it, what is calculated stays as it is but for the signs of
further zeros.
-/

namespace AutoDiff

open NumberKinds

section Operands

variable {E : Type} [Arithmetic E] [NumberKinds E] [SpecialLaws E] {x w : Array E} {f g : NodeId → Expression E}

omit [NumberKinds E] [SpecialLaws E] in
theorem Node.exists_value (node : Node E) {v : E} (value : (node.unfold f).value? x w = some v)
    (defined : ∀ operand : Nat, operand ∈ node.operands → ∃ u, (g operand).value? x w = some u) :
    ∃ u, (node.unfold g).value? x w = some u := by
  cases node with
  | input | weight | const => exact ⟨v, value⟩
  | unary op arg =>
      obtain ⟨u, given⟩ := defined arg (by simp [operands])
      simp [unfold, Expression.value?, given]
  | binary op lhs rhs =>
      obtain ⟨u, left⟩ := defined lhs (by simp [operands])
      obtain ⟨u', right⟩ := defined rhs (by simp [operands])
      simp [unfold, Expression.value?, left, right]
  | power base exponent =>
      obtain ⟨u, given⟩ := defined base (by simp [operands])
      simp [unfold, Expression.value?, given]

theorem Node.same_congr (node : Node E) (same : ∀ operand : Nat, operand ∈ node.operands →
      ∃ u v, (f operand).value? x w = some u ∧ (g operand).value? x w = some v ∧ Same u v) {u v : E}
    (first : (node.unfold f).value? x w = some u) (second : (node.unfold g).value? x w = some v) : Same u v := by
  cases node with
  | input | weight | const =>
      cases first.symm.trans second
      exact .refl _
  | unary op arg =>
      obtain ⟨a, b, one, two, operand⟩ := same arg (by simp [operands])
      simp only [unfold, Expression.value?, one, two, Option.map_some, Option.some.injEq] at first second
      subst first second
      rcases operand with rfl | ⟨none, also⟩
      · exact .refl _
      · exact SpecialLaws.nan_unary op a b none also
  | binary op lhs rhs =>
      obtain ⟨a, c, one, two, left⟩ := same lhs (by simp [operands])
      obtain ⟨b, d, three, four, right⟩ := same rhs (by simp [operands])
      simp only [unfold, Expression.value?, one, two, three, four, Option.map_some, Option.bind_some,
        Option.some.injEq] at first second
      subst first second
      exact same_binary op left right
  | power base exponent =>
      obtain ⟨a, b, one, two, operand⟩ := same base (by simp [operands])
      simp only [unfold, Expression.value?, one, two, Option.map_some, Option.some.injEq] at first second
      subst first second
      rcases operand with rfl | ⟨none, also⟩
      · exact .refl _
      · exact SpecialLaws.nan_power _ a b none also

end Operands

namespace Trace

section Signs

variable {E : Type} [Arithmetic E] [NumberKinds E]

/-- The zeros whose sign may be another one after optimization: those that a zero constant is absorbed in, and those
that are calculated from such a zero. -/
inductive SignLost (t : Trace E) (values : Array E) : NodeId → Prop
  | identity {id : NodeId} {node : Node E} {v : E} : t.nodes[id]? = some node → node.Lossy t.folded? →
      values[id]? = some v → isZero v = true → SignLost t values id
  | operation {id operand : NodeId} {node : Node E} {v : E} : t.nodes[id]? = some node → operand ∈ node.operands →
      SignLost t values operand → values[id]? = some v → isZero v = true → SignLost t values id

/-- Where the nodes have these values, zero constants absorb nothing special, and no needed operation tells the sign
of a zero that may have lost it, but by the sign of a zero. -/
structure Robust (t : Trace E) (x w values : Array E) : Prop where
  absorbing : ∀ (id : Nat) (node : Node E), t.Reachable id → t.nodes[id]? = some node →
    node.Absorbing t.folded? fun operand => values[operand]?
  signs : ∀ (id : Nat) (node : Node E), t.Reachable id → t.nodes[id]? = some node → ∀ flipped : Array E,
    (∀ operand : Nat, operand ∈ node.operands → flipped[operand]? = values[operand]? ∨
      t.SignLost values operand ∧ ∃ z, flipped[operand]? = some z ∧ isZero z = true) →
    ∀ v v', values[id]? = some v → node.value? x w flipped = some v' → Agree v v'

theorem SignLost.isZero {t : Trace E} {values : Array E} {id : NodeId} {v : E} (lost : t.SignLost values id)
    (value : values[id]? = some v) : isZero v = true := by
  cases lost with
  | identity _ _ found zero | operation _ _ _ found zero =>
      obtain rfl := Option.some.inj (found.symm.trans value)
      exact zero

/-- The value of a node and what it becomes: the same, but for the sign of a zero that may have lost it. -/
def Kept (t : Trace E) (values : Array E) (id : NodeId) (v v' : E) : Prop :=
  Same v v' ∨ t.SignLost values id ∧ isZero v = true ∧ isZero v' = true

end Signs

section

variable {E : Type} [Arithmetic E] [NumberKinds E] [SpecialLaws E] {t : Trace E} {x w values : Array E}

theorem Kept.trans_same {id : NodeId} {v v' v'' : E} (kept : t.Kept values id v v') (same : Same v' v'') :
    t.Kept values id v v'' := by
  rcases kept with first | ⟨lost, zero, also⟩
  · exact .inl (first.trans same)
  · exact .inr ⟨lost, zero, same.isZero also⟩

omit [SpecialLaws E] in
theorem exists_flipped (filler : E) {operands : List NodeId} {n : Nat} (early : ∀ operand ∈ operands, operand < n)
    {f : NodeId → Expression E} (kept : ∀ operand ∈ operands,
      ∃ v v', values[operand]? = some v ∧ (f operand).value? x w = some v' ∧ t.Kept values operand v v') :
    ∃ (m : NodeId → E) (flipped : Array E), ∀ operand ∈ operands, flipped[operand]? = some (m operand) ∧
      (values[operand]? = some (m operand) ∨ t.SignLost values operand ∧ isZero (m operand) = true) ∧
        ∃ v', (f operand).value? x w = some v' ∧ Same (m operand) v' := by
  have each (operand : Nat) : ∃ m : E, operand ∈ operands →
      (values[operand]? = some m ∨ t.SignLost values operand ∧ isZero m = true) ∧
        ∃ v', (f operand).value? x w = some v' ∧ Same m v' := by
    by_cases member : operand ∈ operands
    · obtain ⟨v, v', before, after, same | ⟨lost, _, also⟩⟩ := kept operand member
      · exact ⟨v, fun _ => ⟨.inl before, v', after, same⟩⟩
      · exact ⟨v', fun _ => ⟨.inr ⟨lost, also⟩, v', after, .refl v'⟩⟩
    · exact ⟨filler, fun absurdity => absurd absurdity member⟩
  choose m chosen using each
  refine ⟨m, (Array.range n).map m, fun operand member => ⟨?_, chosen operand member⟩⟩
  have less := early operand member
  simp [less]

theorem Robust.exists_kept (robust : t.Robust x w values) (valued : t.Valued x w values) (ordered : t.Ordered) {n : Nat}
    {node : Node E} (reachable : t.Reachable n) (found : t.nodes[n]? = some node) {f : NodeId → Expression E}
    (operands : ∀ operand : Nat, operand ∈ node.operands →
      ∃ v v', values[operand]? = some v ∧ (f operand).value? x w = some v' ∧ t.Kept values operand v v') {v : E}
    (value : values[n]? = some v) :
    ∃ v', (node.unfold f).value? x w = some v' ∧ t.Kept values n v v' := by
  obtain ⟨m, flipped, chosen⟩ := exists_flipped v (ordered n node found) operands
  have before := value
  rw [valued.eq_value? ordered (lt_size found), expression_eq ordered found] at before
  obtain ⟨r, middle⟩ : ∃ r, (node.unfold fun operand => .const (m operand)).value? x w = some r :=
    node.exists_value before fun operand _ => ⟨m operand, rfl⟩
  obtain ⟨r', after⟩ : ∃ r', (node.unfold f).value? x w = some r' :=
    node.exists_value middle fun operand member =>
      let ⟨_, _, v', given, _⟩ := chosen operand member
      ⟨v', given⟩
  have same : Same r r' := node.same_congr (fun operand member =>
    let ⟨_, _, v', given, same⟩ := chosen operand member
    ⟨m operand, v', rfl, given, same⟩) middle after
  have evaluated {others : Array E} (entry : ∀ operand : Nat, operand ∈ node.operands →
      others[operand]? = some (m operand)) : node.value? x w others = some r :=
    (node.value?_eq x w entry).trans middle
  suffices kept : t.Kept values n v r from ⟨r', after, kept.trans_same same⟩
  by_cases some_lost : ∃ operand : Nat, operand ∈ node.operands ∧ t.SignLost values operand
  · obtain ⟨operand, member, lost⟩ := some_lost
    have agree : Agree v r := by
      refine robust.signs n node reachable found flipped (fun other member => ?_) v r value
        (evaluated fun other member => (chosen other member).1)
      obtain ⟨entry, same | ⟨lost, zero⟩, _⟩ := chosen other member
      · exact .inl (entry.trans same.symm)
      · exact .inr ⟨lost, m other, entry, zero⟩
    rcases agree with same | ⟨zero, also⟩
    · exact .inl same
    · exact .inr ⟨.operation found member lost value zero, zero, also⟩
  · have unflipped (operand : Nat) (member : operand ∈ node.operands) : values[operand]? = some (m operand) := by
      obtain ⟨_, same | ⟨lost, _⟩, _⟩ := chosen operand member
      · exact same
      · exact absurd ⟨operand, member, lost⟩ some_lost
    have equal : v = r := Option.some.inj (value.symm.trans ((valued.2 n node found).trans (evaluated unflipped)))
    exact .inl (equal ▸ .refl v)

theorem Kept.isFinite {id : NodeId} {v v' : E} (kept : t.Kept values id v v') (finite : isFinite v = true) :
    isFinite v' = true := by
  rcases kept with (rfl | ⟨none, _⟩) | ⟨_, _, zero⟩
  · exact finite
  · rw [SpecialLaws.isNaN_of_isFinite v finite] at none
    cases none
  · exact SpecialLaws.isFinite_of_isZero v' zero

theorem Kept.isZero_eq_false {id : NodeId} {v v' : E} (kept : t.Kept values id v v') (nonzero : isZero v = false) :
    isZero v' = false := by
  rcases kept with same | ⟨_, zero, _⟩
  · by_contra other
    rw [same.symm.isZero (Bool.eq_true_of_not_eq_false other)] at nonzero
    cases nonzero
  · rw [nonzero] at zero
    cases zero

theorem Kept.isNaN_eq_false {id : NodeId} {v v' : E} (kept : t.Kept values id v v') (number : isNaN v = false) :
    isNaN v' = false := by
  rcases kept with (rfl | ⟨none, _⟩) | ⟨_, _, zero⟩
  · exact number
  · rw [number] at none
    cases none
  · exact SpecialLaws.isNaN_of_isFinite v' (SpecialLaws.isFinite_of_isZero v' zero)

theorem Kept.trans_agree {id : NodeId} {v v' v'' : E} (kept : t.Kept values id v v') (agree : Agree v' v'')
    (lost : isZero v = true → t.SignLost values id) : t.Kept values id v v'' := by
  rcases agree with same | ⟨zero, also⟩
  · exact kept.trans_same same
  · rcases kept with same | ⟨lost, first, _⟩
    · have first := same.symm.isZero zero
      exact .inr ⟨lost first, first, also⟩
    · exact .inr ⟨lost, first, also⟩

omit [SpecialLaws E] in
theorem Kept.agree {id : NodeId} {v v' : E} (kept : t.Kept values id v v') : Agree v v' := by
  rcases kept with same | ⟨_, zeros⟩
  · exact .inl same
  · exact .inr zeros

end

section

variable {E : Type} [Arithmetic E] [NumberKinds E] [SpecialLaws E] [ZeroLaws E] {t : Trace E} {x w values : Array E}

/-- Operations tell the sign of a zero only where they divide by it or raise it to a power. -/
theorem Robust.of_divisors (valued : t.Valued x w values)
    (absorbing : ∀ (id : Nat) (node : Node E), t.Reachable id → t.nodes[id]? = some node →
      node.Absorbing t.folded? fun operand => values[operand]?)
    (divisors : ∀ (id : Nat) (lhs rhs : NodeId), t.Reachable id → t.nodes[id]? = some (.binary .div lhs rhs) →
      ¬t.SignLost values rhs)
    (bases : ∀ (id : Nat) (lhs rhs : NodeId), t.Reachable id → t.nodes[id]? = some (.binary .pow lhs rhs) →
      ¬t.SignLost values lhs)
    (powers : ∀ (id : Nat) (base : NodeId) (exponent : Int32), t.Reachable id →
      t.nodes[id]? = some (.power base exponent) → exponent.toInt < 0 → ¬t.SignLost values base) :
    t.Robust x w values := by
  refine ⟨absorbing, fun id node reachable found flipped kept v v' before after => ?_⟩
  have agree (operand : Nat) (member : operand ∈ node.operands) {p q : E}
      (first : values[operand]? = some p) (second : flipped[operand]? = some q) : Agree p q := by
    rcases kept operand member with same | ⟨lost, z, other, zero⟩
    · exact .inl (.inl (Option.some.inj (first.symm.trans (same.symm.trans second))))
    · obtain rfl := Option.some.inj (other.symm.trans second)
      exact .inr ⟨lost.isZero first, zero⟩
  have equal (operand : Nat) (member : operand ∈ node.operands) (safe : ¬t.SignLost values operand)
      {p q : E} (first : values[operand]? = some p) (second : flipped[operand]? = some q) : p = q := by
    rcases kept operand member with same | ⟨lost, _⟩
    · exact Option.some.inj (first.symm.trans (same.symm.trans second))
    · exact absurd lost safe
  rw [valued.2 id node found] at before
  cases node with
  | input | weight | const =>
      cases before.symm.trans after
      exact .inl (.refl _)
  | unary op arg =>
      obtain ⟨p, first, rfl⟩ := Option.map_eq_some_iff.mp before
      obtain ⟨q, second, rfl⟩ := Option.map_eq_some_iff.mp after
      exact agree_unary op (agree arg (by simp [Node.operands]) first second)
  | power base exponent =>
      obtain ⟨p, first, rfl⟩ := Option.map_eq_some_iff.mp before
      obtain ⟨q, second, rfl⟩ := Option.map_eq_some_iff.mp after
      by_cases downward : exponent.toInt < 0
      · have safe := powers id base exponent reachable found downward
        obtain rfl := equal base (by simp [Node.operands]) safe first second
        exact .inl (.refl _)
      · exact agree_power (not_lt.mp downward) (agree base (by simp [Node.operands]) first second)
  | binary op lhs rhs =>
      obtain ⟨p, first, before⟩ := Option.bind_eq_some_iff.mp before
      obtain ⟨p', second, before⟩ := Option.bind_eq_some_iff.mp before
      obtain ⟨q, third, after⟩ := Option.bind_eq_some_iff.mp after
      obtain ⟨q', fourth, after⟩ := Option.bind_eq_some_iff.mp after
      cases before
      cases after
      have left := agree lhs (by simp [Node.operands]) first third
      have right := agree rhs (by simp [Node.operands]) second fourth
      cases op with
      | add => exact agree_add left right
      | sub => exact agree_sub left right
      | mul => exact agree_mul left right
      | div =>
          obtain rfl := equal rhs (by simp [Node.operands]) (divisors id lhs rhs reachable found) second fourth
          exact agree_div_left p' left
      | pow =>
          obtain rfl := equal lhs (by simp [Node.operands]) (bases id lhs rhs reachable found) first third
          exact agree_pow_right p right

end

end Trace

end AutoDiff
