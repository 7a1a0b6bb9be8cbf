import AutoDiff.Proofs.Violations

namespace AutoDiff

namespace Trace

variable {α : Type}

/-- Operands come before their users. -/
def Ordered (t : Trace α) : Prop :=
  ∀ (id : Nat) (node : Node α), t.nodes[id]? = some node →
    ∀ operand : Nat, operand ∈ node.operands → operand < id

structure Consistent (t : Trace α) : Prop where
  ordered : t.Ordered
  inputs : ∀ (id index : Nat), t.nodes[id]? = some (.input index : Node α) → index < t.inputCount
  weights : ∀ (id index : Nat), t.nodes[id]? = some (.weight index : Node α) → index < t.weightCount
  distinct : ∀ (first second index : Nat), t.nodes[first]? = some (.input index : Node α) →
    t.nodes[second]? = some (.input index : Node α) → first = second

structure WellFormed (t : Trace α) : Prop extends Consistent t where
  outputs : ∀ id : Nat, id ∈ t.outputs → id < t.size

theorem Consistent.wellFormed {t : Trace α} (consistent : t.Consistent) {outputs : List NodeId}
    (bound : ∀ id : Nat, id ∈ outputs → id < t.size) : ({ t with outputs } : Trace α).WellFormed :=
  ⟨⟨consistent.ordered, consistent.inputs, consistent.weights, consistent.distinct⟩, bound⟩

theorem WellFormed.not_violation {t : Trace α} (wellFormed : t.WellFormed) (place : Nat) (e : TraceError) :
    ¬t.Violation place e := by
  intro violation
  cases violation with
  | operand found undefined =>
      have before := wellFormed.ordered _ _ found _ (List.mem_of_find?_eq_some undefined)
      have := List.find?_some undefined
      simp only [decide_eq_true_eq] at this
      omega
  | input found beyond => exact absurd (wellFormed.inputs _ _ found) (Nat.not_lt.mpr beyond)
  | weight found beyond => exact absurd (wellFormed.weights _ _ found) (Nat.not_lt.mpr beyond)
  | duplicate earlier one two => exact absurd (wellFormed.distinct _ _ _ one two) (Nat.ne_of_lt earlier)
  | output found undefined =>
      exact absurd (wellFormed.outputs _ (List.mem_of_getElem? found)) (Nat.not_lt.mpr undefined)

theorem wellFormed_of_not_violation {t : Trace α} (none : ∀ place e, ¬t.Violation place e) : t.WellFormed where
  ordered id node found := by
    have passed : node.operands.find? (id ≤ ·) = Option.none :=
      Option.eq_none_iff_forall_ne_some.mpr fun _ undefined => none id _ (.operand found undefined)
    simpa using passed
  inputs _ _ found := Nat.lt_of_not_le fun beyond => none _ _ (.input found beyond)
  weights _ _ found := Nat.lt_of_not_le fun beyond => none _ _ (.weight found beyond)
  distinct first second _ one two := by
    rcases Nat.lt_trichotomy first second with less | same | greater
    · exact absurd (.duplicate less one two) (none _ _)
    · exact same
    · exact absurd (.duplicate greater two one) (none _ _)
  outputs id member := by
    obtain ⟨position, found⟩ := List.mem_iff_getElem?.mp member
    exact Nat.lt_of_not_le fun undefined => none _ _ (.output found undefined)

/-- The check accepts exactly the well-formed traces. -/
theorem verify_eq_ok_iff (t : Trace α) : t.verify = .ok () ↔ t.WellFormed := by
  rw [verify_eq_ok_iff_not_violation]
  exact ⟨wellFormed_of_not_violation, fun wellFormed => wellFormed.not_violation⟩

end Trace

end AutoDiff
