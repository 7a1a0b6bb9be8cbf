import AutoDiff.Proofs.Reachability

namespace AutoDiff

def Expression.Reads {α : Type} (j : Nat) : Expression α → Prop
  | input i => i = j
  | weight _ | const _ => False
  | unary _ a => a.Reads j
  | binary _ a b => a.Reads j ∨ b.Reads j
  | power a _ => a.Reads j

namespace Node

variable {α : Type} {f : NodeId → Expression α}

theorem reads_unfold_iff (node : Node α) (j : Nat) :
    (node.unfold f).Reads j ↔ node = .input j ∨ ∃ operand : Nat, operand ∈ node.operands ∧ (f operand).Reads j := by
  cases node <;> simp [unfold, operands, Expression.Reads]

end Node

namespace Trace

variable {α : Type}

def cone (t : Trace α) (id : NodeId) : Trace α := { t with outputs := [id] }

/-- A node is calculated from input `j`: it needs a node that reads the input. -/
def DependsOn (t : Trace α) (id : NodeId) (j : Nat) : Prop :=
  ∃ leaf : Nat, (t.cone id).Reachable leaf ∧ t.nodes[leaf]? = some (.input j : Node α)

variable {t : Trace α} {id leaf : NodeId}

theorem reachable_self (t : Trace α) (id : NodeId) : (t.cone id).Reachable id :=
  .output (List.mem_singleton.mpr rfl)

theorem Reachable.of_cone (reachable : t.Reachable id) (below : (t.cone id).Reachable leaf) : t.Reachable leaf := by
  induction below with
  | output member =>
      rw [List.mem_singleton.mp member]
      exact reachable
  | operand _ found member ih => exact .operand ih found member

theorem Reachable.exists_output (reachable : t.Reachable leaf) :
    ∃ output : Nat, output ∈ t.outputs ∧ (t.cone output).Reachable leaf := by
  induction reachable with
  | output member => exact ⟨_, member, t.reachable_self _⟩
  | operand _ found member ih =>
      obtain ⟨output, isOutput, below⟩ := ih
      exact ⟨output, isOutput, .operand below found member⟩

theorem DependsOn.of_cone {j : Nat} (below : (t.cone id).Reachable leaf) (depends : t.DependsOn leaf j) :
    t.DependsOn id j := by
  obtain ⟨source, reachable, found⟩ := depends
  exact ⟨source, below.of_cone reachable, found⟩

theorem dependsOn_iff {node : Node α} (found : t.nodes[id]? = some node) (j : Nat) :
    t.DependsOn id j ↔ node = .input j ∨ ∃ operand : Nat, operand ∈ node.operands ∧ t.DependsOn operand j := by
  have place {leaf : Nat} (reachable : (t.cone id).Reachable leaf) :
      leaf = id ∨ ∃ operand : Nat, operand ∈ node.operands ∧ (t.cone operand).Reachable leaf := by
    induction reachable with
    | output member => exact .inl (List.mem_singleton.mp member)
    | operand _ there member ih =>
        rcases ih with rfl | ⟨operand, first, below⟩
        · obtain rfl := Option.some.inj (found.symm.trans there)
          exact .inr ⟨_, member, t.reachable_self _⟩
        · exact .inr ⟨operand, first, .operand below there member⟩
  constructor
  · rintro ⟨leaf, reachable, reads⟩
    rcases place reachable with rfl | ⟨operand, member, below⟩
    · exact .inl (Option.some.inj (found.symm.trans reads))
    · exact .inr ⟨operand, member, leaf, below, reads⟩
  · rintro (rfl | ⟨operand, member, depends⟩)
    · exact ⟨id, t.reachable_self id, found⟩
    · exact .of_cone (.operand (t.reachable_self id) found member) depends

variable [Arithmetic α]

/-- A node depends on the inputs that occur in its expression. -/
theorem dependsOn_iff_reads (ordered : t.Ordered) (inside : id < t.size) (j : Nat) :
    t.DependsOn id j ↔ (t.expression id).Reads j := by
  induction id using Nat.strongRecOn with
  | ind id ih =>
      have found : t.nodes[id]? = some t.nodes[id] := Array.getElem?_eq_getElem inside
      rw [dependsOn_iff found, expression_eq ordered found, Node.reads_unfold_iff]
      apply or_congr_right
      apply exists_congr
      intro operand
      apply and_congr_right
      intro member
      have early := ordered id _ found operand member
      exact ih operand early (Nat.lt_trans early inside)

end Trace

end AutoDiff
