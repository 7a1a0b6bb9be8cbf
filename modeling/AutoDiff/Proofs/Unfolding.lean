import AutoDiff.Proofs.Evaluation
import AutoDiff.Proofs.Expression

namespace AutoDiff

namespace Node

variable {α : Type}

def unfold (f : NodeId → Expression α) : Node α → Expression α
  | input index => .input index
  | weight index => .weight index
  | const value => .const value
  | unary op arg => .unary op (f arg)
  | binary op lhs rhs => .binary op (f lhs) (f rhs)
  | power base exponent => .power (f base) exponent.toInt

theorem unfold_congr {f g : NodeId → Expression α} {node : Node α}
    (same : ∀ operand : Nat, operand ∈ node.operands → f operand = g operand) :
    node.unfold f = node.unfold g := by
  cases node <;> simp_all [operands, unfold]

theorem unfold_mapOperands (f : NodeId → Expression α) (g : NodeId → NodeId) (node : Node α) :
    (node.mapOperands g).unfold f = node.unfold (f ∘ g) := by
  cases node <;> rfl

end Node

namespace Trace

section

variable {α : Type}

structure Extends (s t : Trace α) : Prop where
  size_le : s.size ≤ t.size
  nodes : ∀ id : Nat, id < s.size → t.nodes[id]? = s.nodes[id]?
  inputCount : t.inputCount = s.inputCount
  weightCount : t.weightCount = s.weightCount
  outputs : t.outputs = s.outputs

theorem Extends.refl (t : Trace α) : Extends t t := ⟨Nat.le_refl _, fun _ _ => rfl, rfl, rfl, rfl⟩

theorem Extends.trans {r s t : Trace α} (first : Extends r s) (second : Extends s t) : Extends r t where
  size_le := Nat.le_trans first.size_le second.size_le
  nodes id less := by
    rw [second.nodes id (Nat.lt_of_lt_of_le less first.size_le), first.nodes id less]
  inputCount := second.inputCount.trans first.inputCount
  weightCount := second.weightCount.trans first.weightCount
  outputs := second.outputs.trans first.outputs

theorem extends_push (t : Trace α) (node : Node α) : Extends t (t.push node) where
  size_le := by simp [push, size]
  nodes id less := Array.getElem?_push_lt less ▸ (Array.getElem?_eq_getElem less).symm
  inputCount := rfl
  weightCount := rfl
  outputs := rfl

theorem push_nodes_size (t : Trace α) (node : Node α) : (t.push node).nodes[t.size]? = some node := by
  simp [push, size]

variable [Arithmetic α]

/-- The expression of a node. An operand that does not come before its user counts as zero. -/
def expression (t : Trace α) (id : Nat) : Expression α :=
  match t.nodes[id]? with
  | some node => node.unfold fun operand => if operand < id then t.expression operand else .ofInt 0
  | none => .ofInt 0
termination_by id

theorem expression_eq {t : Trace α} (ordered : t.Ordered) {id : Nat} {node : Node α}
    (found : t.nodes[id]? = some node) : t.expression id = node.unfold t.expression := by
  rw [expression, found]
  refine Node.unfold_congr fun operand member => ?_
  exact if_pos (ordered id node found operand member)

theorem expression_congr {s t : Trace α} (same : s.nodes = t.nodes) (id : Nat) :
    s.expression id = t.expression id := by
  induction id using Nat.strongRecOn with
  | ind id ih =>
      rw [expression, expression, same]
      cases t.nodes[id]? with
      | none => rfl
      | some node =>
          refine Node.unfold_congr fun operand _ => ?_
          by_cases early : operand < id
          · simp only [early, if_true]
            exact ih operand early
          · simp only [early, if_false]

theorem Extends.expression {s t : Trace α} (more : Extends s t) {id : Nat} (less : id < s.size) :
    t.expression id = s.expression id := by
  induction id using Nat.strongRecOn with
  | ind id ih =>
      rw [Trace.expression, Trace.expression, more.nodes id less]
      cases s.nodes[id]? with
      | none => rfl
      | some node =>
          refine Node.unfold_congr fun operand _ => ?_
          by_cases early : operand < id
          · simp only [early, if_true]
            exact ih operand early (Nat.lt_trans early less)
          · simp only [early, if_false]

end

variable {F : Type} [Field F] [FieldArithmetic F]

/-- Every node has the value of its expression. -/
theorem Valued.eq_eval {t : Trace F} (ordered : t.Ordered) {x w values : Array F}
    (valued : t.Valued x w values) (inputs : ∀ (id index : Nat), t.nodes[id]? = some (.input index : Node F) →
      index < x.size) (weights : ∀ (id index : Nat), t.nodes[id]? = some (.weight index : Node F) →
      index < w.size) {id : Nat} (less : id < t.size) :
    values[id]? = some ((t.expression id).eval x w) := by
  induction id using Nat.strongRecOn with
  | ind id ih =>
      have found : t.nodes[id]? = some t.nodes[id] := Array.getElem?_eq_getElem less
      have earlier : ∀ operand : Nat, operand ∈ (t.nodes[id]).operands →
          values[operand]? = some ((t.expression operand).eval x w) := by
        intro operand member
        have early := ordered id _ found operand member
        exact ih operand early (Nat.lt_trans early less)
      rw [valued.2 id _ found, expression_eq ordered found]
      cases node : t.nodes[id] with
      | input index =>
          have bound := inputs id index (node ▸ found)
          simp [Node.value?, Node.unfold, Expression.eval, bound]
      | weight index =>
          have bound := weights id index (node ▸ found)
          simp [Node.value?, Node.unfold, Expression.eval, bound]
      | const value => rfl
      | unary op arg =>
          rw [node] at earlier
          simp [Node.value?, Node.unfold, Expression.eval, earlier arg (by simp [Node.operands])]
      | binary op lhs rhs =>
          rw [node] at earlier
          simp [Node.value?, Node.unfold, Expression.eval, earlier lhs (by simp [Node.operands]),
            earlier rhs (by simp [Node.operands])]
      | power base exponent =>
          rw [node] at earlier
          simp [Node.value?, Node.unfold, Expression.eval, earlier base (by simp [Node.operands])]

/-- A well-formed trace evaluates to the values of its outputs' expressions. -/
theorem evaluate_eq {t : Trace F} (wellFormed : t.WellFormed) {x w : Array F}
    (inputs : x.size = t.inputCount) (weights : w.size = t.weightCount) :
    t.evaluate x w = some (.ok (t.outputs.map fun id => (t.expression id).eval x w).toArray) := by
  obtain ⟨values, final, run, valued, size, picked⟩ := exists_evaluate wellFormed inputs weights
  rw [run, Option.some.injEq, Except.ok.injEq]
  apply Array.ext_getElem?
  intro slot
  by_cases less : slot < t.outputs.length
  · have found : t.outputs[slot]? = some t.outputs[slot] := List.getElem?_eq_getElem less
    have bound := wellFormed.outputs _ (List.getElem_mem less)
    rw [picked slot _ found, valued.eq_eval wellFormed.ordered
      (fun id index same => inputs ▸ wellFormed.inputs id index same)
      (fun id index same => weights ▸ wellFormed.weights id index same) bound]
    simp [less]
  · have beyond : final.size ≤ slot := by omega
    simp [Nat.not_lt.mp less, beyond]

end Trace

end AutoDiff
