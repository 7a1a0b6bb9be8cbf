import AutoDiff.Proofs.NormalForms

/-!
Values of expressions in any arithmetic. A trace and what the optimizer makes of it are compared by the expressions of
their outputs: what is kept as a node is shared holds of these expressions in the end, since a second pass does not
change them any more.
-/

namespace AutoDiff

variable {α : Type} [Arithmetic α]

def Expression.value? (x w : Array α) : Expression α → Option α
  | input index => x[index]?
  | weight index => w[index]?
  | const c => some c
  | unary op a => (a.value? x w).map (Arithmetic.unary op)
  | binary op a b => (a.value? x w).bind fun u => (b.value? x w).map (Arithmetic.binary op u)
  | power a exponent => (a.value? x w).map (Arithmetic.power · (.ofInt exponent))

def Simplified.unfold (t : Trace α) : Simplified α → Expression α
  | existing id => t.expression id
  | fresh node => node.unfold t.expression

theorem Node.value?_eq (x w : Array α) {values : Array α} {f : NodeId → Expression α} (node : Node α)
    (same : ∀ operand : Nat, operand ∈ node.operands → values[operand]? = (f operand).value? x w) :
    node.value? x w values = (node.unfold f).value? x w := by
  cases node with
  | input | weight | const => rfl
  | unary op arg =>
      have operand := same arg (by simp [operands])
      simp [value?, unfold, Expression.value?, operand]
  | binary op lhs rhs =>
      have left := same lhs (by simp [operands])
      have right := same rhs (by simp [operands])
      simp [value?, unfold, Expression.value?, left, right, Option.map_eq_bind]
  | power base exponent =>
      have operand := same base (by simp [operands])
      simp [value?, unfold, Expression.value?, operand]

namespace Trace

section

variable {s t u : Trace α} {x w : Array α}

/-- Every node has the value of its expression. -/
theorem Valued.eq_value? (ordered : t.Ordered) {values : Array α} (valued : t.Valued x w values) {id : Nat}
    (less : id < t.size) : values[id]? = (t.expression id).value? x w := by
  induction id using Nat.strongRecOn with
  | ind id ih =>
      have found : t.nodes[id]? = some t.nodes[id] := Array.getElem?_eq_getElem less
      rw [valued.2 id _ found, expression_eq ordered found]
      refine Node.value?_eq x w _ fun operand member => ?_
      have early := ordered id _ found operand member
      exact ih operand early (Nat.lt_trans early less)

theorem Placed.expression {made : Simplified α} {id : NodeId} {node : Node α} (placed : s.Placed made id u)
    (ordered : s.Ordered) (defined : made.Defined s node) : u.expression id = made.unfold s := by
  cases placed with
  | existing => rfl
  | found there => exact expression_eq ordered there
  | appended => exact expression_push ordered defined.1

theorem expression_outputs (t : Trace α) (outputs : List NodeId) :
    ({ t with outputs } : Trace α).expression = t.expression :=
  funext (@expression_congr _ _ { t with outputs } t rfl)

theorem Renumbers.expression {rename : NodeId → NodeId} (renumbers : Renumbers rename s t) (first : s.WellFormed)
    (second : t.WellFormed) {id : NodeId} (reachable : s.Reachable id) :
    t.expression (rename id) = s.expression id := by
  induction id using Nat.strongRecOn with
  | ind id ih =>
      obtain ⟨node, found⟩ := reachable.exists_node first
      rw [expression_eq second.ordered (renumbers.nodes id node reachable found), expression_eq first.ordered found,
        Node.unfold_mapOperands]
      exact Node.unfold_congr fun operand member =>
        ih operand (first.ordered id node found operand member) (.operand reachable found member)

theorem exists_evaluate_values (wellFormed : t.WellFormed) (inputs : x.size = t.inputCount)
    (weights : w.size = t.weightCount) :
    ∃ result, t.evaluate x w = some (.ok result) ∧
      List.Forall₂ (fun a v => a.value? x w = some v) (t.outputs.map t.expression) result.toList := by
  obtain ⟨values, result, run, valued, size, picked⟩ := exists_evaluate wellFormed inputs weights
  refine ⟨result, run, ?_⟩
  rw [List.forall₂_map_left_iff, List.forall₂_iff_get]
  refine ⟨size.symm, fun slot less bound => ?_⟩
  have output : t.outputs[slot]? = some t.outputs[slot] := List.getElem?_eq_getElem less
  have stored := picked slot _ output
  rw [valued.eq_value? wellFormed.ordered (wellFormed.outputs _ (List.getElem_mem less))] at stored
  have inside : slot < result.size := by simpa using bound
  rw [Array.getElem?_eq_getElem inside] at stored
  simpa using stored.symm

end

theorem forall₂_of_values {x w : Array α} {R : α → α → Prop} {first second : NodeId → Expression α} {ids : List NodeId}
    {before after : List α} (one : List.Forall₂ (fun a v => a.value? x w = some v) (ids.map first) before)
    (two : List.Forall₂ (fun a v => a.value? x w = some v) (ids.map second) after)
    (related : ∀ id ∈ ids, ∀ v, (first id).value? x w = some v → ∃ v', (second id).value? x w = some v' ∧ R v v') :
    List.Forall₂ R before after := by
  induction ids generalizing before after with
  | nil =>
      cases one
      cases two
      exact .nil
  | cons id ids ih =>
      cases one with
      | cons firstValue one =>
          cases two with
          | cons secondValue two =>
              obtain ⟨v', value, holds⟩ := related id (by simp) _ firstValue
              obtain rfl := Option.some.inj (secondValue.symm.trans value)
              exact .cons holds (ih one two fun id member => related id (by simp [member]))

section

variable [DecidableEq α] {t : Trace α} (wellFormed : t.WellFormed) {Q : NodeId → NodeId → Trace α → Prop}
  (keep : ∀ {s u old new}, Extends s u → new < s.size → Q old new s → Q old new u)
  (each : ∀ {n rename s node made id u}, t.Sharing n rename s node made id u → s.Irreducible →
    (∀ old : Nat, old < n → t.Reachable old → Q old (rename old) s) → Q n id u)
include wellFormed keep each

/-- The optimized trace stands for the same expressions as the one after the first pass. What follows for a node from
the same of its operands, and is kept as nodes are appended, holds of every needed node after this pass. -/
theorem exists_optimize_of_each :
    ∃ (rename : NodeId → NodeId) (out r : Trace α), (∀ id, t.Reachable id → Q id (rename id) out) ∧
      t.optimize = some r ∧ r.WellFormed ∧
      r.outputs.map r.expression = t.outputs.map fun id => out.expression (rename id) := by
  obtain ⟨rename, out, rebuilt, _, _, holds⟩ := exists_rebuild_of_steps wellFormed
    (P := fun n rename s => s.Irreducible ∧ ∀ old : Nat, old < n → t.Reachable old → Q old (rename old) s)
    (fun {n rename s _ _ id _} holds sharing => by
      refine ⟨sharing.irreducible holds.1, fun old less reachable => ?_⟩
      rcases Nat.lt_succ_iff_lt_or_eq.mp less with before | rfl
      · rw [Function.update_of_ne (Nat.ne_of_lt before)]
        exact keep sharing.placed.toExtends (sharing.lt_size old before reachable) (holds.2 old before reachable)
      · rw [Function.update_self]
        exact each sharing holds.1 holds.2)
    (fun holds needless => by
      refine ⟨holds.1, fun old less reachable => ?_⟩
      rcases Nat.lt_succ_iff_lt_or_eq.mp less with before | rfl
      · exact holds.2 old before reachable
      · exact absurd reachable needless)
    ⟨fun _ _ found => by simp [blank] at found, fun old less => absurd less (Nat.not_lt_zero old)⟩
  obtain ⟨u, r, same, wellFormedU, run, wellFormedR, renumbers, _⟩ := exists_optimize_renumbers wellFormed
  obtain rfl := Option.some.inj (rebuilt.symm.trans same)
  refine ⟨rename, out, r, fun id reachable => holds id (reachable.lt_size wellFormed) reachable, run, wellFormedR, ?_⟩
  rw [renumbers.outputs, List.map_map, List.map_map]
  refine List.map_congr_left fun id member => ?_
  rw [Function.comp_apply, Function.comp_apply,
    renumbers.expression wellFormedU wellFormedR (.output (List.mem_map_of_mem member)), expression_outputs]

theorem exists_evaluations_of_each {x w : Array α} (inputs : x.size = t.inputCount) (weights : w.size = t.weightCount)
    {R : α → α → Prop} (related : ∀ {old new} {out : Trace α} {v}, Q old new out →
      (t.expression old).value? x w = some v → ∃ v', (out.expression new).value? x w = some v' ∧ R v v') :
    ∃ r before after, t.optimize = some r ∧ t.evaluate x w = some (.ok before) ∧ r.evaluate x w = some (.ok after) ∧
      List.Forall₂ R before.toList after.toList := by
  obtain ⟨rename, out, r, holds, run, wellFormedR, outputs⟩ := exists_optimize_of_each (Q := Q) wellFormed keep each
  obtain ⟨_, same, preserves⟩ := exists_optimize (M := PUnit) wellFormed
  obtain rfl := Option.some.inj (run.symm.trans same)
  obtain ⟨before, evaluated, first⟩ := exists_evaluate_values wellFormed inputs weights
  obtain ⟨after, again, second⟩ := exists_evaluate_values wellFormedR (inputs.trans preserves.inputCount.symm)
    (weights.trans preserves.weightCount.symm)
  rw [outputs] at second
  exact ⟨r, before, after, run, evaluated, again,
    forall₂_of_values first second fun id member _ value => related (holds id (.output member)) value⟩

end

end Trace

end AutoDiff
