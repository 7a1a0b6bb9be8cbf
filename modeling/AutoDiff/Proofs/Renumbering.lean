import AutoDiff.Proofs.Reachability
import Mathlib.Data.List.Sort

namespace AutoDiff

namespace Node

variable {α : Type}

theorem mapOperands_congr {f g : NodeId → NodeId} (node : Node α)
    (same : ∀ operand : Nat, operand ∈ node.operands → f operand = g operand) :
    node.mapOperands f = node.mapOperands g := by
  cases node <;> simp_all [operands, mapOperands]

theorem mapOperands_inj {f : NodeId → NodeId} {first second : Node α}
    (injective : ∀ one two : Nat, one ∈ first.operands → two ∈ second.operands → f one = f two → one = two)
    (same : first.mapOperands f = second.mapOperands f) : first = second := by
  cases first <;> cases second <;> simp_all [mapOperands, operands]
  exact ⟨injective _ _ (.inl rfl) (.inl rfl) same.2.1, injective _ _ (.inr rfl) (.inr rfl) same.2.2⟩

theorem mapOperands_mapOperands (f g : NodeId → NodeId) (node : Node α) :
    (node.mapOperands f).mapOperands g = node.mapOperands (g ∘ f) := by
  cases node <;> rfl

end Node

namespace Trace

variable {α : Type}

/-- The needed nodes of `s` are in `t` in the same order, under the ids that `rename` gives them. Both may have any
other nodes beside them. -/
structure Renumbers (rename : NodeId → NodeId) (s t : Trace α) : Prop where
  increasing : ∀ first second : Nat, s.Reachable first → s.Reachable second → first < second →
    rename first < rename second
  nodes : ∀ (id : Nat) (node : Node α), s.Reachable id → s.nodes[id]? = some node →
    t.nodes[rename id]? = some (node.mapOperands rename)
  outputs : t.outputs = s.outputs.map rename

section

variable {s t : Trace α} {rename : NodeId → NodeId}

theorem Renumbers.injective (renumbers : Renumbers rename s t) {first second : NodeId} (one : s.Reachable first)
    (two : s.Reachable second) (same : rename first = rename second) : first = second := by
  rcases Nat.lt_trichotomy first second with less | equal | greater
  · exact absurd same (Nat.ne_of_lt (renumbers.increasing _ _ one two less))
  · exact equal
  · exact absurd same (Nat.ne_of_gt (renumbers.increasing _ _ two one greater))

theorem Renumbers.reachable (renumbers : Renumbers rename s t) {id : NodeId} (reachable : s.Reachable id) :
    t.Reachable (rename id) := by
  induction reachable with
  | output member => exact .output (renumbers.outputs ▸ List.mem_map_of_mem member)
  | operand reachable found member ih =>
      refine .operand ih (renumbers.nodes _ _ reachable found) ?_
      rw [operands_mapOperands]
      exact List.mem_map_of_mem member

theorem Renumbers.reachable_iff (wellFormed : s.WellFormed) (renumbers : Renumbers rename s t) (id : NodeId) :
    t.Reachable id ↔ ∃ old, s.Reachable old ∧ rename old = id := by
  constructor
  · intro reachable
    induction reachable with
    | output member =>
        rw [renumbers.outputs, List.mem_map] at member
        obtain ⟨old, there, same⟩ := member
        exact ⟨old, .output there, same⟩
    | operand _ found member ih =>
        obtain ⟨old, reachable, rfl⟩ := ih
        obtain ⟨node, there⟩ := reachable.exists_node wellFormed
        obtain rfl := Option.some.inj ((renumbers.nodes old node reachable there).symm.trans found)
        rw [operands_mapOperands, List.mem_map] at member
        obtain ⟨operand, used, same⟩ := member
        exact ⟨operand, .operand reachable there used, same⟩
  · rintro ⟨old, reachable, rfl⟩
    exact renumbers.reachable reachable

end

open Classical in
noncomputable def reachableIds (t : Trace α) : List NodeId := (List.range t.size).filter (t.Reachable ·)

theorem mem_reachableIds {t : Trace α} (wellFormed : t.WellFormed) (id : NodeId) :
    id ∈ t.reachableIds ↔ t.Reachable id := by
  simp only [reachableIds, List.mem_filter, List.mem_range, decide_eq_true_eq, and_iff_right_iff_imp]
  exact fun reachable => reachable.lt_size wellFormed

theorem reachableIds_sorted (t : Trace α) : t.reachableIds.Pairwise (· < ·) :=
  List.pairwise_lt_range.filter _

theorem Renumbers.reachableIds_eq {s t : Trace α} {rename : NodeId → NodeId} (first : s.WellFormed)
    (second : t.WellFormed) (renumbers : Renumbers rename s t) : t.reachableIds = s.reachableIds.map rename := by
  refine t.reachableIds_sorted.eq_of_mem_iff ?_ fun id => ?_
  · rw [List.pairwise_map]
    refine s.reachableIds_sorted.imp_of_mem fun one two less => ?_
    exact renumbers.increasing _ _ ((mem_reachableIds first _).mp one) ((mem_reachableIds first _).mp two) less
  · rw [mem_reachableIds second, renumbers.reachable_iff first, List.mem_map]
    simp only [mem_reachableIds first]

variable [Arithmetic α] [DecidableEq α]

def shareNode (t : Trace α) (done : (NodeId → NodeId) × Trace α) (id : NodeId) :
    Option ((NodeId → NodeId) × Trace α) := do
  let node ← t.nodes[id]?
  let (new, u) ← Build.share (node.mapOperands done.1) done.2
  return (Function.update done.1 id new, u)

theorem Sharing.shareNode_eq {t s u : Trace α} {n : Nat} {rename : NodeId → NodeId} {node : Node α}
    {made : Simplified α} {id : NodeId} (sharing : t.Sharing n rename s node made id u) :
    t.shareNode (rename, s) n = some (Function.update rename n id, u) := by
  simp [shareNode, sharing.found, sharing.shared]

theorem exists_rebuild_eq_shareNode {t : Trace α} (wellFormed : t.WellFormed) :
    ∃ rename out, t.rebuild = some { out with outputs := t.outputs.map rename } ∧
      t.reachableIds.foldlM t.shareNode (fun _ => 0, t.blank) = some (rename, out) := by
  classical
  obtain ⟨rename, out, run, _, folded⟩ := exists_rebuild_of_steps wellFormed (P := fun n rename s =>
    ((List.range n).filter (t.Reachable ·)).foldlM t.shareNode (fun _ => 0, t.blank) = some (rename, s))
    (fun holds sharing => by
      rw [List.range_succ, List.filter_append, List.foldlM_append, holds]
      simpa [sharing.reachable] using sharing.shareNode_eq)
    (fun holds needless => by
      rw [List.range_succ, List.filter_append]
      simpa [needless] using holds)
    rfl
  refine ⟨rename, out, run, ?_⟩
  unfold reachableIds
  convert folded

/-- Needed nodes that are the same but for their ids are shared alike. -/
theorem Renumbers.foldlM_shareNode {s t : Trace α} {rename : NodeId → NodeId} (renumbers : Renumbers rename s t)
    (ids : List NodeId) (needed : ∀ id ∈ ids, s.Reachable id) {first : NodeId → NodeId} (second : NodeId → NodeId)
    {out : Trace α}
    (same : ∀ id, s.Reachable id → second (rename id) = first id) {last : NodeId → NodeId} {final : Trace α}
    (run : ids.foldlM s.shareNode (first, out) = some (last, final)) :
    ∃ other, (ids.map rename).foldlM t.shareNode (second, out) = some (other, final) ∧
      ∀ id, s.Reachable id → other (rename id) = last id := by
  induction ids generalizing first second out with
  | nil =>
      cases run
      exact ⟨second, rfl, same⟩
  | cons id ids ih =>
      have reachable := needed id (by simp)
      rw [List.foldlM_cons] at run
      obtain ⟨⟨next, u⟩, step, rest⟩ := Option.bind_eq_some_iff.mp run
      obtain ⟨node, found, step⟩ := Option.bind_eq_some_iff.mp step
      obtain ⟨⟨new, u⟩, shared, step⟩ := Option.bind_eq_some_iff.mp step
      cases step
      have also : t.shareNode (second, out) (rename id) = some (Function.update second (rename id) new, u) := by
        have operands : node.mapOperands (second ∘ rename) = node.mapOperands first :=
          node.mapOperands_congr fun operand member => same operand (.operand reachable found member)
        simp [shareNode, renumbers.nodes id node reachable found, Node.mapOperands_mapOperands, operands, shared]
      obtain ⟨other, done, still⟩ := ih (fun id member => needed id (by simp [member]))
        (Function.update second (rename id) new) (fun old there => by
          by_cases equal : old = id
          · simp [equal]
          · have other : rename old ≠ rename id := fun same => equal (renumbers.injective there reachable same)
            rw [Function.update_of_ne equal, Function.update_of_ne other]
            exact same old there) rest
      exact ⟨other, by simp [List.foldlM_cons, also, done], still⟩

/-- Traces with the same needed nodes are rebuilt alike. -/
theorem Renumbers.rebuild_eq {s t : Trace α} {rename : NodeId → NodeId} (first : s.WellFormed)
    (second : t.WellFormed) (inputs : s.inputCount = t.inputCount) (weights : s.weightCount = t.weightCount)
    (renumbers : Renumbers rename s t) : s.rebuild = t.rebuild := by
  obtain ⟨last, out, run, folded⟩ := exists_rebuild_eq_shareNode first
  obtain ⟨other, final, also, again⟩ := exists_rebuild_eq_shareNode second
  have start : s.blank = t.blank := by simp [blank, inputs, weights]
  obtain ⟨same, done, agree⟩ := renumbers.foldlM_shareNode s.reachableIds
    (fun id member => (mem_reachableIds first id).mp member) (fun _ => 0) (fun _ _ => rfl) folded
  rw [start, ← renumbers.reachableIds_eq first second, again] at done
  cases done
  have outputs : t.outputs.map other = s.outputs.map last := by
    rw [renumbers.outputs, List.map_map]
    exact List.map_congr_left fun id member => agree id (.output member)
  rw [run, also, outputs]

theorem Renumbers.optimize_eq {s t : Trace α} {rename : NodeId → NodeId} (first : s.WellFormed)
    (second : t.WellFormed) (inputs : s.inputCount = t.inputCount) (weights : s.weightCount = t.weightCount)
    (renumbers : Renumbers rename s t) : s.optimize = t.optimize := by
  rw [optimize, optimize, renumbers.rebuild_eq first second inputs weights]

end Trace

end AutoDiff
