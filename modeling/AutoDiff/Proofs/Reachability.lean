import AutoDiff.Proofs.Optimization

/-!
The nodes that the outputs need. A rebuild shares exactly these, one after the other: what holds at the start
and is kept as each of them is shared holds of the rebuilt trace.
-/

namespace AutoDiff

namespace Trace

variable {α : Type}

/-- The nodes that some output is calculated from. -/
inductive Reachable (t : Trace α) : NodeId → Prop
  | output {id : NodeId} : id ∈ t.outputs → t.Reachable id
  | operand {id operand : NodeId} {node : Node α} : t.Reachable id → t.nodes[id]? = some node →
      operand ∈ node.operands → t.Reachable operand

section

variable {t : Trace α} (wellFormed : t.WellFormed)
include wellFormed

theorem Reachable.lt_size {id : NodeId} (reachable : t.Reachable id) : id < t.size := by
  induction reachable with
  | output member => exact wellFormed.outputs _ member
  | operand _ found member less => exact Nat.lt_trans (wellFormed.ordered _ _ found _ member) less

theorem Reachable.exists_node {id : NodeId} (reachable : t.Reachable id) : ∃ node, t.nodes[id]? = some node :=
  ⟨_, Array.getElem?_eq_getElem (reachable.lt_size wellFormed)⟩

/-- The sweep for live nodes marks those that can be reached. -/
theorem live_iff_reachable {live : Array Bool} (run : t.live? = some live) (id : NodeId) :
    live[id]? = some true ↔ t.Reachable id := by
  obtain ⟨marked, again, _, outputs, closed⟩ := exists_live? wellFormed
  obtain rfl := Option.some.inj (run.symm.trans again)
  constructor
  · exact of_live? (fun _ => .output) (fun _ _ found reachable _ => .operand reachable found) run
  · intro reachable
    induction reachable with
    | output member => exact outputs _ member
    | operand _ found member isLive => exact closed _ _ found isLive _ member

end

theorem nodes_push {s : Trace α} {node other : Node α} {id : Nat} (found : (s.push node).nodes[id]? = some other) :
    id < s.size ∧ s.nodes[id]? = some other ∨ id = s.size ∧ other = node := by
  rcases Nat.lt_or_ge id s.size with less | more
  · exact .inl ⟨less, (extends_push s node).nodes id less ▸ found⟩
  · have inside := lt_size found
    simp only [size, push, Array.size_push] at inside more
    obtain rfl : id = s.size := by
      simp only [size]
      omega
    exact .inr ⟨rfl, Option.some.inj (found.symm.trans (push_nodes_size s node))⟩

/-- Where a simplified node ends up: it is there, or the same node is, or it is appended. -/
inductive Placed (s : Trace α) : Simplified α → NodeId → Trace α → Prop
  | existing (id : NodeId) : Placed s (.existing id) id s
  | found {node : Node α} {id : NodeId} : s.nodes[id]? = some node → Placed s (.fresh node) id s
  | appended {node : Node α} : (∀ id : Nat, s.nodes[id]? ≠ some node) →
      Placed s (.fresh node) s.size (s.push node)

section

variable {s u : Trace α} {made : Simplified α} {id : NodeId}

theorem Placed.toExtends (placed : Placed s made id u) : Extends s u := by
  cases placed with
  | existing | found => exact .refl s
  | appended => exact extends_push s _

theorem Placed.shared (placed : s.Placed made id u) (shared : s.Shared) : u.Shared := by
  cases placed with
  | existing | found => exact shared
  | appended new => exact shared.push new

theorem Placed.size_le_succ (placed : s.Placed made id u) : u.size ≤ s.size + 1 := by
  cases placed with
  | existing | found => exact Nat.le_succ _
  | appended => simp [push, size]

variable {node : Node α}

theorem Placed.lt_size (placed : Placed s made id u) (defined : made.Defined s node) : id < u.size := by
  cases placed with
  | existing => exact defined
  | found there => exact Trace.lt_size there
  | appended => simp [push, size]

theorem Placed.ordered (placed : Placed s made id u) (defined : made.Defined s node) (ordered : s.Ordered) :
    u.Ordered := by
  cases placed with
  | existing | found => exact ordered
  | appended => exact (grows_push (P := fun _ => True) s defined.1 trivial).ordered ordered

end

end Trace

variable {α : Type} [Arithmetic α] [DecidableEq α]

theorem Build.exists_share {s : Trace α} (ordered : s.Ordered) (node : Node α)
    (bound : ∀ operand : Nat, operand ∈ node.operands → operand < s.size) :
    ∃ made id u, s.simplify node = some made ∧ made.Defined s node ∧ Build.share node s = some (id, u) ∧
      s.Placed made id u := by
  obtain ⟨made, simplified, defined⟩ := Trace.exists_simplify ordered node bound
  cases made with
  | existing id => exact ⟨_, id, s, simplified, defined, by simp [share, simplified], .existing id⟩
  | fresh fresh =>
      cases search : s.nodes.findIdx? (· == fresh) with
      | some id =>
          obtain ⟨inside, equal, _⟩ := Array.findIdx?_eq_some_iff_getElem.mp search
          have found : s.nodes[id]? = some fresh := by
            rw [Array.getElem?_eq_getElem inside, eq_of_beq equal]
          exact ⟨_, id, s, simplified, defined, by simp [share, simplified, search], .found found⟩
      | none =>
          refine ⟨_, s.size, s.push fresh, simplified, defined, by simp [share, simplified, search], .appended ?_⟩
          intro id found
          have other := Array.findIdx?_eq_none_iff.mp search fresh (Array.mem_of_getElem? found)
          simp at other

namespace Trace

def blank {α : Type} (t : Trace α) : Trace α := { inputCount := t.inputCount, weightCount := t.weightCount }

theorem ordered_blank {α : Type} (t : Trace α) : t.blank.Ordered := by
  intro id node found
  simp [blank] at found

/-- The state of a rebuild of `t` before node `n`: the needed nodes before it have new ids in `s`. -/
structure Renaming (t : Trace α) (n : Nat) (rename : NodeId → NodeId) (s : Trace α) : Prop where
  ordered : s.Ordered
  lt_size : ∀ id : Nat, id < n → t.Reachable id → rename id < s.size

/-- What is known as node `n` of `t` is shared: `made` is what it is simplified to in `s`, and `id` its new id in
`u`. -/
structure Sharing (t : Trace α) (n : Nat) (rename : NodeId → NodeId) (s : Trace α) (node : Node α)
    (made : Simplified α) (id : NodeId) (u : Trace α) : Prop extends Renaming t n rename s where
  reachable : t.Reachable n
  found : t.nodes[n]? = some node
  operands : ∀ operand : Nat, operand ∈ node.operands → operand < n ∧ t.Reachable operand
  simplified : s.simplify (node.mapOperands rename) = some made
  defined : made.Defined s (node.mapOperands rename)
  shared : Build.share (node.mapOperands rename) s = some (id, u)
  placed : s.Placed made id u

section

variable {t s u : Trace α} {n : Nat} {rename : NodeId → NodeId} {node : Node α} {made : Simplified α} {id : NodeId}

omit [Arithmetic α] [DecidableEq α] in
theorem Renaming.skip (known : t.Renaming n rename s) (needless : ¬t.Reachable n) :
    t.Renaming (n + 1) rename s where
  ordered := known.ordered
  lt_size id less reachable := by
    rcases Nat.lt_succ_iff_lt_or_eq.mp less with before | rfl
    · exact known.lt_size id before reachable
    · exact absurd reachable needless

theorem Sharing.next (sharing : t.Sharing n rename s node made id u) :
    t.Renaming (n + 1) (Function.update rename n id) u where
  ordered := sharing.placed.ordered sharing.defined sharing.ordered
  lt_size old less reachable := by
    rcases Nat.lt_succ_iff_lt_or_eq.mp less with before | rfl
    · rw [Function.update_of_ne (Nat.ne_of_lt before)]
      exact Nat.lt_of_lt_of_le (sharing.lt_size old before reachable) sharing.placed.toExtends.size_le
    · rw [Function.update_self]
      exact sharing.placed.lt_size sharing.defined

theorem Renaming.exists_sharing (wellFormed : t.WellFormed) (known : t.Renaming n rename s)
    (reachable : t.Reachable n) (found : t.nodes[n]? = some node) :
    ∃ made id u, t.Sharing n rename s node made id u := by
  have operands (operand : Nat) (member : operand ∈ node.operands) : operand < n ∧ t.Reachable operand :=
    ⟨wellFormed.ordered n node found operand member, .operand reachable found member⟩
  obtain ⟨made, id, u, simplified, defined, shared, placed⟩ :=
    Build.exists_share known.ordered (node.mapOperands rename) fun operand member => by
      rw [operands_mapOperands, List.mem_map] at member
      obtain ⟨old, there, rfl⟩ := member
      exact known.lt_size old (operands old there).1 (operands old there).2
  exact ⟨made, id, u, known, reachable, found, operands, simplified, defined, shared, placed⟩

end

theorem getD_push (renamed : Array NodeId) (id : NodeId) :
    (fun old : Nat => (renamed.push id)[old]?.getD 0) =
      Function.update (fun old : Nat => renamed[old]?.getD 0) renamed.size id := by
  funext old
  rcases Nat.lt_trichotomy old renamed.size with before | rfl | after
  · rw [Function.update_of_ne (Nat.ne_of_lt before), Array.getElem?_push_lt before, Array.getElem?_eq_getElem before]
  · simp
  · rw [Function.update_of_ne (Nat.ne_of_gt after)]
    simp [Array.getElem?_eq_none (Nat.le_of_lt after), Array.getElem?_push, Nat.ne_of_gt after]

theorem getD_push_zero (renamed : Array NodeId) :
    (fun old : Nat => (renamed.push 0)[old]?.getD 0) = fun old : Nat => renamed[old]?.getD 0 := by
  rw [getD_push, Function.update_eq_self_iff]
  simp

section

variable {t : Trace α} (wellFormed : t.WellFormed) {P : Nat → (NodeId → NodeId) → Trace α → Prop}
  (step : ∀ {n rename s node made id u}, P n rename s → t.Sharing n rename s node made id u →
    P (n + 1) (Function.update rename n id) u)
  (skip : ∀ {n rename s}, P n rename s → ¬t.Reachable n → P (n + 1) rename s)
include wellFormed step skip

theorem exists_rebuildNodes_of_steps {live : Array Bool} (run : t.live? = some live) (rest : List (Node α))
    (renamed : Array NodeId) {s : Trace α} (within : renamed.size ≤ t.size)
    (split : t.nodes.toList.drop renamed.size = rest)
    (known : t.Renaming renamed.size (fun id => renamed[id]?.getD 0) s)
    (holds : P renamed.size (fun id => renamed[id]?.getD 0) s) :
    ∃ final out, rest.foldlM (rebuildNode live) renamed s = some (final, out) ∧
      t.Renaming t.size (fun id => final[id]?.getD 0) out ∧ P t.size (fun id => final[id]?.getD 0) out := by
  induction rest generalizing renamed s with
  | nil =>
      have all : renamed.size = t.size :=
        Nat.le_antisymm within (by simpa [size] using List.drop_eq_nil_iff.mp split)
      exact ⟨renamed, s, rfl, all ▸ known, all ▸ holds⟩
  | cons node rest ih =>
      have found : t.nodes[renamed.size]? = some node := by
        have first := congrArg (·[0]?) split
        simpa [List.getElem?_drop] using first
      have next (id : NodeId) : (renamed.push id).size ≤ t.size := by
        rw [Array.size_push]
        exact Trace.lt_size found
      have remaining (id : NodeId) : t.nodes.toList.drop (renamed.push id).size = rest := by
        rw [Array.size_push, ← List.drop_drop, split]
        rfl
      rw [List.foldlM_cons, Build.bind_apply]
      by_cases reachable : t.Reachable renamed.size
      · obtain ⟨made, id, u, sharing⟩ := known.exists_sharing wellFormed reachable found
        rw [rebuildNode_of_live node ((live_iff_reachable wellFormed run _).mpr reachable) sharing.shared]
        refine ih (renamed.push id) (next id) (remaining id) ?_ ?_
        · rw [Array.size_push, getD_push]
          exact sharing.next
        · rw [Array.size_push, getD_push]
          exact step holds sharing
      · rw [rebuildNode_of_dead node fun isLive => reachable ((live_iff_reachable wellFormed run _).mp isLive)]
        refine ih (renamed.push 0) (next 0) (remaining 0) ?_ ?_
        · rw [Array.size_push, getD_push_zero]
          exact known.skip reachable
        · rw [Array.size_push, getD_push_zero]
          exact skip holds reachable

/-- What holds at the start, and is kept as a needed node is shared and as another one is left out, holds of the
rebuilt trace. -/
theorem exists_rebuild_of_steps (start : P 0 (fun _ => 0) t.blank) :
    ∃ rename out, t.rebuild = some { out with outputs := t.outputs.map rename } ∧
      t.Renaming t.size rename out ∧ P t.size rename out := by
  obtain ⟨live, run, _⟩ := exists_live? wellFormed
  obtain ⟨final, out, folded, known, holds⟩ := exists_rebuildNodes_of_steps wellFormed step skip run
    t.nodes.toList #[] (s := t.blank) (Nat.zero_le _) rfl ⟨t.ordered_blank, by simp⟩ start
  refine ⟨_, out, ?_, known, holds⟩
  unfold blank at folded
  simp [rebuild, run, StateT.run, folded, -Array.foldlM_toList]

end

end Trace

end AutoDiff
