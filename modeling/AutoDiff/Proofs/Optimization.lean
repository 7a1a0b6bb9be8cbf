import AutoDiff.Trace.Optimize
import AutoDiff.Proofs.Building

namespace AutoDiff

namespace Trace

section Liveness

variable {α : Type}

theorem exists_mark (operands : List NodeId) (live : Array Bool)
    (defined : ∀ id : Nat, id ∈ operands → id < live.size) :
    ∃ final, operands.foldlM mark live = some final ∧ final.size = live.size ∧
      ∀ id : Nat, final[id]? = if id ∈ operands then some true else live[id]? := by
  induction operands generalizing live with
  | nil => exact ⟨live, rfl, rfl, by simp⟩
  | cons operand operands ih =>
      have bound : operand < live.size := defined operand (by simp)
      obtain ⟨final, run, size, each⟩ := ih (live.setIfInBounds operand true) fun id member => by
        simpa using defined id (by simp [member])
      refine ⟨final, by simp [mark, bound, run], by simpa using size, fun id => ?_⟩
      rw [each id]
      by_cases later : id ∈ operands
      · simp [later]
      · by_cases same : operand = id
        · subst same
          simp [later, bound]
        · simp [later, same, Ne.symm same]

/-- The operands of live nodes below `limit` are live too. Marking them makes no node from `limit` on
live, so that one sweep suffices. -/
theorem exists_markOperands {t : Trace α} (ordered : t.Ordered) (limit : Nat) (live : Array Bool)
    (size : live.size = t.size) (small : limit ≤ t.size) :
    ∃ final, t.markOperands limit live = some final ∧ final.size = t.size ∧
      (∀ id : Nat, live[id]? = some true → final[id]? = some true) ∧
      (∀ id : Nat, limit ≤ id → final[id]? = live[id]?) ∧
      ∀ (id : Nat) (node : Node α), id < limit → t.nodes[id]? = some node → final[id]? = some true →
        ∀ operand : Nat, operand ∈ node.operands → final[operand]? = some true := by
  induction limit generalizing live with
  | zero => exact ⟨live, rfl, size, fun _ live => live, fun _ _ => rfl, by omega⟩
  | succ limit ih =>
      have found : t.nodes[limit]? = some t.nodes[limit] := Array.getElem?_eq_getElem small
      obtain ⟨operands, chosen⟩ : ∃ operands, operands =
        if live[limit]?.getD false then (t.nodes[limit]).operands else [] := ⟨_, rfl⟩
      have early : ∀ operand : Nat, operand ∈ operands → operand < limit := by
        intro operand member
        rw [chosen] at member
        split at member
        · exact ordered limit _ found operand member
        · simp at member
      obtain ⟨next, marked, nextSize, each⟩ := exists_mark operands live fun id member => by
        have := early id member
        omega
      obtain ⟨final, run, finalSize, kept, above, closed⟩ := ih next (nextSize.trans size) (by omega)
      have stays : ∀ id : Nat, live[id]? = some true → next[id]? = some true := by
        intro id isLive
        rw [each id]
        split
        · rfl
        · exact isLive
      refine ⟨final, ?_, finalSize, fun id isLive => kept id (stays id isLive), ?_, ?_⟩
      · rw [markOperands, found]
        simp only [← chosen]
        simp [marked, run]
      · intro id more
        rw [above id (by omega), each id, if_neg]
        intro member
        have := early id member
        omega
      · intro id node less same isLive operand member
        rcases Nat.lt_or_ge id limit with earlier | last
        · exact closed id node earlier same isLive operand member
        · obtain rfl : id = limit := by omega
          obtain rfl : t.nodes[id] = node := by simpa [found] using same
          have unmarked : id ∉ operands := fun itself => Nat.lt_irrefl id (early id itself)
          have wasLive : live[id]? = some true := by
            rw [above id (Nat.le_refl id), each id, if_neg unmarked] at isLive
            exact isLive
          refine kept operand ?_
          rw [each operand, if_pos]
          rw [chosen, wasLive]
          exact member

theorem exists_live? {t : Trace α} (wellFormed : t.WellFormed) :
    ∃ live, t.live? = some live ∧ live.size = t.size ∧
      (∀ id : Nat, id ∈ t.outputs → live[id]? = some true) ∧
      ∀ (id : Nat) (node : Node α), t.nodes[id]? = some node → live[id]? = some true →
        ∀ operand : Nat, operand ∈ node.operands → live[operand]? = some true := by
  obtain ⟨seeds, marked, seedSize, each⟩ := exists_mark t.outputs (Array.replicate t.size false)
    fun id member => by simpa using wellFormed.outputs id member
  obtain ⟨live, run, size, kept, _, closed⟩ := exists_markOperands wellFormed.ordered t.size seeds
    (by simpa using seedSize) (Nat.le_refl _)
  refine ⟨live, by simp [live?, marked, run], size, fun id member => kept id ?_, ?_⟩
  · rw [each id, if_pos member]
  · exact fun id node found => closed id node (lt_size found) found

theorem of_mark {Q : Nat → Prop} {operands : List NodeId} {live final : Array Bool}
    (run : operands.foldlM mark live = some final) (given : ∀ id : Nat, id ∈ operands → Q id)
    (before : ∀ id : Nat, live[id]? = some true → Q id) {id : Nat} (isLive : final[id]? = some true) : Q id := by
  induction operands generalizing live with
  | nil =>
      cases run
      exact before id isLive
  | cons operand operands ih =>
      rw [List.foldlM_cons] at run
      obtain ⟨next, marked, rest⟩ := Option.bind_eq_some_iff.mp run
      refine ih rest (fun id member => given id (by simp [member])) fun id isLive => ?_
      unfold mark at marked
      split at marked
      · cases marked
        by_cases same : operand = id
        · exact same ▸ given operand (by simp)
        · rw [Array.getElem?_setIfInBounds_ne same] at isLive
          exact before id isLive
      · cases marked

theorem of_markOperands {t : Trace α} {Q : Nat → Prop}
    (closed : ∀ (id : Nat) (node : Node α), t.nodes[id]? = some node → Q id →
      ∀ operand : Nat, operand ∈ node.operands → Q operand) {limit : Nat} {live final : Array Bool}
    (run : t.markOperands limit live = some final) (before : ∀ id : Nat, live[id]? = some true → Q id) {id : Nat}
    (isLive : final[id]? = some true) : Q id := by
  induction limit generalizing live with
  | zero =>
      cases run
      exact before id isLive
  | succ limit ih =>
      unfold markOperands at run
      obtain ⟨next, marked, rest⟩ := Option.bind_eq_some_iff.mp run
      refine ih rest fun id isLive => of_mark marked (fun operand member => ?_) before isLive
      split at member
      · next node found =>
          split at member
          · next needed =>
              have isLive : live[limit]? = some true := by
                cases known : live[limit]? <;> simp_all
              exact closed limit node found (before limit isLive) operand member
          · cases member
      · cases member

/-- What holds of the outputs, and of the operands of a node that it holds of, holds of all live nodes. -/
theorem of_live? {t : Trace α} {Q : Nat → Prop} (outputs : ∀ id : Nat, id ∈ t.outputs → Q id)
    (closed : ∀ (id : Nat) (node : Node α), t.nodes[id]? = some node → Q id →
      ∀ operand : Nat, operand ∈ node.operands → Q operand) {live : Array Bool} (run : t.live? = some live)
    {id : Nat} (isLive : live[id]? = some true) : Q id := by
  unfold live? at run
  obtain ⟨seeds, marked, rest⟩ := Option.bind_eq_some_iff.mp run
  refine of_markOperands closed rest (fun id isLive => ?_) isLive
  refine of_mark marked outputs (fun id isLive => ?_) isLive
  simp [Array.getElem?_replicate] at isLive

end Liveness

def Shared {α : Type} (t : Trace α) : Prop :=
  ∀ (first second : Nat) (node : Node α), t.nodes[first]? = some node → t.nodes[second]? = some node →
    first = second

theorem Shared.push {α : Type} {t : Trace α} (shared : t.Shared) {node : Node α}
    (new : ∀ id : Nat, t.nodes[id]? ≠ some node) : (t.push node).Shared := by
  have place (id : Nat) (other : Node α) (found : (t.push node).nodes[id]? = some other) :
      t.nodes[id]? = some other ∨ id = t.size ∧ other = node := by
    rcases Nat.lt_or_ge id t.size with less | more
    · exact .inl ((extends_push t node).nodes id less ▸ found)
    · have bound := lt_size found
      simp only [size, Trace.push, Array.size_push] at bound more
      have last : id = t.size := by
        simp only [size]
        omega
      subst last
      exact .inr ⟨rfl, by simpa [push_nodes_size] using found.symm⟩
  intro first second other one two
  rcases place first other one with old | ⟨last, rfl⟩
  · rcases place second other two with older | ⟨_, rfl⟩
    · exact shared first second other old older
    · exact absurd old (new first)
  · rcases place second other two with old | ⟨same, _⟩
    · exact absurd old (new second)
    · exact last.trans same.symm

end Trace

namespace Build

variable {α M : Type} [Arithmetic α] [DecidableEq α] [CommRing M] [Interpretation α M]

theorem meets_share {P : Node α → Prop} {s : Trace α} (ordered : s.Ordered)
    (plain : ∀ node : Node α, node.IsPlain → P node) (node : Node α)
    (defined : ∀ operand : Nat, operand ∈ node.operands → operand < s.size) (allowed : P node) :
    Meets P (share node) s fun id t =>
      t.Denotes id (node.interpret M (s.interpret M)) ∧ (s.Shared → t.Shared) := by
  obtain ⟨made, simplified, isDefined⟩ := Trace.exists_simplify ordered node defined
  have same := Trace.simplify_interpret (M := M) ordered simplified
  cases made with
  | existing id => exact ⟨id, s, by simp [share, simplified], .refl s, ⟨isDefined, same⟩, fun shared => shared⟩
  | fresh fresh =>
      have kind : P fresh := isDefined.allowed plain allowed
      rw [← same]
      cases search : s.nodes.findIdx? (· == fresh) with
      | some id =>
          obtain ⟨bound, equal, _⟩ := Array.findIdx?_eq_some_iff_getElem.mp search
          have found : s.nodes[id]? = some fresh := by
            rw [Array.getElem?_eq_getElem bound, eq_of_beq equal]
          refine ⟨id, s, by simp [share, simplified, search], .refl s, ⟨bound, ?_⟩, fun shared => shared⟩
          exact Trace.interpret_eq ordered found
      | none =>
          refine ⟨s.size, s.push fresh, by simp [share, simplified, search],
            s.grows_push isDefined.1 kind, Trace.denotes_push ordered isDefined.1, ?_⟩
          intro shared
          refine shared.push fun id found => ?_
          have other := Array.findIdx?_eq_none_iff.mp search fresh (Array.mem_of_getElem? found)
          simp at other

end Build

namespace Trace

variable {α : Type}

def Rebuilt (t : Trace α) (node : Node α) : Prop :=
  node.IsPlain ∨ ∃ (id : Nat) (old : Node α) (f : NodeId → NodeId),
    t.nodes[id]? = some old ∧ node = old.mapOperands f

theorem Rebuilt.input {t : Trace α} {index : Nat} (rebuilt : t.Rebuilt (.input index)) :
    ∃ id : Nat, t.nodes[id]? = some (.input index : Node α) := by
  rcases rebuilt with plain | ⟨id, old, f, found, same⟩
  · exact plain.elim
  · cases old <;> simp [Node.mapOperands] at same
    exact ⟨id, same ▸ found⟩

theorem Rebuilt.weight {t : Trace α} {index : Nat} (rebuilt : t.Rebuilt (.weight index)) :
    ∃ id : Nat, t.nodes[id]? = some (.weight index : Node α) := by
  rcases rebuilt with plain | ⟨id, old, f, found, same⟩
  · exact plain.elim
  · cases old <;> simp [Node.mapOperands] at same
    exact ⟨id, same ▸ found⟩

theorem Rebuilt.power {t : Trace α} {base : Nat} {exponent : Int32}
    (rebuilt : t.Rebuilt (.power base exponent)) :
    ∃ id old : Nat, t.nodes[id]? = some (.power old exponent : Node α) := by
  rcases rebuilt with plain | ⟨id, old, f, found, same⟩
  · exact plain.elim
  · cases old <;> simp [Node.mapOperands] at same
    exact ⟨id, _, same.2 ▸ found⟩

theorem operands_mapOperands (node : Node α) (f : NodeId → NodeId) :
    (node.mapOperands f).operands = node.operands.map f := by
  cases node <;> rfl

section

variable [Arithmetic α] [DecidableEq α] {s : Trace α} {live : Array Bool} {renamed : Array NodeId} (node : Node α)

theorem rebuildNode_of_live
    (needed : live[renamed.size]? = some true) {id : Nat} {u : Trace α}
    (shared : Build.share (node.mapOperands fun id => renamed[id]?.getD 0) s = some (id, u)) :
    rebuildNode live renamed node s = some (renamed.push id, u) := by
  simp only [rebuildNode, needed, Option.getD_some, if_true, Build.bind_apply, shared, Option.bind_some]
  rfl

theorem rebuildNode_of_dead (dead : live[renamed.size]? ≠ some true) :
    rebuildNode live renamed node s = some (renamed.push 0, s) := by
  have skipped : live[renamed.size]?.getD false = false := by
    cases known : live[renamed.size]? with
    | none => rfl
    | some value =>
        cases value with
        | false => rfl
        | true => exact absurd known dead
  simp only [rebuildNode, skipped, Bool.false_eq_true, if_false]
  rfl

end

variable {M : Type} [Arithmetic α] [CommRing M] [Interpretation α M]

theorem interpret_mapOperands (node : Node α) (f : NodeId → NodeId) (g : NodeId → M) :
    (node.mapOperands f).interpret M g = node.interpret M (g ∘ f) := by
  cases node <;> rfl

/-- A well-formed trace that computes what `t` does, and whose powers are powers of `t`. -/
structure Preserves (M : Type) [CommRing M] [Interpretation α M] (t u : Trace α) : Prop where
  wellFormed : u.WellFormed
  inputCount : u.inputCount = t.inputCount
  weightCount : u.weightCount = t.weightCount
  outputs : u.outputs.map (u.interpret M) = t.outputs.map (t.interpret M)
  powers : ∀ (id base : Nat) (exponent : Int32), u.nodes[id]? = some (.power base exponent : Node α) →
    ∃ old oldBase : Nat, t.nodes[old]? = some (.power oldBase exponent : Node α)

theorem Preserves.trans {s t u : Trace α} (first : Preserves M s t) (second : Preserves M t u) :
    Preserves M s u where
  wellFormed := second.wellFormed
  inputCount := second.inputCount.trans first.inputCount
  weightCount := second.weightCount.trans first.weightCount
  outputs := second.outputs.trans first.outputs
  powers id base exponent found := by
    obtain ⟨middle, middleBase, there⟩ := second.powers id base exponent found
    exact first.powers middle middleBase exponent there

/-- `renamed` has the new ids of the live nodes among the first ones. -/
def Renames (M : Type) [CommRing M] [Interpretation α M] (t : Trace α) (live : Array Bool)
    (renamed : Array NodeId) (s : Trace α) : Prop :=
  ∀ id : Nat, id < renamed.size → live[id]? = some true →
    s.Denotes (renamed[id]?.getD 0) (t.interpret M id)

variable [DecidableEq α]

theorem meets_rebuildNode {t : Trace α} (before : t.Ordered) {live : Array Bool}
    (closed : ∀ (id : Nat) (node : Node α), t.nodes[id]? = some node → live[id]? = some true →
      ∀ operand : Nat, operand ∈ node.operands → live[operand]? = some true)
    {renamed : Array NodeId} {s : Trace α} (ordered : s.Ordered) (renames : t.Renames M live renamed s)
    {node : Node α} (found : t.nodes[renamed.size]? = some node) :
    Build.Meets t.Rebuilt (rebuildNode live renamed node) s fun next u =>
      next.size = renamed.size + 1 ∧ t.Renames M live next u ∧ (s.Shared → u.Shared) := by
  by_cases needed : live[renamed.size]? = some true
  · have operand (id : Nat) (member : id ∈ node.operands) :
        s.Denotes (renamed[id]?.getD 0) (t.interpret M id) :=
      renames id (before _ node found id member) (closed _ node found needed id member)
    have kind : t.Rebuilt (node.mapOperands fun id => renamed[id]?.getD 0) := .inr ⟨_, node, _, found, rfl⟩
    obtain ⟨made, u, run, grows, denotes, keeps⟩ := Build.meets_share (M := M) ordered (fun _ => .inl)
      (node.mapOperands fun id => renamed[id]?.getD 0) (fun id member => by
        rw [operands_mapOperands, List.mem_map] at member
        obtain ⟨old, there, rfl⟩ := member
        exact (operand old there).1) kind
    refine ⟨_, u, rebuildNode_of_live node needed run, grows, by simp, ?_, keeps⟩
    intro id less isLive
    rw [Array.size_push] at less
    rcases Nat.lt_or_ge id renamed.size with old | new
    · rw [Array.getElem?_push_lt old, ← Array.getElem?_eq_getElem old]
      exact (renames id old isLive).extend grows.toExtends
    · obtain rfl : id = renamed.size := by omega
      rw [Array.getElem?_push_size, Option.getD_some, interpret_eq before found]
      rw [interpret_mapOperands] at denotes
      have same := Node.interpret_congr (M := M)
        (f := s.interpret M ∘ fun id => renamed[id]?.getD 0) (g := t.interpret M)
        fun id member => (operand id member).2
      rwa [same] at denotes
  · refine ⟨_, s, rebuildNode_of_dead node needed, .refl s, by simp, ?_, id⟩
    intro id less isLive
    rw [Array.size_push] at less
    have old : id < renamed.size := by
      rcases Nat.lt_or_ge id renamed.size with old | new
      · exact old
      · obtain rfl : id = renamed.size := by omega
        exact absurd isLive needed
    rw [Array.getElem?_push_lt old, ← Array.getElem?_eq_getElem old]
    exact renames id old isLive

theorem meets_rebuildNodes {t : Trace α} (before : t.Ordered) {live : Array Bool}
    (closed : ∀ (id : Nat) (node : Node α), t.nodes[id]? = some node → live[id]? = some true →
      ∀ operand : Nat, operand ∈ node.operands → live[operand]? = some true)
    (rest : List (Node α)) (renamed : Array NodeId) {s : Trace α} (ordered : s.Ordered)
    (renames : t.Renames M live renamed s) (split : t.nodes.toList.drop renamed.size = rest) :
    Build.Meets t.Rebuilt (rest.foldlM (rebuildNode live) renamed) s fun final u =>
      t.size ≤ final.size ∧ t.Renames M live final u ∧ (s.Shared → u.Shared) := by
  induction rest generalizing renamed s with
  | nil =>
      refine .pure ⟨?_, renames, id⟩
      simpa [size] using List.drop_eq_nil_iff.mp split
  | cons node rest ih =>
      have found : t.nodes[renamed.size]? = some node := by
        have first := congrArg (·[0]?) split
        simpa [List.getElem?_drop] using first
      refine (meets_rebuildNode before closed ordered renames found).bind fun next u grows step => ?_
      obtain ⟨nextSize, nextRenames, keeps⟩ := step
      have remaining : t.nodes.toList.drop next.size = rest := by
        rw [nextSize, ← List.drop_drop, split]
        rfl
      refine (ih next (grows.ordered ordered) nextRenames remaining).mono fun final v more rebuilt => ?_
      obtain ⟨finalSize, finalRenames, still⟩ := rebuilt
      exact ⟨finalSize, finalRenames, still ∘ keeps⟩

theorem exists_rebuild {t : Trace α} (wellFormed : t.WellFormed) :
    ∃ u, t.rebuild = some u ∧ Preserves M t u := by
  obtain ⟨live, run, _, isLive, closed⟩ := exists_live? wellFormed
  have start : ({ inputCount := t.inputCount, weightCount := t.weightCount } : Trace α).Ordered := by
    intro id node found
    simp at found
  obtain ⟨renamed, out, folded, grows, size, renames, keeps⟩ :=
    meets_rebuildNodes (M := M) wellFormed.ordered closed t.nodes.toList #[] start
      (by intro id less; simp at less) rfl
  have shared : out.Shared := keeps (by intro first second node found; simp at found)
  have kind (id : Nat) (node : Node α) (found : out.nodes[id]? = some node) : t.Rebuilt node :=
    grows.added id node (Nat.zero_le id) found
  have output (id : Nat) (member : id ∈ t.outputs) :
      out.Denotes (renamed[id]?.getD 0) (t.interpret M id) :=
    renames id (Nat.lt_of_lt_of_le (wellFormed.outputs id member) size) (isLive id member)
  refine ⟨{ out with outputs := t.outputs.map fun id => renamed[id]?.getD 0 },
    by simp [rebuild, run, StateT.run, folded, -Array.foldlM_toList], ?_⟩
  constructor
  · refine ⟨⟨grows.ordered start, ?_, ?_, ?_⟩, ?_⟩
    · intro id index found
      obtain ⟨old, there⟩ := (kind id _ found).input
      exact grows.inputCount ▸ wellFormed.inputs old index there
    · intro id index found
      obtain ⟨old, there⟩ := (kind id _ found).weight
      exact grows.weightCount ▸ wellFormed.weights old index there
    · exact fun first second index one two => shared first second _ one two
    · intro id member
      obtain ⟨old, there, rfl⟩ := List.mem_map.mp member
      exact (output old there).1
  · exact grows.inputCount
  · exact grows.weightCount
  · rw [interpret_outputs, List.map_map]
    exact List.map_congr_left fun id member => (output id member).2
  · exact fun id base exponent found => (kind id _ found).power

theorem exists_shrink {t : Trace α} (wellFormed : t.WellFormed) :
    ∃ u, t.shrink = some u ∧ Preserves M t u := by
  induction bound : t.size using Nat.strongRecOn generalizing t with
  | ind size ih =>
      obtain ⟨next, run, preserves⟩ := exists_rebuild (M := M) wellFormed
      rw [shrink, run]
      by_cases smaller : next.size < t.size
      · obtain ⟨last, rest, done⟩ := ih next.size (bound ▸ smaller) preserves.wellFormed rfl
        exact ⟨last, by simpa [smaller] using rest, preserves.trans done⟩
      · exact ⟨next, by simp [smaller], preserves⟩

/-- Optimization succeeds, and preserves what the outputs are. -/
theorem exists_optimize {t : Trace α} (wellFormed : t.WellFormed) :
    ∃ u, t.optimize = some u ∧ Preserves M t u := by
  obtain ⟨next, run, preserves⟩ := exists_rebuild (M := M) wellFormed
  obtain ⟨last, rest, done⟩ := exists_shrink (M := M) preserves.wellFormed
  exact ⟨last, by simp [optimize, run, rest], preserves.trans done⟩

end Trace

end AutoDiff
