import AutoDiff.Proofs.Renumbering
import AutoDiff.Proofs.Rules
import Mathlib.Data.Nat.Count
import Mathlib.Data.Set.Card

/-!
What the optimizer makes of a trace is in normal form. After one pass no node can be simplified and no two nodes are
the same, but folding may have left nodes that nothing needs any more. The second pass only drops these, and finds
nothing else to do; a third one would find nothing at all.
-/

namespace AutoDiff

def Simplified.mapOperands {α : Type} (f : NodeId → NodeId) : Simplified α → Simplified α
  | existing id => existing (f id)
  | fresh node => fresh (node.mapOperands f)

namespace Trace

section Renamed

variable {α : Type} {s t : Trace α} {f : NodeId → NodeId}

theorem const?_of_mapOperands {id new : NodeId} (same : s.nodes[new]? = t.nodes[id]?.map (Node.mapOperands f)) :
    s.const? new = t.const? id := by
  unfold const?
  rw [same]
  cases t.nodes[id]? with
  | none => rfl
  | some node => cases node <;> rfl

theorem ordered_mapOperands (op : BinaryOp) {lhs rhs : NodeId} (less : f rhs < f lhs ↔ rhs < lhs) :
    (ordered op (f lhs) (f rhs) : Node α) = (ordered op lhs rhs).mapOperands f := by
  unfold ordered
  simp only [less]
  split <;> rfl

variable [Arithmetic α]

theorem isConst_of_mapOperands {id new : NodeId} (same : s.nodes[new]? = t.nodes[id]?.map (Node.mapOperands f))
    (n : Int) : s.isConst new n = t.isConst id n := by
  rw [isConst, isConst, const?_of_mapOperands same]

theorem simplifyUnary_mapOperands (op : UnaryOp) {arg : NodeId}
    (same : s.nodes[f arg]? = t.nodes[arg]?.map (Node.mapOperands f)) :
    s.simplifyUnary op (f arg) = (t.simplifyUnary op arg).map (.mapOperands f) := by
  unfold simplifyUnary
  rw [const?_of_mapOperands same]
  cases t.const? arg with
  | some c => rfl
  | none =>
      by_cases negated : op = .neg
      · simp only [negated, if_true]
        rw [same]
        cases t.nodes[arg]? with
        | none => rfl
        | some node =>
            cases node with
            | unary op inner => cases op <;> rfl
            | input | weight | const | binary | power => rfl
      · simp only [negated, if_false]
        rfl

theorem simplifyBinary_mapOperands (op : BinaryOp) {lhs rhs : NodeId}
    (left : s.nodes[f lhs]? = t.nodes[lhs]?.map (Node.mapOperands f))
    (right : s.nodes[f rhs]? = t.nodes[rhs]?.map (Node.mapOperands f)) (less : f rhs < f lhs ↔ rhs < lhs) :
    s.simplifyBinary op (f lhs) (f rhs) = (t.simplifyBinary op lhs rhs).map (.mapOperands f) := by
  unfold simplifyBinary
  simp only [const?_of_mapOperands left, const?_of_mapOperands right, isConst_of_mapOperands left,
    isConst_of_mapOperands right, ordered_mapOperands _ less, simplifyUnary_mapOperands _ left,
    simplifyUnary_mapOperands _ right]
  split
  · rfl
  · cases op <;> simp only [apply_ite (Option.map (Simplified.mapOperands f))] <;> rfl

theorem simplifyPower_mapOperands (exponent : Int32) {base : NodeId}
    (same : s.nodes[f base]? = t.nodes[base]?.map (Node.mapOperands f)) :
    s.simplifyPower (f base) exponent = (t.simplifyPower base exponent).mapOperands f := by
  unfold simplifyPower
  rw [const?_of_mapOperands same]
  split_ifs
  · rfl
  · rfl
  · cases t.const? base <;> rfl

/-- Simplification does not depend on the ids, as long as the order of the operands is the same. -/
theorem simplify_mapOperands (node : Node α)
    (same : ∀ operand : Nat, operand ∈ node.operands →
      s.nodes[f operand]? = t.nodes[operand]?.map (Node.mapOperands f))
    (less : ∀ first second : Nat, first ∈ node.operands → second ∈ node.operands →
      (f first < f second ↔ first < second)) :
    s.simplify (node.mapOperands f) = (t.simplify node).map (.mapOperands f) := by
  cases node with
  | input | weight | const => rfl
  | unary op arg => exact simplifyUnary_mapOperands op (same arg (by simp [Node.operands]))
  | binary op lhs rhs =>
      have left : lhs ∈ (Node.binary op lhs rhs : Node α).operands := by simp [Node.operands]
      have right : rhs ∈ (Node.binary op lhs rhs : Node α).operands := by simp [Node.operands]
      exact simplifyBinary_mapOperands op (same lhs left) (same rhs right) (less rhs lhs right left)
  | power base exponent =>
      exact congrArg some (simplifyPower_mapOperands exponent (same base (by simp [Node.operands])))

end Renamed

section

variable {α : Type}

def before (t : Trace α) (id : NodeId) : Trace α := { t with nodes := t.nodes.take id }

theorem before_nodes (t : Trace α) {id other : Nat} (less : other < id) :
    (t.before id).nodes[other]? = t.nodes[other]? := by
  rw [before, Array.take_eq_extract, Array.getElem?_extract, Nat.zero_add]
  split
  · rfl
  · next beyond => exact (Array.getElem?_eq_none (by omega)).symm

variable [Arithmetic α]

/-- No node is anything that simplification would put another node in place of. -/
def Irreducible (t : Trace α) : Prop :=
  ∀ (id : Nat) (node : Node α), t.nodes[id]? = some node → (t.before id).simplify node = some (.fresh node)

theorem simplify_congr {s t : Trace α} {node : Node α}
    (same : ∀ operand : Nat, operand ∈ node.operands → s.nodes[operand]? = t.nodes[operand]?) :
    s.simplify node = t.simplify node := by
  have unchanged (n : Node α) : n.mapOperands (fun id => id) = n := by cases n <;> rfl
  have nodes : Node.mapOperands (fun id => id) = fun n : Node α => n := funext unchanged
  have outcomes : Simplified.mapOperands (fun id => id) = fun o : Simplified α => o := by
    funext outcome
    cases outcome with
    | existing => rfl
    | fresh n => rw [Simplified.mapOperands, unchanged]
  have result := simplify_mapOperands (s := s) (t := t) (f := fun id => id) node
    (fun operand member => by rw [nodes, Option.map_id', same operand member]) (fun _ _ _ _ => Iff.rfl)
  rwa [unchanged, outcomes, Option.map_id'] at result

theorem Irreducible.simplify {t : Trace α} (irreducible : t.Irreducible) (ordered : t.Ordered) {id : NodeId}
    {node : Node α} (found : t.nodes[id]? = some node) : t.simplify node = some (.fresh node) := by
  rw [← irreducible id node found]
  refine simplify_congr fun operand member => ?_
  rw [before_nodes t (ordered id node found operand member)]

theorem Irreducible.push {t : Trace α} (irreducible : t.Irreducible) (ordered : t.Ordered) {node : Node α}
    (defined : ∀ operand : Nat, operand ∈ node.operands → operand < t.size)
    (kept : t.simplify node = some (.fresh node)) : (t.push node).Irreducible := by
  have more := extends_push t node
  have still := (grows_push (P := fun _ => True) t defined trivial).ordered ordered
  have earlier {id : Nat} {other : Node α} (found : (t.push node).nodes[id]? = some other) (bound : id ≤ t.size)
      (operand : Nat) (member : operand ∈ other.operands) :
      ((t.push node).before id).nodes[operand]? = t.nodes[operand]? := by
    have less := still id other found operand member
    rw [before_nodes _ less, more.nodes operand (Nat.lt_of_lt_of_le less bound)]
  intro id other found
  rcases nodes_push found with ⟨less, old⟩ | ⟨rfl, rfl⟩
  · rw [← irreducible.simplify ordered old]
    exact simplify_congr (earlier found (Nat.le_of_lt less))
  · exact (simplify_congr (earlier found (Nat.le_refl _))).trans kept

end

/-- Nothing is left to do: every node is needed, no two are the same, and none can be simplified. -/
structure Normal {α : Type} [Arithmetic α] (t : Trace α) : Prop where
  needed : ∀ id : Nat, id < t.size → t.Reachable id
  shared : t.Shared
  irreducible : t.Irreducible

theorem Irreducible.le_of_isCommutative {α : Type} [Arithmetic α] {t : Trace α} (irreducible : t.Irreducible)
    {id : NodeId} {op : BinaryOp} {lhs rhs : NodeId} (found : t.nodes[id]? = some (.binary op lhs rhs))
    (commutes : op.isCommutative = true) : lhs ≤ rhs := by
  have kept := rewrites_of_simplify (irreducible id _ found)
  generalize same : Simplified.fresh (Node.binary op lhs rhs : Node α) = outcome at kept
  refine Nat.not_lt.mp fun less => ?_
  cases kept with
  | keepBinary either unreducible =>
      rw [ordered, if_pos ⟨commutes, less⟩] at same
      cases same
      exact Nat.lt_irrefl _ less
  | minusMul _ _ negated | mulMinus _ _ negated =>
      cases same
      cases negated
  | leaf leaf => cases leaf
  | zeroSub => cases commutes
  | foldBinary | zeroAdd | addZero | subZero | zeroMul | mulZero | oneMul | mulOne | zeroDiv | divOne | powOne
  | powZero => cases same

section Rank

open Classical

variable {α : Type} {t : Trace α}

noncomputable def rank (t : Trace α) (id : NodeId) : Nat := Nat.count t.Reachable id

theorem rank_succ_of_reachable {n : Nat} (reachable : t.Reachable n) : t.rank (n + 1) = t.rank n + 1 := by
  simp [rank, Nat.count_succ, reachable]

theorem rank_succ_of_needless {n : Nat} (needless : ¬t.Reachable n) : t.rank (n + 1) = t.rank n := by
  simp [rank, Nat.count_succ, needless]

theorem rank_lt_rank {first second : NodeId} (reachable : t.Reachable first) (less : first < second) :
    t.rank first < t.rank second :=
  Nat.count_strict_mono reachable less

theorem rank_lt_rank_iff {first second : NodeId} (one : t.Reachable first) (two : t.Reachable second) :
    t.rank first < t.rank second ↔ first < second := by
  refine ⟨fun less => Nat.lt_of_not_le fun more => ?_, rank_lt_rank one⟩
  rcases Nat.lt_or_eq_of_le more with greater | equal
  · exact Nat.lt_asymm less (rank_lt_rank two greater)
  · exact Nat.lt_irrefl _ (equal ▸ less)

theorem rank_injective {first second : NodeId} (one : t.Reachable first) (two : t.Reachable second)
    (same : t.rank first = t.rank second) : first = second :=
  Nat.count_injective one two same

theorem rank_le (n : Nat) : t.rank n ≤ n := Nat.count_le _

theorem rank_size (t : Trace α) : t.rank t.size = t.reachableIds.length := List.countP_eq_length_filter

end Rank

section

variable {α : Type} [Arithmetic α] [DecidableEq α] {t s u : Trace α} {n : Nat} {rename : NodeId → NodeId}
  {node : Node α} {made : Simplified α} {id : NodeId}

theorem Sharing.irreducible (sharing : t.Sharing n rename s node made id u) (irreducible : s.Irreducible) :
    u.Irreducible := by
  cases sharing.placed with
  | existing | found => exact irreducible
  | appended =>
      exact irreducible.push sharing.ordered sharing.defined.1
        (rewrites_of_simplify sharing.simplified).simplify_fresh

/-- A rebuilt trace has no two nodes that are the same, and none that can be simplified. Some may not be needed. -/
theorem exists_rebuild_irreducible (wellFormed : t.WellFormed) :
    ∃ u, t.rebuild = some u ∧ u.WellFormed ∧ u.Shared ∧ u.Irreducible ∧ u.size ≤ t.rank t.size := by
  obtain ⟨rename, out, run, _, shared, irreducible, small⟩ := exists_rebuild_of_steps wellFormed
    (P := fun n _ s => s.Shared ∧ s.Irreducible ∧ s.size ≤ t.rank n)
    (fun holds sharing => by
      obtain ⟨shared, irreducible, small⟩ := holds
      refine ⟨sharing.placed.shared shared, sharing.irreducible irreducible, ?_⟩
      rw [rank_succ_of_reachable sharing.reachable]
      exact Nat.le_trans sharing.placed.size_le_succ (Nat.succ_le_succ small))
    (fun holds needless => by rwa [rank_succ_of_needless needless])
    ⟨fun _ _ _ found => by simp [blank] at found, fun _ _ found => by simp [blank] at found, Nat.zero_le _⟩
  obtain ⟨other, same, preserves⟩ := exists_rebuild (M := PUnit) wellFormed
  obtain rfl := Option.some.inj (run.symm.trans same)
  exact ⟨_, run, preserves.wellFormed, shared, irreducible, small⟩

/-- What is known half way through a second pass: the needed nodes so far are there, with their ranks as ids, and
nothing else is. -/
structure Compacting (t : Trace α) (n : Nat) (rename : NodeId → NodeId) (s : Trace α) : Prop where
  ranks : ∀ id : Nat, id < n → t.Reachable id → rename id = t.rank id
  size : s.size = t.rank n
  nodes : ∀ (id : Nat) (node : Node α), id < n → t.Reachable id → t.nodes[id]? = some node →
    s.nodes[t.rank id]? = some (node.mapOperands t.rank)
  origin : ∀ (id : Nat) (node : Node α), s.nodes[id]? = some node →
    ∃ old before, old < n ∧ t.Reachable old ∧ t.nodes[old]? = some before ∧ id = t.rank old ∧
      node = before.mapOperands t.rank

omit [Arithmetic α] [DecidableEq α] in
theorem Compacting.skip (compacting : t.Compacting n rename s) (needless : ¬t.Reachable n) :
    t.Compacting (n + 1) rename s where
  ranks id less reachable := by
    rcases Nat.lt_succ_iff_lt_or_eq.mp less with before | rfl
    · exact compacting.ranks id before reachable
    · exact absurd reachable needless
  size := by rw [compacting.size, rank_succ_of_needless needless]
  nodes id node less reachable found := by
    rcases Nat.lt_succ_iff_lt_or_eq.mp less with before | rfl
    · exact compacting.nodes id node before reachable found
    · exact absurd reachable needless
  origin id node found := by
    obtain ⟨old, before, less, rest⟩ := compacting.origin id node found
    exact ⟨old, before, Nat.lt_succ_of_lt less, rest⟩

theorem Sharing.eq_fresh (sharing : t.Sharing n rename s node made id u) (irreducible : t.Irreducible)
    (ordered : t.Ordered) (compacting : t.Compacting n rename s) : made = .fresh (node.mapOperands t.rank) := by
  have renamed : node.mapOperands rename = node.mapOperands t.rank :=
    node.mapOperands_congr fun operand member =>
      compacting.ranks operand (sharing.operands operand member).1 (sharing.operands operand member).2
  have moved : s.simplify (node.mapOperands t.rank) = (t.simplify node).map (.mapOperands t.rank) := by
    refine simplify_mapOperands node (fun operand member => ?_) fun first second one two => ?_
    · obtain ⟨less, reachable⟩ := sharing.operands operand member
      obtain ⟨there, found⟩ : ∃ there, t.nodes[operand]? = some there :=
        ⟨_, Array.getElem?_eq_getElem (Nat.lt_trans less (lt_size sharing.found))⟩
      rw [compacting.nodes operand there less reachable found, found, Option.map_some]
    · exact rank_lt_rank_iff (sharing.operands first one).2 (sharing.operands second two).2
  have kept := sharing.simplified
  rw [renamed, moved, irreducible.simplify ordered sharing.found] at kept
  exact (Option.some.inj kept).symm

theorem Compacting.next (compacting : t.Compacting n rename s) (sharing : t.Sharing n rename s node made id u)
    (irreducible : t.Irreducible) (shared : t.Shared) (ordered : t.Ordered) :
    t.Compacting (n + 1) (Function.update rename n id) u := by
  obtain rfl := sharing.eq_fresh irreducible ordered compacting
  cases sharing.placed with
  | found there =>
      obtain ⟨old, before, less, reachable, found, _, same⟩ := compacting.origin id _ there
      obtain rfl := Node.mapOperands_inj (fun one two member used =>
        rank_injective (sharing.operands one member).2 (.operand reachable found used)) same
      exact absurd (shared n old node sharing.found found) (Nat.ne_of_gt less)
  | appended new =>
      refine ⟨fun old less reachable => ?_, ?_, fun old other less reachable found => ?_, fun new other found => ?_⟩
      · rcases Nat.lt_succ_iff_lt_or_eq.mp less with before | rfl
        · rw [Function.update_of_ne (Nat.ne_of_lt before), compacting.ranks old before reachable]
        · rw [Function.update_self, compacting.size]
      · rw [rank_succ_of_reachable sharing.reachable, ← compacting.size]
        simp [push, Trace.size]
      · rcases Nat.lt_succ_iff_lt_or_eq.mp less with before | rfl
        · have there := compacting.nodes old other before reachable found
          rw [(extends_push s _).nodes _ (lt_size there), there]
        · obtain rfl := Option.some.inj (sharing.found.symm.trans found)
          rw [← compacting.size]
          exact push_nodes_size s _
      · rcases nodes_push found with ⟨_, old⟩ | ⟨rfl, rfl⟩
        · obtain ⟨first, before, earlier, rest⟩ := compacting.origin new other old
          exact ⟨first, before, Nat.lt_succ_of_lt earlier, rest⟩
        · exact ⟨n, node, Nat.lt_succ_self n, sharing.reachable, sharing.found, compacting.size, rfl⟩

/-- The second pass finds nothing to simplify and nothing to share: it drops what is not needed. -/
theorem exists_rebuild_renumbers (wellFormed : t.WellFormed) (shared : t.Shared) (irreducible : t.Irreducible) :
    ∃ u, t.rebuild = some u ∧ Renumbers t.rank t u ∧ u.Normal := by
  obtain ⟨rename, out, run, _, compacting⟩ := exists_rebuild_of_steps wellFormed (P := t.Compacting)
    (fun compacting sharing => compacting.next sharing irreducible shared wellFormed.ordered)
    (fun compacting needless => compacting.skip needless)
    ⟨by simp, by simp [blank, size, rank], by simp, by simp [blank]⟩
  obtain ⟨other, same, _, sharedOut, irreducibleOut, _⟩ := exists_rebuild_irreducible wellFormed
  obtain rfl := Option.some.inj (run.symm.trans same)
  have renumbers : Renumbers t.rank t { out with outputs := t.outputs.map rename } :=
    { increasing := fun first second one _ less => rank_lt_rank one less
      nodes := fun id node reachable found => compacting.nodes id node (lt_size found) reachable found
      outputs := List.map_congr_left fun id member =>
        compacting.ranks id (wellFormed.outputs id member) (.output member) }
  refine ⟨_, run, renumbers, ⟨fun id less => ?_, sharedOut, irreducibleOut⟩⟩
  obtain ⟨old, _, _, reachable, _, rfl, _⟩ := compacting.origin id _ (Array.getElem?_eq_getElem less)
  exact renumbers.reachable reachable

theorem rebuild_eq_self {u v : Trace α} (wellFormed : t.WellFormed) (first : t.rebuild = some u)
    (second : u.rebuild = some v) : v.rebuild = some v := by
  obtain ⟨_, same, wellFormedU, shared, irreducible, _⟩ := exists_rebuild_irreducible wellFormed
  obtain rfl := Option.some.inj (first.symm.trans same)
  obtain ⟨_, same, renumbers, _⟩ := exists_rebuild_renumbers wellFormedU shared irreducible
  obtain rfl := Option.some.inj (second.symm.trans same)
  obtain ⟨_, same, preserves⟩ := exists_rebuild (M := PUnit) wellFormedU
  obtain rfl := Option.some.inj (second.symm.trans same)
  rw [← renumbers.rebuild_eq wellFormedU preserves.wellFormed preserves.inputCount.symm preserves.weightCount.symm,
    second]

theorem optimize_of_rebuild {u v : Trace α} (wellFormed : t.WellFormed) (first : t.rebuild = some u)
    (second : u.rebuild = some v) : t.optimize = some v := by
  have last : v.shrink = some v := by
    rw [shrink, rebuild_eq_self wellFormed first second]
    simp
  have shrunk : u.shrink = some v := by
    rw [shrink, second]
    simp [last]
  simp [optimize, first, shrunk]

/-- The first pass simplifies and shares, the second one drops what is not needed any more, and further ones change
nothing. -/
theorem exists_optimize_renumbers (wellFormed : t.WellFormed) :
    ∃ u v, t.rebuild = some u ∧ u.WellFormed ∧ t.optimize = some v ∧ v.WellFormed ∧ Renumbers u.rank u v ∧ v.Normal ∧
      v.size ≤ t.rank t.size ∧ v.optimize = some v := by
  obtain ⟨u, first, wellFormedU, shared, irreducible, few⟩ := exists_rebuild_irreducible wellFormed
  obtain ⟨v, second, renumbers, normal⟩ := exists_rebuild_renumbers wellFormedU shared irreducible
  obtain ⟨_, again, wellFormedV, _, _, fewer⟩ := exists_rebuild_irreducible wellFormedU
  obtain rfl := Option.some.inj (second.symm.trans again)
  have small : v.size ≤ t.rank t.size := Nat.le_trans fewer (Nat.le_trans (u.rank_le u.size) few)
  have third := rebuild_eq_self wellFormed first second
  exact ⟨u, v, first, wellFormedU, optimize_of_rebuild wellFormed first second, wellFormedV, renumbers, normal, small,
    optimize_of_rebuild wellFormedV third third⟩

/-- Optimization brings every trace that passes the check into normal form, and a trace in this form is left as
it is. -/
theorem optimize_normal (verified : t.verify = .ok ()) :
    ∃ r, t.optimize = some r ∧ r.verify = .ok () ∧ r.inputCount = t.inputCount ∧ r.weightCount = t.weightCount ∧
      r.outputs.length = t.outputs.length ∧ r.size ≤ t.reachableIds.length ∧ r.Normal ∧
      (∀ (id : Nat) (op : BinaryOp) (lhs rhs : NodeId), r.nodes[id]? = some (.binary op lhs rhs) →
        op.isCommutative = true → lhs ≤ rhs) ∧ r.optimize = some r := by
  have wellFormed := t.verify_eq_ok_iff.mp verified
  obtain ⟨_, r, _, _, run, wellFormedR, _, normal, small, again⟩ := exists_optimize_renumbers wellFormed
  obtain ⟨_, same, preserves⟩ := exists_optimize (M := PUnit) wellFormed
  obtain rfl := Option.some.inj (run.symm.trans same)
  have outputs : r.outputs.length = t.outputs.length := by simpa using congrArg List.length preserves.outputs
  exact ⟨r, run, r.verify_eq_ok_iff.mpr wellFormedR, preserves.inputCount, preserves.weightCount, outputs,
    t.rank_size ▸ small, normal, fun _ _ _ _ found => normal.irreducible.le_of_isCommutative found, again⟩

def squaredTwice : Trace Binary64 where
  nodes := #[.input 0, .const (.ofInt 0), .binary .add 0 1, .binary .mul 2 0, .unary .sin 0, .binary .mul 0 0]
  inputCount := 1
  weightCount := 0
  outputs := [3, 5]

theorem optimize_normal_squaredTwice : squaredTwice.verify = .ok () ∧
    ∃ r, squaredTwice.optimize = some r ∧ r.outputs.length = 2 ∧ r.Normal ∧ r.optimize = some r := by
  have verified : squaredTwice.verify = .ok () := by decide +kernel
  obtain ⟨r, run, _, _, _, outputs, _, normal, _, again⟩ := optimize_normal verified
  exact ⟨verified, r, run, outputs, normal, again⟩

end

end Trace

end AutoDiff
