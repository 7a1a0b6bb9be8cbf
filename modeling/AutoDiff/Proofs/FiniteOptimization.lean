import AutoDiff.Proofs.FiniteFolding
import AutoDiff.Proofs.KernelValues

namespace AutoDiff

open ExtendedArithmetic Expression

variable {E F : Type} [Field F] [FieldArithmetic F] [ExtendedArithmetic E F] {x w : Array E}

/-- The interpretation of a node where its numbers are calculated with as their values. -/
def Trace.meaning (t : Trace E) (id : Nat) : Class F := @Trace.interpret E (Class F) (total E) _ _ t id

namespace Trace

variable {s t : Trace E}

theorem Extends.finiteAt (more : Extends s t) {id : Nat} (less : id < s.size) (finite : s.FiniteAt x w id) :
    t.FiniteAt x w id := by
  unfold FiniteAt
  rwa [more.expression less]

theorem finiteAt_outputs (t : Trace E) (outputs : List NodeId) (id : Nat) :
    ({ t with outputs } : Trace E).FiniteAt x w id ↔ t.FiniteAt x w id := by
  unfold FiniteAt
  rw [expression_congr (s := { t with outputs }) (t := t) rfl]

theorem meaning_eq (t : Trace E) (id : Nat) : t.meaning id = toClass ((t.expression id).map value) := by
  rw [meaning, interpret, @interpret_reading F _ _ E (total E) reading, expression_total]
  rfl

theorem value_eq_eval {id : Nat} {v : E} (gives : (t.expression id).Gives x w v) :
    value v = Class.eval (x.map value) (w.map value) (t.meaning id) := by
  rw [gives.value_eq, meaning_eq, Class.eval_toClass]

end Trace

namespace Node

theorem gives_congr {f g : NodeId → Expression E} (node : Node E)
    (same : ∀ operand : Nat, operand ∈ node.operands → ∀ u, (f operand).Gives x w u →
      ∃ v, (g operand).Gives x w v ∧ value u = value v)
    (finite : ∃ v, (node.unfold f).Gives x w v) : ∃ v, (node.unfold g).Gives x w v := by
  obtain ⟨v, gives⟩ := finite
  cases node with
  | input | weight | const => exact ⟨v, gives⟩
  | unary op arg =>
      cases gives with
      | unary given finite =>
          obtain ⟨u, also, equal⟩ := same arg (by simp [operands]) _ given
          exact ⟨_, .unary also (isFinite_unary op given.isFinite also.isFinite equal finite)⟩
  | binary op lhs rhs =>
      cases gives with
      | binary left right finite =>
          obtain ⟨u, first, equal⟩ := same lhs (by simp [operands]) _ left
          obtain ⟨v, second, equal'⟩ := same rhs (by simp [operands]) _ right
          exact ⟨_, .binary first second (isFinite_binary op left.isFinite right.isFinite first.isFinite
            second.isFinite equal equal' finite)⟩
  | power base exponent =>
      cases gives with
      | power given whole finite =>
          obtain ⟨u, also, equal⟩ := same base (by simp [operands]) _ given
          exact ⟨_, .power also whole (isFinite_power _ given.isFinite also.isFinite equal finite)⟩

theorem finite_operands {f : NodeId → Expression E} {node : Node E}
    (finite : ∃ v, (node.unfold f).Gives x w v) {operand : Nat} (member : operand ∈ node.operands) :
    ∃ v, (f operand).Gives x w v := by
  obtain ⟨v, gives⟩ := finite
  cases node with
  | input | weight | const => simp [operands] at member
  | unary op arg =>
      obtain rfl : operand = arg := by simpa [operands] using member
      cases gives with
      | unary given _ => exact ⟨_, given⟩
  | binary op lhs rhs =>
      have either : operand = lhs ∨ operand = rhs := by simpa [operands] using member
      cases gives with
      | binary left right _ =>
          rcases either with rfl | rfl
          · exact ⟨_, left⟩
          · exact ⟨_, right⟩
  | power base exponent =>
      obtain rfl : operand = base := by simpa [operands] using member
      cases gives with
      | power given _ _ => exact ⟨_, given⟩

end Node

/-- What a node is simplified to is calculated with finite numbers alone. -/
def Simplified.FiniteAt (t : Trace E) (x w : Array E) : Simplified E → Prop
  | existing id => t.FiniteAt x w id
  | fresh node => ∃ v, (node.unfold t.expression).Gives x w v

namespace Trace

variable {t : Trace E}

theorem FiniteAt.const (ordered : t.Ordered) {id : Nat} {c v : E} (found : t.const? id = some c)
    (gives : (t.expression id).Gives x w v) : v = c := by
  rw [expression_const ordered found] at gives
  cases gives
  rfl

theorem ordered_finite {op : BinaryOp} {lhs rhs : Nat} {u v : E} (left : (t.expression lhs).Gives x w u)
    (right : (t.expression rhs).Gives x w v) (finite : isFinite (Arithmetic.binary op u v) = true) :
    ∃ v, ((ordered op lhs rhs : Node E).unfold t.expression).Gives x w v := by
  unfold ordered
  split
  · next swapped =>
      cases op with
      | add => exact ⟨_, .binary right left (isFinite_add _ _ right.isFinite left.isFinite)⟩
      | mul => exact ⟨_, .binary right left (isFinite_mul _ _ right.isFinite left.isFinite)⟩
      | sub | div | pow => simp [BinaryOp.isCommutative] at swapped
  · exact ⟨_, .binary left right finite⟩

theorem Rewrites.finiteAt {node : Node E} {made : Simplified E} (rewrites : t.Rewrites node made)
    (ordered : t.Ordered) (finite : ∃ v, (node.unfold t.expression).Gives x w v) : made.FiniteAt t x w := by
  induction rewrites with
  | leaf | keepUnary | keepPower => exact finite
  | foldUnary op found =>
      obtain ⟨v, gives⟩ := finite
      cases gives with
      | unary given finite =>
          obtain rfl := FiniteAt.const ordered found given
          exact ⟨_, .const finite⟩
  | negNeg double =>
      have negated := Node.finite_operands finite (List.mem_singleton_self _)
      rw [expression_eq ordered double] at negated
      exact Node.finite_operands negated (List.mem_singleton_self _)
  | foldBinary op first second =>
      obtain ⟨v, gives⟩ := finite
      cases gives with
      | binary left right finite =>
          obtain rfl := FiniteAt.const ordered first left
          obtain rfl := FiniteAt.const ordered second right
          exact ⟨_, .const finite⟩
  | zeroAdd | addZero | subZero | zeroMul | mulZero | oneMul | mulOne | zeroDiv | divOne | powOne | powerOne =>
      exact Node.finite_operands finite (by simp [Node.operands])
  | zeroSub _ _ _ ih | minusMul _ _ _ ih =>
      obtain ⟨v, given⟩ := Node.finite_operands finite (List.mem_cons_of_mem _ (List.mem_singleton_self _))
      exact ih ⟨_, .unary given (isFinite_neg v given.isFinite)⟩
  | mulMinus _ _ _ ih =>
      obtain ⟨v, given⟩ := Node.finite_operands finite List.mem_cons_self
      exact ih ⟨_, .unary given (isFinite_neg v given.isFinite)⟩
  | powZero | powerZero => exact ⟨_, .const (isFinite_ofInt 1)⟩
  | keepBinary =>
      obtain ⟨v, gives⟩ := finite
      cases gives with
      | binary left right finite => exact ordered_finite left right finite
  | foldPower _ _ found =>
      obtain ⟨v, gives⟩ := finite
      cases gives with
      | power given same finite =>
          obtain rfl := Int32.toInt_inj.mp same
          obtain rfl := FiniteAt.const ordered found given
          exact ⟨_, .const finite⟩

variable {s : Trace E}

/-- Nodes that are calculated with finite numbers are simplified as in total arithmetic. -/
theorem simplify_total_of_finite (ordered : t.Ordered) {node : Node E}
    (finite : ∃ v, (node.unfold t.expression).Gives x w v) {made : Simplified E}
    (run : t.simplify node = some made) : @simplify E (total E) t node = some made := by
  refine simplify_total (fun operand member c found => ?_) run fun c folded => ?_
  · obtain ⟨u, given⟩ := Node.finite_operands finite member
    exact FiniteAt.const ordered found given ▸ given.isFinite
  · obtain ⟨v, gives⟩ := folded ▸ (rewrites_of_simplify run).finiteAt ordered finite
    cases gives
    assumption

variable [DecidableEq E]

theorem share_of_finite (ordered : s.Ordered) {node : Node E}
    (defined : ∀ operand : Nat, operand ∈ node.operands → operand < s.size)
    (finite : ∃ v, (node.unfold s.expression).Gives x w v) :
    ∃ id u, Build.share node s = some (id, u) ∧ @Build.share E (total E) _ node s = some (id, u) ∧
      u.FiniteAt x w id := by
  obtain ⟨made, simplified, isDefined⟩ := exists_simplify ordered node defined
  have also := simplify_total_of_finite ordered finite simplified
  have stays := (rewrites_of_simplify simplified).finiteAt ordered finite
  unfold Build.share
  rw [simplified, also]
  cases made with
  | existing id => exact ⟨id, s, rfl, rfl, stays⟩
  | fresh fresh =>
      cases search : s.nodes.findIdx? (· == fresh) with
      | some id =>
          obtain ⟨bound, equal, _⟩ := Array.findIdx?_eq_some_iff_getElem.mp search
          have found : s.nodes[id]? = some fresh := by
            rw [Array.getElem?_eq_getElem bound, eq_of_beq equal]
          refine ⟨id, s, by simp [search], by simp [search], ?_⟩
          unfold FiniteAt
          rwa [expression_eq ordered found]
      | none =>
          refine ⟨s.size, s.push fresh, by simp [search], by simp [search], ?_⟩
          unfold FiniteAt
          rwa [expression_push ordered isDefined.1]

/-- What is known half way through a rebuild: the live nodes so far have new nodes of the same meaning, and
those are calculated with finite numbers. -/
structure Rebuilding (t : Trace E) (live : Array Bool) (x w : Array E) (renamed : Array NodeId) (s : Trace E) :
    Prop where
  ordered : s.Ordered
  renames : @Renames E (total E) (Class F) _ _ t live renamed s
  finite : ∀ id : Nat, id < renamed.size → live[id]? = some true → s.FiniteAt x w (renamed[id]?.getD 0)

omit [DecidableEq E] in
theorem finite_push {live : Array Bool} {renamed : Array NodeId} {id : NodeId}
    (earlier : ∀ old : Nat, old < renamed.size → live[old]? = some true → t.FiniteAt x w (renamed[old]?.getD 0))
    (last : live[renamed.size]? = some true → t.FiniteAt x w id) (old : Nat) (less : old < (renamed.push id).size)
    (isLive : live[old]? = some true) : t.FiniteAt x w ((renamed.push id)[old]?.getD 0) := by
  rw [Array.size_push] at less
  rcases Nat.lt_or_ge old renamed.size with before | after
  · rw [Array.getElem?_push_lt before, ← Array.getElem?_eq_getElem before]
    exact earlier old before isLive
  · obtain rfl : old = renamed.size := by omega
    rw [Array.getElem?_push_size]
    exact last isLive

theorem Rebuilding.exists_share {live : Array Bool} {renamed : Array NodeId} (before : t.Ordered)
    (closed : ∀ (id : Nat) (node : Node E), t.nodes[id]? = some node → live[id]? = some true →
      ∀ operand : Nat, operand ∈ node.operands → live[operand]? = some true)
    (finite : ∀ id : Nat, live[id]? = some true → t.FiniteAt x w id)
    (rebuilding : t.Rebuilding live x w renamed s) {node : Node E}
    (found : t.nodes[renamed.size]? = some node) (needed : live[renamed.size]? = some true) :
    ∃ id u, Build.share (node.mapOperands fun id => renamed[id]?.getD 0) s = some (id, u) ∧
      @Build.share E (total E) _ (node.mapOperands fun id => renamed[id]?.getD 0) s = some (id, u) ∧
        u.FiniteAt x w id := by
  have operand (o : Nat) (member : o ∈ node.operands) : o < renamed.size ∧ live[o]? = some true :=
    ⟨before _ node found o member, closed _ node found needed o member⟩
  have mapped : ∃ v, ((node.mapOperands fun id => renamed[id]?.getD 0).unfold s.expression).Gives x w v := by
    rw [Node.unfold_mapOperands]
    obtain ⟨v, whole⟩ := finite _ needed
    rw [expression_eq before found] at whole
    refine Node.gives_congr node (fun o member u given => ?_) ⟨v, whole⟩
    obtain ⟨less, isLive⟩ := operand o member
    obtain ⟨v, gives⟩ := rebuilding.finite o less isLive
    have same : s.meaning (renamed[o]?.getD 0) = t.meaning o := (rebuilding.renames o less isLive).2
    exact ⟨v, gives, by rw [value_eq_eval given, value_eq_eval gives, same]⟩
  refine share_of_finite rebuilding.ordered (fun o member => ?_) mapped
  rw [operands_mapOperands, List.mem_map] at member
  obtain ⟨old, there, rfl⟩ := member
  obtain ⟨less, isLive⟩ := operand old there
  exact (rebuilding.renames old less isLive).1

theorem Rebuilding.step {live : Array Bool} {renamed : Array NodeId} (before : t.Ordered)
    (closed : ∀ (id : Nat) (node : Node E), t.nodes[id]? = some node → live[id]? = some true →
      ∀ operand : Nat, operand ∈ node.operands → live[operand]? = some true)
    (finite : ∀ id : Nat, live[id]? = some true → t.FiniteAt x w id)
    (rebuilding : t.Rebuilding live x w renamed s) {node : Node E}
    (found : t.nodes[renamed.size]? = some node) :
    ∃ next u, rebuildNode live renamed node s = some (next, u) ∧
      @rebuildNode E (total E) _ live renamed node s = some (next, u) ∧ next.size = renamed.size + 1 ∧
      t.Rebuilding live x w next u := by
  obtain ⟨next, u, run, grows, size, renames, _⟩ := @meets_rebuildNode E (Class F) (total E) _ _ _ t before live
    closed renamed s rebuilding.ordered rebuilding.renames node found
  have stays (old : Nat) (less : old < renamed.size) (isLive : live[old]? = some true) :
      u.FiniteAt x w (renamed[old]?.getD 0) :=
    grows.toExtends.finiteAt (rebuilding.renames old less isLive).1 (rebuilding.finite old less isLive)
  by_cases needed : live[renamed.size]? = some true
  · obtain ⟨id, other, shared, also, isFinite⟩ := rebuilding.exists_share before closed finite found needed
    have same := run.symm.trans (@rebuildNode_of_live E (total E) _ s live renamed node needed id other also)
    obtain ⟨rfl, rfl⟩ : next = renamed.push id ∧ u = other := by simpa using same
    exact ⟨_, _, rebuildNode_of_live node needed shared, run, size, grows.ordered rebuilding.ordered, renames,
      finite_push stays fun _ => isFinite⟩
  · have same := run.symm.trans (@rebuildNode_of_dead E (total E) _ s live renamed node needed)
    obtain ⟨rfl, rfl⟩ : next = renamed.push 0 ∧ u = s := by simpa using same
    exact ⟨_, _, rebuildNode_of_dead node needed, run, size, rebuilding.ordered, renames,
      finite_push stays fun isLive => absurd isLive needed⟩

theorem Rebuilding.run {live : Array Bool} (before : t.Ordered)
    (closed : ∀ (id : Nat) (node : Node E), t.nodes[id]? = some node → live[id]? = some true →
      ∀ operand : Nat, operand ∈ node.operands → live[operand]? = some true)
    (finite : ∀ id : Nat, live[id]? = some true → t.FiniteAt x w id) (rest : List (Node E))
    {renamed : Array NodeId} (rebuilding : t.Rebuilding live x w renamed s)
    (split : t.nodes.toList.drop renamed.size = rest) :
    ∃ final u, rest.foldlM (rebuildNode live) renamed s = some (final, u) ∧
      rest.foldlM (@rebuildNode E (total E) _ live) renamed s = some (final, u) ∧ t.size ≤ final.size ∧
      t.Rebuilding live x w final u := by
  induction rest generalizing renamed s with
  | nil => exact ⟨renamed, s, rfl, rfl, by simpa [size] using List.drop_eq_nil_iff.mp split, rebuilding⟩
  | cons node rest ih =>
      have found : t.nodes[renamed.size]? = some node := by
        have first := congrArg (·[0]?) split
        simpa [List.getElem?_drop] using first
      obtain ⟨next, u, run, also, nextSize, still⟩ := rebuilding.step before closed finite found
      have remaining : t.nodes.toList.drop next.size = rest := by
        rw [nextSize, ← List.drop_drop, split]
        rfl
      obtain ⟨final, v, runs, alsoRuns, size, last⟩ := ih still remaining
      refine ⟨final, v, ?_, ?_, size, last⟩
      · rw [List.foldlM_cons, Build.bind_apply, run]
        exact runs
      · rw [List.foldlM_cons, Build.bind_apply, also]
        exact alsoRuns

def OutputsFinite (t : Trace E) (x w : Array E) : Prop := ∀ id : Nat, id ∈ t.outputs → t.FiniteAt x w id

theorem exists_rebuild_of_finite (wellFormed : t.WellFormed) (finite : t.OutputsFinite x w) :
    ∃ u, t.rebuild = some u ∧ @rebuild E (total E) _ t = some u ∧ u.OutputsFinite x w := by
  obtain ⟨live, run, _, isLive, closed⟩ := exists_live? wellFormed
  have operands (id : Nat) (node : Node E) (found : t.nodes[id]? = some node) (whole : t.FiniteAt x w id)
      (operand : Nat) (member : operand ∈ node.operands) : t.FiniteAt x w operand := by
    unfold FiniteAt at whole
    rw [expression_eq wellFormed.ordered found] at whole
    exact Node.finite_operands whole member
  have start : t.Rebuilding live x w #[]
      ({ inputCount := t.inputCount, weightCount := t.weightCount } : Trace E) :=
    ⟨fun id node found => by simp at found, fun id less => by simp at less, fun id less => by simp at less⟩
  obtain ⟨renamed, out, folded, also, size, rebuilding⟩ := start.run wellFormed.ordered closed
    (fun id => of_live? finite operands run) t.nodes.toList rfl
  refine ⟨{ out with outputs := t.outputs.map fun id => renamed[id]?.getD 0 }, ?_, ?_, fun id member => ?_⟩
  · simp [rebuild, run, StateT.run, folded, -Array.foldlM_toList]
  · simp [rebuild, run, StateT.run, also, -Array.foldlM_toList]
  · obtain ⟨old, there, rfl⟩ := List.mem_map.mp member
    have inside := Nat.lt_of_lt_of_le (wellFormed.outputs old there) size
    exact (finiteAt_outputs out _ _).mpr (rebuilding.finite old inside (isLive old there))

theorem exists_shrink_of_finite (wellFormed : t.WellFormed) (finite : t.OutputsFinite x w) :
    ∃ u, t.shrink = some u ∧ @shrink E (total E) _ t = some u ∧ u.OutputsFinite x w := by
  induction bound : t.size using Nat.strongRecOn generalizing t with
  | ind size ih =>
      obtain ⟨next, run, also, stays⟩ := exists_rebuild_of_finite wellFormed finite
      obtain ⟨other, same, preserves⟩ := exists_rebuild (M := PUnit) wellFormed
      obtain rfl : next = other := Option.some.inj (run.symm.trans same)
      unfold shrink
      rw [run, also]
      by_cases smaller : next.size < t.size
      · simpa only [smaller, if_true] using ih next.size (bound ▸ smaller) preserves.wellFormed stays rfl
      · simpa only [smaller, if_false] using ⟨next, rfl, rfl, stays⟩

/-- A trace whose outputs are calculated with finite numbers is optimized as in total arithmetic, to such a
trace. -/
theorem exists_optimize_of_finite (wellFormed : t.WellFormed) (finite : t.OutputsFinite x w) :
    ∃ u, t.optimize = some u ∧ @optimize E (total E) _ t = some u ∧ u.OutputsFinite x w := by
  obtain ⟨next, run, also, stays⟩ := exists_rebuild_of_finite wellFormed finite
  obtain ⟨other, same, preserves⟩ := exists_rebuild (M := PUnit) wellFormed
  obtain rfl : next = other := Option.some.inj (run.symm.trans same)
  obtain ⟨u, last, alsoLast, final⟩ := exists_shrink_of_finite preserves.wellFormed stays
  exact ⟨u, by simp [optimize, run, last], by simp [optimize, also, alsoLast], final⟩

end Trace

end AutoDiff
