import AutoDiff.Proofs.Values
import AutoDiff.Proofs.WeightedSums

/-!
Structural zeros. The derivative of an output with respect to an input that it is not calculated from is no expression
that happens to be zero but the constant itself, and so is the second derivative with respect to two inputs that no
output has in common. These constants stay constants in the optimized traces.
-/

namespace AutoDiff

open Build AutoDiff.Differential AutoDiff.Gradient

namespace Trace

section

variable {α : Type} [Arithmetic α] {s t : Trace α}

/-- The node in a slot of a list is the constant zero. -/
def HoldsZero (t : Trace α) (ids : List NodeId) (slot : Nat) : Prop :=
  ∃ id : Nat, ids[slot]? = some id ∧ t.nodes[id]? = some (.const (Arithmetic.ofInt 0))

theorem HoldsZero.extend {ids : List NodeId} {slot : Nat} (holds : s.HoldsZero ids slot) (more : Extends s t) :
    t.HoldsZero ids slot := by
  obtain ⟨id, found, zero⟩ := holds
  exact ⟨id, found, (more.nodes id (lt_size zero)).trans zero⟩

section

variable {u : Trace α} {lowest : Int} {count : Nat} (above : (exponents α PUnit).least < lowest)
include above

theorem gradients_cons (atMost : count ≤ s.size) (powers : s.PowersFrom lowest count) (consistent : s.Consistent)
    {output : NodeId} (bound : output < count) {outputs : List NodeId} {rows : List (List NodeId)}
    (run : (output :: outputs).mapM gradient s = some (rows, u)) :
    ∃ ids t others, gradient output s = some (ids, t) ∧ outputs.mapM gradient t = some (others, u) ∧
      rows = ids :: others ∧ ids.length = s.inputCount ∧ s.Grows (Derived (lowest - 1)) t := by
  rw [List.mapM_cons] at run
  obtain ⟨ids, t, first, run⟩ := bind_eq_some_iff.mp run
  obtain ⟨others, v, second, last⟩ := bind_eq_some_iff.mp run
  cases last
  obtain ⟨_, _, same, grows, denotes⟩ := meets_gradient (M := PUnit) above (lt_listLimit_of_gradient first) atMost powers
    consistent bound
  cases first.symm.trans same
  exact ⟨ids, t, others, first, second, rfl, by simpa using denotes.length_eq, grows⟩

theorem zeros_of_gradients (atMost : count ≤ s.size) (powers : s.PowersFrom lowest count) (consistent : s.Consistent)
    {outputs : List NodeId} (bound : ∀ output : Nat, output ∈ outputs → output < count) {rows : List (List NodeId)}
    (run : outputs.mapM gradient s = some (rows, u)) {i j : Nat} {output : NodeId} (row : outputs[i]? = some output)
    (column : j < s.inputCount) (independent : ¬s.DependsOn output j) :
    u.HoldsZero rows.flatten (i * s.inputCount + j) := by
  have early := bound output (List.mem_of_getElem? row)
  induction outputs generalizing s rows i with
  | nil => simp at row
  | cons head tail ih =>
      obtain ⟨ids, t, others, first, second, rfl, length, grows⟩ :=
        gradients_cons above atMost powers consistent (bound head (by simp)) run
      have boundTail (other : Nat) (member : other ∈ tail) : other < count := bound other (by simp [member])
      have still := Nat.le_trans atMost grows.size_le
      have kept := powers.extend grows.toExtends atMost
      have next := grows.derived_consistent consistent
      rw [List.flatten_cons]
      cases i with
      | zero =>
          obtain rfl : head = output := by simpa using row
          obtain ⟨id, slot, _, zero⟩ := slot_of_gradient (K := fun _ => True) above atMost powers consistent.ordered early
            (fun _ _ _ found _ => .inl ⟨lt_size found, fun _ _ => trivial⟩) first column
          obtain ⟨_, _, same, more, _⟩ := meets_gradients (M := PUnit) above
            (grows.inputCount ▸ lt_listLimit_of_gradient first) still kept next tail boundTail
          cases second.symm.trans same
          have holds : t.HoldsZero ids j := ⟨id, slot, zero independent⟩
          obtain ⟨id, slot, zero⟩ := holds.extend more.toExtends
          refine ⟨id, ?_, zero⟩
          rw [Nat.zero_mul, Nat.zero_add, List.getElem?_append_left (length ▸ column)]
          exact slot
      | succ i =>
          have unread : ¬t.DependsOn output j := by
            rwa [grows.toExtends.dependsOn_iff consistent.ordered next.ordered (Nat.lt_of_lt_of_le early atMost)]
          obtain ⟨id, slot, zero⟩ := ih still kept next boundTail second (by simpa using row)
            (grows.inputCount ▸ column) unread
          refine ⟨id, ?_, zero⟩
          have place : (i + 1) * s.inputCount + j = ids.length + (i * t.inputCount + j) := by
            rw [length, grows.inputCount, Nat.succ_mul]
            omega
          rw [place, List.getElem?_append_right (Nat.le_add_right _ _), Nat.add_sub_cancel_left]
          exact slot

end

variable {u : Trace α} {lowest : Int}

theorem zeros_of_jacobian (wellFormed : t.WellFormed) (above : (exponents α PUnit).least < lowest)
    (powers : t.PowersFrom lowest t.size) (made : t.jacobian = some u) {i j : Nat} {output : NodeId}
    (row : t.outputs[i]? = some output) (column : j < t.inputCount) (independent : ¬t.DependsOn output j) :
    u.HoldsZero u.outputs (i * t.inputCount + j) := by
  obtain ⟨_, rows, v, run, rfl⟩ := jacobian_eq_some_iff.mp made
  exact zeros_of_gradients above (Nat.le_refl _) powers wellFormed.toConsistent wellFormed.outputs run row column
    independent

/-- The first derivative with respect to an input depends on no inputs but those linked to it, and so all other entries
of its row are the constant zero. -/
theorem zeros_of_hessian (wellFormed : t.WellFormed) (weightless : t.weightCount = 0)
    (above : (exponents α PUnit).least + 1 < lowest) (powers : t.PowersFrom lowest t.size)
    (made : t.hessian = some u) {i j : Nat} (row : i < t.inputCount) (column : j < t.inputCount)
    (unlinked : ¬t.Linked i j) : u.HoldsZero u.outputs (i * t.inputCount + j) := by
  obtain ⟨sum, one, summed, added, consistent, lower, isSum⟩ := exists_weighted (M := PUnit) wellFormed weightless powers
  obtain ⟨_, _, _, first, two, rows, v, same, once, twice, rfl⟩ := hessian_eq_some_iff.mp made
  cases summed.symm.trans same
  obtain ⟨s, isStart⟩ : ∃ s : Trace α, s = { t with weightCount := t.outputs.length } := ⟨_, rfl⟩
  have nodes : s.nodes = t.nodes := by rw [isStart]
  have outputs : s.outputs = t.outputs := by rw [isStart]
  rw [← isStart, ← outputs] at summed
  have either (id : Nat) (node : Node α) (reachable : (one.cone sum).Reachable id) (found : one.nodes[id]? = some node)
      (depends : one.DependsOn id i) : one.ReadsOnly (s.Linked i) id ∨ node.Linear one.Free := by
    apply readsOnly_or_linear _ _ summed reachable found depends
    · rw [isStart]
      exact wellFormed.ordered
    · rw [isStart]
      exact wellFormed.outputs
  obtain ⟨_, _, same, grows, denotes⟩ := meets_gradient (M := PUnit) (by omega) (lt_listLimit_of_gradient once)
    (Nat.le_refl _) lower consistent isSum.1
  cases once.symm.trans same
  have inputs : two.inputCount = t.inputCount := grows.inputCount.trans added.inputCount
  obtain ⟨id, slot, reads, _⟩ := slot_of_gradient (by omega) (Nat.le_refl _) lower consistent.ordered isSum.1 either once
    (added.inputCount ▸ row)
  have independent : ¬two.DependsOn id j := by
    intro depends
    exact unlinked ((reads.inputs j depends).congr nodes outputs)
  have zeros := zeros_of_gradients (by omega) (Nat.le_refl _) (grows.powersFrom (lower.mono (by omega)) two.size)
    (grows.derived_consistent consistent) (denotes_outputs denotes).1 twice slot (inputs ▸ column) independent
  rwa [inputs] at zeros

end

section

variable {α : Type} [Arithmetic α] {u : Trace α}

/-- A slot of the outputs that holds the constant zero, and evaluates to it whatever the values of all other nodes. -/
structure Vanishes (u : Trace α) (slot : Nat) : Prop where
  node : u.HoldsZero u.outputs slot
  value : ∀ x w : Array α, x.size = u.inputCount → w.size = u.weightCount →
    ∃ entries, u.evaluate x w = some (.ok entries) ∧ entries[slot]? = some (Arithmetic.ofInt 0)

theorem HoldsZero.vanishes {slot : Nat} (holds : u.HoldsZero u.outputs slot) (wellFormed : u.WellFormed) :
    u.Vanishes slot where
  node := holds
  value x w inputs weights := by
    obtain ⟨id, output, zero⟩ := holds
    obtain ⟨values, final, run, valued, picked⟩ := exists_evaluate wellFormed inputs weights
    refine ⟨final, run, ?_⟩
    rw [picked.2 slot id output, valued.2 id _ zero]
    rfl

theorem expression_eq_const_iff {id : NodeId} (inside : id < u.size) (c : α) :
    u.expression id = .const c ↔ u.nodes[id]? = some (.const c) := by
  rw [expression, Array.getElem?_eq_getElem inside]
  cases u.nodes[id] <;> simp [Node.unfold]

variable [DecidableEq α]

theorem exists_optimize_zeros (wellFormed : u.WellFormed) :
    ∃ r, u.optimize = some r ∧ r.WellFormed ∧ ∀ slot, u.HoldsZero u.outputs slot → r.HoldsZero r.outputs slot := by
  obtain ⟨rename, out, r, holds, run, wellFormedR, outputs⟩ := exists_optimize_of_each (t := u)
    (Q := fun old new s => ∀ c, u.nodes[old]? = some (.const c) → s.nodes[new]? = some (.const c)) wellFormed
    (fun more inside constant c found => (more.nodes _ inside).trans (constant c found))
    (fun sharing _ _ c found => by
      obtain rfl := Option.some.inj (found.symm.trans sharing.found)
      obtain rfl := Option.some.inj (Eq.symm sharing.simplified)
      cases sharing.placed with
      | found there => exact there
      | appended => exact push_nodes_size _ _)
  refine ⟨r, run, wellFormedR, ?_⟩
  rintro slot ⟨id, output, zero⟩
  have constant := holds id (.output (List.mem_of_getElem? output)) _ zero
  have same := congrArg (·[slot]?) outputs
  simp only [List.getElem?_map, output, Option.map_some] at same
  obtain ⟨new, found, equal⟩ := Option.map_eq_some_iff.mp same
  rw [(expression_eq_const_iff (lt_size constant) _).mpr constant] at equal
  have inside := wellFormedR.outputs new (List.mem_of_getElem? found)
  exact ⟨new, found, (expression_eq_const_iff inside _).mp equal⟩

theorem exists_optimize_vanishes (wellFormed : u.WellFormed) :
    ∃ r, u.optimize = some r ∧ ∀ slot, u.HoldsZero u.outputs slot → u.Vanishes slot ∧ r.Vanishes slot := by
  obtain ⟨r, run, wellFormedR, still⟩ := exists_optimize_zeros wellFormed
  refine ⟨r, run, ?_⟩
  intro slot zero
  exact ⟨zero.vanishes wellFormed, (still slot zero).vanishes wellFormedR⟩

/-- Jacobians and Hessians are made unless their lists are too long. In the first the slots of outputs and inputs that
they do not depend on vanish, and in the second those of two inputs that no output depends on at the same time. -/
theorem independent_slots_vanish {t : Trace α} (verified : t.verify = .ok ()) (weightless : t.weightCount = 0)
    (exponents : ∀ (id base : Nat) (exponent : Int32), t.nodes[id]? = some (.power base exponent : Node α) →
      Int32.minValue.toInt + 2 ≤ exponent.toInt) :
    ((∃ u, t.jacobian = some u) ↔ t.outputs.length * t.inputCount < listLimit) ∧
      ((∃ u, t.hessian = some u) ↔ t.inputCount * t.inputCount < listLimit) ∧
      (∀ u, t.jacobian = some u → ∃ r, u.optimize = some r ∧ ∀ i j output : Nat, t.outputs[i]? = some output →
        j < t.inputCount → ¬t.DependsOn output j →
          u.Vanishes (i * t.inputCount + j) ∧ r.Vanishes (i * t.inputCount + j)) ∧
      ∀ u, t.hessian = some u → ∃ r, u.optimize = some r ∧ ∀ j l : Nat, j < t.inputCount → l < t.inputCount →
        (∀ output : Nat, output ∈ t.outputs → ¬(t.DependsOn output j ∧ t.DependsOn output l)) →
          u.Vanishes (j * t.inputCount + l) ∧ r.Vanishes (j * t.inputCount + l) := by
  have wellFormed := t.verify_eq_ok_iff.mp verified
  have powers : t.PowersFrom (Int32.minValue.toInt + 2) t.size :=
    fun id base exponent _ found => exponents id base exponent found
  have above : (Differential.exponents α PUnit).least + 1 < Int32.minValue.toInt + 2 :=
    Int.add_lt_add_left (by decide) Int32.minValue.toInt
  have lower : (Differential.exponents α PUnit).least < Int32.minValue.toInt + 2 := by omega
  have room := exists_jacobian_iff wellFormed lower powers
  refine ⟨room, exists_hessian_iff wellFormed weightless above powers, ?_, ?_⟩
  · intro u made
    have wellFormedU : u.WellFormed := by
      obtain ⟨_, same, wellFormedU, _⟩ := exists_jacobian (M := PUnit) wellFormed (room.mp ⟨u, made⟩) lower powers
      cases made.symm.trans same
      exact wellFormedU
    obtain ⟨r, run, vanish⟩ := exists_optimize_vanishes wellFormedU
    refine ⟨r, run, ?_⟩
    intro i j output row column independent
    exact vanish _ (zeros_of_jacobian wellFormed lower powers made row column independent)
  · intro u made
    obtain ⟨_, same, wellFormedU, _⟩ := exists_hessian (M := PUnit) wellFormed weightless
      (hessian_eq_some_iff.mp made).1 above powers
    cases made.symm.trans same
    obtain ⟨r, run, vanish⟩ := exists_optimize_vanishes wellFormedU
    refine ⟨r, run, ?_⟩
    intro j l row column independent
    apply vanish
    apply zeros_of_hessian wellFormed weightless above powers made row column
    rintro ⟨output, member, both⟩
    exact independent output member both

end

def quotientAndCube : Trace Binary64 where
  nodes := #[.input 0, .input 1, .input 2, .binary .div 0 1, .binary .mul 3 3, .power 2 3]
  inputCount := 3
  weightCount := 0
  outputs := [4, 5]

theorem independent_slots_vanish_quotientAndCube : quotientAndCube.verify = .ok () ∧
    (∃ u r, quotientAndCube.jacobian = some u ∧ u.optimize = some r ∧ u.Vanishes 3 ∧ r.Vanishes 3) ∧
    ∃ u r, quotientAndCube.hessian = some u ∧ u.optimize = some r ∧ u.Vanishes 2 ∧ r.Vanishes 2 ∧
      ∃ entries, u.evaluate #[.infinity, ⟨0⟩, .nan] #[.nan, .infinity] = some (.ok entries) ∧ entries[2]? = some ⟨0⟩ := by
  have verified : quotientAndCube.verify = .ok () := by decide +kernel
  have leaf : ∀ id : Nat, id < 3 → quotientAndCube.nodes[id]? = some (.input id) := by decide +kernel
  have quotient : quotientAndCube.nodes[3]? = some (.binary .div 0 1) := rfl
  have squared : quotientAndCube.nodes[4]? = some (.binary .mul 3 3) := rfl
  have cubed : quotientAndCube.nodes[5]? = some (.power 2 3) := rfl
  have cube : ¬quotientAndCube.DependsOn 5 0 := by
    rw [dependsOn_iff cubed]
    simp [Node.operands, dependsOn_iff (leaf 2 (by decide))]
  have square : ¬quotientAndCube.DependsOn 4 2 := by
    rw [dependsOn_iff squared]
    simp [Node.operands, dependsOn_iff quotient, dependsOn_iff (leaf 0 (by decide)), dependsOn_iff (leaf 1 (by decide))]
  obtain ⟨jacobian, hessian, first, second⟩ := independent_slots_vanish verified rfl (exponents_of_all (by decide +kernel))
  obtain ⟨u, made⟩ := jacobian.mpr (by decide)
  obtain ⟨v, again⟩ := hessian.mpr (by decide)
  obtain ⟨r, optimized, rows⟩ := first u made
  obtain ⟨q, shrunk, entries⟩ := second v again
  have row := rows 1 0 5 rfl (by decide) cube
  have entry := entries 0 2 (by decide) (by decide) (by
    intro output member
    rcases List.mem_pair.mp member with rfl | rfl
    · exact fun both => square both.2
    · exact fun both => cube both.1)
  have sizes : (quotientAndCube.hessian.map fun v => (v.inputCount, v.weightCount)) = some (3, 2) := by decide +kernel
  rw [again, Option.map_some, Option.some.injEq, Prod.mk.injEq] at sizes
  exact ⟨verified, ⟨u, r, made, optimized, row⟩, v, q, again, shrunk, entry.1, entry.2,
    entry.1.value _ _ sizes.1.symm sizes.2.symm⟩

end Trace

end AutoDiff
