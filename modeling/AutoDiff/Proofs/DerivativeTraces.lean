import AutoDiff.Proofs.Differentiation
import Mathlib.Algebra.BigOperators.Group.List.Basic

namespace AutoDiff

open AutoDiff.Differential AutoDiff.Gradient

variable {α M : Type} [Arithmetic α] [CommRing M] [Differential α M]

namespace Differential

theorem deriv_zero (j : Nat) : deriv α j (0 : M) = 0 := by
  have rule := deriv_const (α := α) (M := M) j (Arithmetic.ofInt 0)
  rwa [Interpretation.const_ofInt, Int.cast_zero] at rule

theorem deriv_weight_mul (j k : Nat) (x : M) :
    deriv α j (Interpretation.weight α k * x) = Interpretation.weight α k * deriv α j x := by
  rw [deriv_mul, deriv_weight, zero_mul, zero_add]

end Differential

def weighted (α : Type) {M : Type} [Arithmetic α] [CommRing M] [Interpretation α M] (xs : List M) : M :=
  (xs.zipIdx.map fun (x, k) => Interpretation.weight α k * x).sum

theorem deriv_weighted (j : Nat) (xs : List M) :
    deriv α j (weighted α xs) = weighted α (xs.map (deriv α j)) := by
  unfold weighted
  rw [List.zipIdx_map, List.map_map]
  induction xs.zipIdx with
  | nil => exact deriv_zero j
  | cons head tail ih =>
      rw [List.map_cons, List.sum_cons, Differential.deriv_add, ih, deriv_weight_mul]
      simp

namespace Trace

def Weighting (count : Nat) (node : Node α) : Prop :=
  node.IsPlain ∨ ∃ k, k < count ∧ node = .weight k

theorem denotes_outputs {t : Trace α} {ids : List Nat} {xs : List M} (all : List.Forall₂ t.Denotes ids xs) :
    (∀ id : Nat, id ∈ ids → id < t.size) ∧ ids.map (t.interpret M) = xs := by
  induction all with
  | nil => exact ⟨by simp, rfl⟩
  | cons first _ ih =>
      refine ⟨fun id member => ?_, by rw [List.map_cons, first.2, ih.2]⟩
      rcases List.mem_cons.mp member with rfl | later
      · exact first.1
      · exact ih.1 id later

theorem Consistent.of_denotes {t : Trace α} (consistent : t.Consistent) {ids : List Nat} {xs : List M}
    (all : List.Forall₂ t.Denotes ids xs) :
    ({ t with outputs := ids } : Trace α).WellFormed ∧
      ids.map (({ t with outputs := ids } : Trace α).interpret M) = xs := by
  obtain ⟨bound, same⟩ := denotes_outputs all
  rw [interpret_outputs]
  exact ⟨consistent.wellFormed bound, same⟩

def addTerm (sum : NodeId) (term : NodeId × Nat) : Build α NodeId := do
  let weight ← Build.push (.weight term.2)
  Build.add sum (← Build.mul weight term.1)

theorem weightedSum_eq (outputs : List NodeId) : (weightedSum outputs : Build α NodeId) =
    Build.constant (Arithmetic.ofInt 0) >>= fun start => outputs.zipIdx.foldlM addTerm start := rfl

theorem meets_addTerm {s : Trace α} (ordered : s.Ordered) {count : Nat} {term : Nat × Nat} (inside : term.1 < s.size)
    (bound : term.2 < count) {sum : Nat} {x : M} (given : s.Denotes sum x) :
    Build.Meets (Weighting count) (addTerm sum term) s fun id t =>
      t.Denotes id (x + Interpretation.weight α term.2 * s.interpret M term.1) := by
  have plain : ∀ node : Node α, node.IsPlain → Weighting count node := fun _ => .inl
  refine (Build.meets_push (M := M) ordered (.weight term.2) (by simp [Node.operands])
    (.inr ⟨term.2, bound, rfl⟩)).bind fun weight t grows isWeight => ?_
  refine (Build.meets_mul (grows.ordered ordered) plain isWeight
    ((denotes_interpret inside).extend grows.toExtends)).bind fun product u more isProduct => ?_
  have both := grows.trans more
  exact Build.meets_add (both.ordered ordered) plain (given.extend both.toExtends) isProduct

theorem meets_terms {s : Trace α} (ordered : s.Ordered) {count : Nat} (terms : List (Nat × Nat))
    (bound : ∀ term ∈ terms, term.1 < s.size ∧ term.2 < count) {sum : Nat} {x : M} (given : s.Denotes sum x) :
    Build.Meets (Weighting count) (terms.foldlM addTerm sum) s fun id t =>
      t.Denotes id (x + (terms.map fun term =>
        Interpretation.weight α term.2 * s.interpret M term.1).sum) := by
  induction terms generalizing s sum x with
  | nil => exact .pure (by simpa using given)
  | cons term terms ih =>
      have first := bound term (by simp)
      rw [List.foldlM_cons]
      refine (meets_addTerm ordered first.1 first.2 given).bind fun next t grows isNext => ?_
      refine (ih (grows.ordered ordered) (fun other member => ?_) isNext).mono fun id u _ denotes => ?_
      · exact ⟨Nat.lt_of_lt_of_le (bound other (by simp [member])).1 grows.size_le,
          (bound other (by simp [member])).2⟩
      · have same : (terms.map fun term => Interpretation.weight α term.2 * t.interpret M term.1) =
            terms.map fun term => Interpretation.weight α term.2 * s.interpret M term.1 := by
          refine List.map_congr_left fun other member => ?_
          rw [grows.interpret (bound other (by simp [member])).1]
        rw [same] at denotes
        rw [List.map_cons, List.sum_cons, ← add_assoc]
        exact denotes

theorem meets_weightedSum {s : Trace α} (ordered : s.Ordered) (outputs : List Nat)
    (bound : ∀ output : Nat, output ∈ outputs → output < s.size) :
    Build.Meets (Weighting outputs.length) (weightedSum outputs) s fun id t =>
      t.Denotes id (weighted α (outputs.map (s.interpret M))) := by
  have plain : ∀ node : Node α, node.IsPlain → Weighting outputs.length node := fun _ => .inl
  rw [weightedSum_eq]
  refine (Build.meets_constant (M := M) ordered plain 0).bind fun start t grows isZero => ?_
  have terms : ∀ term ∈ outputs.zipIdx, term.1 < t.size ∧ term.2 < outputs.length := by
    intro term member
    refine ⟨Nat.lt_of_lt_of_le (bound _ (List.fst_mem_of_mem_zipIdx member)) grows.size_le, ?_⟩
    simpa using List.snd_lt_of_mem_zipIdx member
  refine (meets_terms (grows.ordered ordered) outputs.zipIdx terms isZero).mono fun id u _ denotes => ?_
  have same : (outputs.zipIdx.map fun term => Interpretation.weight α term.2 * t.interpret M term.1).sum =
      weighted α (outputs.map (s.interpret M)) := by
    rw [weighted, List.zipIdx_map, List.map_map]
    refine congrArg List.sum (List.map_congr_left fun ⟨output, index⟩ member => ?_)
    have inside : output < s.size := bound _ (List.fst_mem_of_mem_zipIdx member)
    simp [grows.interpret inside]
  rwa [Int.cast_zero, zero_add, same] at denotes

section

variable {α : Type} {t u : Trace α}

theorem lt_listLimit_of_rows (room : t.outputs.length * t.inputCount < listLimit) (outputs : t.outputs ≠ []) :
    t.inputCount < listLimit :=
  Nat.lt_of_le_of_lt (Nat.le_mul_of_pos_left _ (List.length_pos_iff_ne_nil.mpr outputs)) room

theorem lt_listLimit_of_square (room : t.inputCount * t.inputCount < listLimit) : t.inputCount < listLimit :=
  Nat.lt_of_le_of_lt (Nat.le_mul_self _) room

variable [Arithmetic α]

theorem jacobian_eq_some_iff : t.jacobian = some u ↔ t.outputs.length * t.inputCount < listLimit ∧
    ∃ rows v, t.outputs.mapM gradient t = some (rows, v) ∧ u = { v with outputs := rows.flatten } := by
  by_cases room : t.outputs.length * t.inputCount < listLimit
  · simp only [jacobian, guard, room, if_true, Option.bind_eq_bind, Option.pure_def, Option.bind_some,
      Option.bind_eq_some_iff, StateT.run, Option.some.injEq, Prod.exists, true_and]
    constructor
    · rintro ⟨rows, v, run, rfl⟩
      exact ⟨rows, v, run, rfl⟩
    · rintro ⟨rows, v, run, rfl⟩
      exact ⟨rows, v, run, rfl⟩
  · simp [jacobian, guard, room]

theorem hessian_eq_some_iff : t.hessian = some u ↔ t.inputCount * t.inputCount < listLimit ∧
    ∃ sum one first two rows v, weightedSum t.outputs { t with weightCount := t.outputs.length } = some (sum, one) ∧
      gradient sum one = some (first, two) ∧ first.mapM gradient two = some (rows, v) ∧
      u = { v with outputs := rows.flatten } := by
  by_cases room : t.inputCount * t.inputCount < listLimit
  · simp only [hessian, guard, room, if_true, Option.bind_eq_bind, Option.pure_def, Option.bind_some,
      Option.bind_eq_some_iff, StateT.run, Option.some.injEq, Prod.exists, true_and, Build.bind_eq_some_iff]
    constructor
    · rintro ⟨rows, v, ⟨sum, one, summed, first, two, once, twice⟩, rfl⟩
      exact ⟨sum, one, first, two, rows, v, summed, once, twice, rfl⟩
    · rintro ⟨sum, one, first, two, rows, v, summed, once, twice, rfl⟩
      exact ⟨rows, v, ⟨sum, one, summed, first, two, once, twice⟩, rfl⟩
  · simp [hessian, guard, room]

theorem jacobian_nil (empty : t.outputs = []) : t.jacobian = some { t with outputs := [] } := by
  rw [jacobian_eq_some_iff, empty]
  refine ⟨?_, [], t, rfl, rfl⟩
  rw [List.length_nil, Nat.zero_mul]
  decide

end

variable {t : Trace α} {lowest : Int}

theorem PowersFrom.mono {α : Type} {t : Trace α} {lowest lower : Int} {count : Nat}
    (powers : t.PowersFrom lowest count) (less : lower ≤ lowest) : t.PowersFrom lower count :=
  fun id base exponent inside found => Int.le_trans less (powers id base exponent inside found)

theorem exists_jacobian (wellFormed : t.WellFormed) (room : t.outputs.length * t.inputCount < listLimit)
    (above : (exponents α M).least < lowest) (powers : t.PowersFrom lowest t.size) :
    ∃ u, t.jacobian = some u ∧ u.WellFormed ∧ u.inputCount = t.inputCount ∧
      u.weightCount = t.weightCount ∧
      u.outputs.map (u.interpret M) = (t.outputs.map (t.interpret M)).flatMap fun y =>
        (List.range t.inputCount).map fun j => deriv α j y := by
  by_cases empty : t.outputs = []
  · exact ⟨_, jacobian_nil empty, wellFormed.toConsistent.wellFormed (by simp), rfl, rfl, by simp [empty]⟩
  obtain ⟨rows, u, run, grows, denotes⟩ := meets_gradients (M := M) above (lt_listLimit_of_rows room empty)
    (Nat.le_refl _) powers wellFormed.toConsistent t.outputs wellFormed.outputs
  obtain ⟨well, same⟩ := (grows.derived_consistent wellFormed.toConsistent).of_denotes denotes
  refine ⟨{ u with outputs := rows.flatten }, jacobian_eq_some_iff.mpr ⟨room, rows, u, run, rfl⟩, well,
    grows.inputCount, grows.weightCount, ?_⟩
  rw [same, List.flatMap_map]

/-- The first stage of a Hessian: the weighted sum is appended to the trace, which gets the weights. -/
theorem exists_weighted (wellFormed : t.WellFormed) (weightless : t.weightCount = 0)
    (powers : t.PowersFrom lowest t.size) :
    ∃ sum one, weightedSum t.outputs { t with weightCount := t.outputs.length } = some (sum, one) ∧
      Grows (Weighting t.outputs.length) { t with weightCount := t.outputs.length } one ∧ one.Consistent ∧
      one.PowersFrom lowest one.size ∧ one.Denotes sum (weighted α (t.outputs.map (t.interpret M))) := by
  obtain ⟨s, isStart⟩ : ∃ s : Trace α, s = { t with weightCount := t.outputs.length } := ⟨_, rfl⟩
  have nodes : s.nodes = t.nodes := by rw [isStart]
  have start : s.Consistent := by
    refine ⟨by rw [isStart]; exact wellFormed.ordered, by rw [isStart]; exact wellFormed.inputs,
      fun id index found => ?_, by rw [isStart]; exact wellFormed.distinct⟩
    have none := wellFormed.weights id index (nodes ▸ found)
    omega
  obtain ⟨sum, one, summed, added, isSum⟩ := meets_weightedSum (M := M) start.ordered t.outputs
    (by rw [isStart]; exact wellFormed.outputs)
  have again : s.interpret M = t.interpret M := funext (interpret_congr nodes)
  rw [again] at isSum
  rw [← isStart]
  refine ⟨sum, one, summed, added, ?_, ?_, isSum⟩
  · refine added.consistent start (fun index => ?_) fun index allowed => ?_
    · simp [Weighting, Node.IsPlain]
    · rw [isStart]
      simpa [Weighting, Node.IsPlain] using allowed
  · intro id base exponent _ found
    rcases Nat.lt_or_ge id s.size with less | more
    · have old := added.nodes id less ▸ found
      exact powers id base exponent (lt_size (nodes ▸ old)) (nodes ▸ old)
    · rcases added.added id _ more found with plain | ⟨_, _, same⟩
      · exact plain.elim
      · cases same

/-- The outputs of the Hessian are the second derivatives of the weighted sum of the outputs. The first
derivative is that with respect to the input that counts the rows. -/
theorem exists_hessian (wellFormed : t.WellFormed) (weightless : t.weightCount = 0)
    (room : t.inputCount * t.inputCount < listLimit) (above : (exponents α M).least + 1 < lowest)
    (powers : t.PowersFrom lowest t.size) :
    ∃ u, t.hessian = some u ∧ u.WellFormed ∧ u.inputCount = t.inputCount ∧
      u.weightCount = t.outputs.length ∧
      u.outputs.map (u.interpret M) = (List.range t.inputCount).flatMap fun i =>
        (List.range t.inputCount).map fun j =>
          weighted α ((t.outputs.map (t.interpret M)).map fun y => deriv α j (deriv α i y)) := by
  have few := lt_listLimit_of_square room
  obtain ⟨sum, one, summed, added, middle, lower, isSum⟩ := exists_weighted (M := M) wellFormed weightless powers
  obtain ⟨first, two, once, grown, isFirst⟩ := meets_gradient (M := M) (by omega)
    (by rw [added.inputCount]; exact few) (Nat.le_refl _) lower middle isSum.1
  obtain ⟨inside, firstSame⟩ := denotes_outputs isFirst
  have lowerStill : two.PowersFrom (lowest - 1) two.size :=
    grown.powersFrom (lower.mono (by omega)) two.size
  have inputs : two.inputCount = t.inputCount := grown.inputCount.trans added.inputCount
  obtain ⟨rows, u, twice, grows, isRows⟩ := meets_gradients (M := M) (by omega)
    (by rw [inputs]; exact few) (Nat.le_refl _) lowerStill (grown.derived_consistent middle) first inside
  obtain ⟨well, same⟩ := (grows.derived_consistent (grown.derived_consistent middle)).of_denotes isRows
  refine ⟨{ u with outputs := rows.flatten }, ?_, well, ?_, ?_, ?_⟩
  · exact hessian_eq_some_iff.mpr ⟨room, sum, one, first, two, rows, u, summed, once, twice, rfl⟩
  · exact grows.inputCount.trans inputs
  · exact grows.weightCount.trans (grown.weightCount.trans added.weightCount)
  · rw [same, inputs,
      ← List.flatMap_map (two.interpret M) fun y => (List.range t.inputCount).map fun j => deriv α j y,
      firstSame, List.flatMap_map, added.inputCount]
    simp only [isSum.2, deriv_weighted, List.map_map]
    rfl

section

variable {α : Type} [Arithmetic α] {t : Trace α} {lowest : Int} (wellFormed : t.WellFormed)
include wellFormed

theorem exists_jacobian_iff (above : (exponents α PUnit).least < lowest) (powers : t.PowersFrom lowest t.size) :
    (∃ u, t.jacobian = some u) ↔ t.outputs.length * t.inputCount < listLimit := by
  constructor
  · rintro ⟨u, made⟩
    exact (jacobian_eq_some_iff.mp made).1
  · intro room
    obtain ⟨u, made, _⟩ := exists_jacobian (M := PUnit) wellFormed room above powers
    exact ⟨u, made⟩

theorem exists_hessian_iff (weightless : t.weightCount = 0) (above : (exponents α PUnit).least + 1 < lowest)
    (powers : t.PowersFrom lowest t.size) :
    (∃ u, t.hessian = some u) ↔ t.inputCount * t.inputCount < listLimit := by
  constructor
  · rintro ⟨u, made⟩
    exact (hessian_eq_some_iff.mp made).1
  · intro room
    obtain ⟨u, made, _⟩ := exists_hessian (M := PUnit) wellFormed weightless room above powers
    exact ⟨u, made⟩

end

end Trace

end AutoDiff
