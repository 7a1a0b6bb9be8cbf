import AutoDiff.Proofs.KernelValues
import AutoDiff.Proofs.Renumbering
import Mathlib.Data.List.InsertIdx

namespace AutoDiff

namespace Trace

variable {α : Type}

def shift (position id : Nat) : Nat := if id < position then id else id + 1

theorem shift_lt_shift (position : Nat) {first second : Nat} (less : first < second) :
    shift position first < shift position second := by
  unfold shift
  split_ifs <;> omega

def insertAt (t : Trace α) (position : Nat) (node : Node α) : Trace α :=
  { t with
    nodes := ((t.nodes.toList.map (Node.mapOperands (shift position))).insertIdx position node).toArray
    outputs := t.outputs.map (shift position) }

/-- A node that is put in anywhere leaves the needed nodes as they are. -/
theorem renumbers_insertAt (t : Trace α) (position : Nat) (node : Node α) :
    Renumbers (shift position) t (t.insertAt position node) where
  increasing _ _ _ _ less := shift_lt_shift position less
  nodes id old _ found := by
    simp only [insertAt, shift, List.getElem?_toArray]
    split_ifs with before
    · rw [List.getElem?_insertIdx_of_lt before]
      simp [found]
    · rw [List.getElem?_insertIdx_of_gt (by omega)]
      simp [found]
  outputs := rfl

variable [Arithmetic α] [DecidableEq α]

theorem optimize_insertAt {t : Trace α} {position : Nat} {node : Node α} (verified : t.verify = .ok ())
    (still : (t.insertAt position node).verify = .ok ()) :
    (t.insertAt position node).optimize = t.optimize :=
  ((t.renumbers_insertAt position node).optimize_eq (t.verify_eq_ok_iff.mp verified)
    ((t.insertAt position node).verify_eq_ok_iff.mp still) rfl rfl).symm

end Trace

variable {α : Type} [Arithmetic α] [DecidableEq α]

/-- Beside its sizes, a set of kernels depends on the optimized recording alone. -/
theorem KernelSet.synthesize_eq_map {s t : Trace α} (same : s.optimize = t.optimize)
    (inputSize parameterSize inputs parameters : Nat) (order : Order) :
    synthesize inputs parameters order t = (synthesize inputSize parameterSize order s).map
      fun k => { k with inputSize := inputs, parameterSize := parameters } := by
  simp only [synthesize, same, Option.bind_eq_bind, Option.pure_def, Option.map_bind, Function.comp_def,
    Option.map_some]

theorem KernelSet.validate_map_parameterSize {α : Type} (k : KernelSet α) (parameters : Nat) :
    ({ k with parameterSize := parameters }.validate.map fun _ => { k with parameterSize := parameters }) =
      (k.validate.map fun _ => k).map fun k => { k with parameterSize := parameters } := by
  have same : ({ k with parameterSize := parameters } : KernelSet α).validate = k.validate := rfl
  rw [same]
  cases k.validate <;> rfl

theorem Model.kernels_of_recorded {m : Model α} {t : Trace α} (recorded : m.recorded = .ok (.ok t)) (order : Order) :
    m.kernels order =
      (KernelSet.synthesize (m.input.length + m.parameters.length) m.parameters.length order t).map
        fun k => k.validate.map fun _ => k := by
  rw [kernels, recorded]
  exact bind_pure_comp _ _

/-- Nodes that no output needs leave nothing behind: neither in what the optimizer returns nor in any kernel. -/
theorem unused_nodes_dropped {s t : Trace α} {rename : NodeId → NodeId} (first : s.verify = .ok ())
    (second : t.verify = .ok ()) (inputs : s.inputCount = t.inputCount) (weights : s.weightCount = t.weightCount)
    (renumbers : Trace.Renumbers rename s t) :
    (∃ r, s.optimize = some r ∧ t.optimize = some r) ∧
      ∀ m n : Model α, m.recorded = .ok (.ok s) → n.recorded = .ok (.ok t) → ∀ order,
        ((m.kernels order).isSome ↔ (n.kernels order).isSome) ∧
        (∀ j k, m.kernels order = some (.ok j) → n.kernels order = some (.ok k) →
          j.forward = k.forward ∧ j.jacobian = k.jacobian ∧ j.hessian = k.hessian) ∧
        (m.input.length + m.parameters.length = n.input.length + n.parameters.length →
          n.kernels order =
            (m.kernels order).map (Except.map fun k => { k with parameterSize := n.parameters.length })) := by
  have wellFormed := s.verify_eq_ok_iff.mp first
  have same := renumbers.optimize_eq wellFormed (t.verify_eq_ok_iff.mp second) inputs weights
  obtain ⟨r, run, _⟩ := Trace.exists_optimize (M := PUnit) wellFormed
  refine ⟨⟨r, run, same ▸ run⟩, fun m n one two order => ?_⟩
  have kernels := KernelSet.synthesize_eq_map same (m.input.length + m.parameters.length) m.parameters.length
    (n.input.length + n.parameters.length) n.parameters.length order
  refine ⟨?_, fun j k madeFirst madeSecond => ?_, fun sizes => ?_⟩
  · rw [Model.kernels_of_recorded one, Model.kernels_of_recorded two, kernels]
    simp
  · obtain ⟨madeFirst, _⟩ := (Model.kernels_eq_some_ok_iff one order j).mp madeFirst
    obtain ⟨madeSecond, _⟩ := (Model.kernels_eq_some_ok_iff two order k).mp madeSecond
    rw [kernels, madeFirst, Option.map_some] at madeSecond
    obtain rfl := Option.some.inj madeSecond
    exact ⟨rfl, rfl, rfl⟩
  · rw [Model.kernels_of_recorded one, Model.kernels_of_recorded two, kernels, ← sizes]
    cases made : KernelSet.synthesize (m.input.length + m.parameters.length) m.parameters.length order s with
    | none => rfl
    | some k =>
        obtain ⟨_, _, _, _, _, _, rfl⟩ := KernelSet.synthesize_eq_some_iff.mp made
        exact congrArg some (KernelSet.validate_map_parameterSize _ _)

namespace Model

def squareAlone : Model ℚ where
  input := [3]
  body := [.binary .mul 0 0]
  outputs := [1]

def squareInBetween : Model ℚ where
  input := [3]
  body := [.unary .exp 0, .const 7, .binary .mul 0 0, .binary .add 1 2]
  outputs := [3]

end Model

theorem unused_nodes_dropped_square :
    ∃ s t, Model.squareAlone.recorded = .ok (.ok s) ∧ Model.squareInBetween.recorded = .ok (.ok t) ∧ s.size = 2 ∧
      t.size = 5 ∧ s.optimize = t.optimize ∧
      ∀ order, Model.squareInBetween.kernels order =
        (Model.squareAlone.kernels order).map (Except.map fun k => { k with parameterSize := 0 }) := by
  obtain ⟨s, isAlone⟩ : ∃ s, s = (⟨#[.input 0, .binary .mul 0 0], 1, 0, [1]⟩ : Trace ℚ) := ⟨_, rfl⟩
  obtain ⟨t, isBetween⟩ : ∃ t, t = (⟨#[.input 0, .unary .exp 0, .const 7, .binary .mul 0 0, .binary .add 1 2], 1, 0,
    [3]⟩ : Trace ℚ) := ⟨_, rfl⟩
  have alone : Model.squareAlone.recorded = .ok (.ok s) := by
    rw [isAlone]
    decide +kernel
  have between : Model.squareInBetween.recorded = .ok (.ok t) := by
    rw [isBetween]
    decide +kernel
  have first : s.verify = .ok () := by
    rw [isAlone]
    decide +kernel
  have second : t.verify = .ok () := by
    rw [isBetween]
    decide +kernel
  have renumbers : Trace.Renumbers (3 * ·) s t :=
    { increasing := fun _ _ _ _ less => Nat.mul_lt_mul_of_pos_left less (by decide)
      nodes := fun id node _ found => by
        rw [isAlone] at found
        rw [isBetween]
        match id, found with
        | 0, found | 1, found => cases found; rfl
      outputs := by rw [isAlone, isBetween]; rfl }
  obtain ⟨⟨r, one, two⟩, kernels⟩ := unused_nodes_dropped first second (by rw [isAlone, isBetween])
    (by rw [isAlone, isBetween]) renumbers
  exact ⟨s, t, alone, between, by rw [isAlone]; rfl, by rw [isBetween]; rfl, one.trans two.symm,
    fun order => (kernels _ _ alone between order).2.2 rfl⟩

end AutoDiff
