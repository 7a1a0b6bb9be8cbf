import AutoDiff.Proofs.KernelValues
import AutoDiff.Proofs.Tapes

namespace AutoDiff

namespace Recording

variable {α : Type} [Arithmetic α]

theorem Truthful.exists_results {P : Int32 → Prop} {points : TapeName → Array α} {r : Recording α}
    (truthful : r.Truthful P points)
    {outputs : List (Variable α)} (bound : ∀ v ∈ outputs, v.id < r.main.size)
    (shown : ∀ v ∈ outputs, r.Shows points v) :
    ∃ results, ({ r.main with outputs := outputs.map Variable.id } : Trace α).evaluate (points .main) #[] =
        some (.ok results.toArray) ∧
      List.Forall₂ (fun v result => r.main.nodeValue? (points .main) v.id = some result ∧
        (v.tape = .main → result = v.value)) outputs results := by
  obtain ⟨values, replay, size⟩ := truthful.exists_values? .main
  have picked (v : Variable α) (member : v ∈ outputs) :
      values[v.id]? = some (values.getD v.id (Arithmetic.ofInt 0)) := by
    have inside : v.id < values.size := size ▸ bound v member
    rw [Array.getD_eq_getD_getElem?, Array.getElem?_eq_getElem inside, Option.getD_some]
  refine ⟨outputs.map fun v => values.getD v.id (Arithmetic.ofInt 0), ?_, ?_⟩
  · apply truthful.evaluate replay
    rw [List.forall₂_map_left_iff, List.forall₂_map_right_iff, List.forall₂_same]
    exact picked
  · rw [List.forall₂_map_right_iff, List.forall₂_same]
    intro v member
    have named : r.main.nodeValue? (points .main) v.id = some (values.getD v.id (Arithmetic.ofInt 0)) :=
      (congrArg (·.bind (·[v.id]?)) replay).trans (picked v member)
    refine ⟨named, ?_⟩
    intro main
    have shows := shown v member
    rw [Shows, main] at shows
    exact Option.some.inj (named.symm.trans shows)

end Recording

namespace Model

open Recording Recorder

section

variable {α : Type} [Arithmetic α]

theorem points_main_eq {P : Int32 → Prop} {m : Model α} {r : Recording α} (truthful : r.Truthful P m.points)
    (inputs : r.main.inputCount = m.input.length + m.parameters.length) :
    m.points .main = (m.input ++ m.parameters).toArray := by
  have size : (m.points .main).size = r.main.inputCount := truthful.inputs .main
  have none : m.body.flatMap (Step.declared .main) = [] := by
    rw [points_main, List.size_toArray, List.length_append, List.length_append, inputs] at size
    apply List.eq_nil_of_length_eq_zero
    omega
  rw [points_main, none, List.append_nil]

variable [DecidableEq α]

/-- A step that combines variables of both tapes fails, and the model has no kernels. If it has some, the recorded
trace gives for each output the value of the node that the returned variable names on the main tape; if the
variable is of this tape, that is the value which it carries. -/
theorem outputs_of_kernels (m : Model α) (order : Order) :
    (∀ before action after r, m.input ≠ [] → m.body = before ++ action :: after →
      ({ m with body := before, outputs := [] } : Model α).run.run {} = .ok ([], r) → action.Mixes r →
        m.recorded = .error .mixedTapes ∧ m.kernels order = none) ∧
    ∀ k, m.kernels order = some (.ok k) → ∃ outputs r t results,
      m.run.run {} = .ok (outputs, r) ∧ m.recorded = .ok (.ok t) ∧
        t = { r.main with outputs := outputs.map Variable.id } ∧
        t.evaluate (m.input ++ m.parameters).toArray #[] = some (.ok results.toArray) ∧
        List.Forall₂ (fun v result => t.nodeValue? (m.input ++ m.parameters).toArray v.id = some result ∧
          (v.tape = .main → result = v.value)) outputs results := by
  constructor
  · intro before action after r input body reached mixes
    have failed := run_of_mixes body reached mixes
    have recorded : m.recorded = .error .mixedTapes := by
      simp [recorded, input, failed, Bind.bind, Except.bind]
    exact ⟨recorded, by rw [kernels, recorded]⟩
  · intro k made
    obtain ⟨t, recorded, synthesized, valid⟩ := exists_recorded_of_kernels made
    obtain ⟨wellFormed, _, outputs, r, run, _, rfl⟩ := of_recorded recorded
    obtain ⟨truthful, _, shown⟩ := m.maintains_run (P := fun _ => True) (fun _ _ _ => trivial) outputs r run
    have inputs : r.main.inputCount = m.input.length + m.parameters.length := by
      have size := KernelSet.inputSize_of_synthesize wellFormed synthesized valid
      obtain ⟨_, _, _, _, _, _, rfl⟩ := KernelSet.synthesize_eq_some_iff.mp synthesized
      exact size.symm
    have bound (v : Variable α) (member : v ∈ outputs) : v.id < r.main.size :=
      wellFormed.outputs v.id (List.mem_map_of_mem member)
    obtain ⟨results, evaluated, named⟩ := truthful.exists_results bound shown
    rw [points_main_eq truthful inputs] at evaluated named
    exact ⟨outputs, r, _, results, run, recorded, rfl, evaluated, named⟩

end

def returnsForeign : Model ℚ where
  input := [2]
  body := [.independent .other [5]]
  outputs := [0, 1]

def combinesForeign : Model ℚ where
  input := [2]
  body := [.independent .other [5], .binary .add 0 1]
  outputs := [2]

theorem outputs_of_kernels_foreign :
    combinesForeign.recorded = .error .mixedTapes ∧ combinesForeign.kernels .second = none ∧
      ∃ k outputs r t results, returnsForeign.kernels .second = some (.ok k) ∧
        returnsForeign.run.run {} = .ok (outputs, r) ∧ returnsForeign.recorded = .ok (.ok t) ∧
        t.evaluate #[2] #[] = some (.ok results) ∧ results.size = outputs.length := by
  have reached : ({ combinesForeign with body := [.independent .other [5]], outputs := [] } : Model ℚ).run.run {} =
      .ok ([], {
        main := { nodes := #[.input 0], inputCount := 1, weightCount := 0 }
        other := { nodes := #[.input 0], inputCount := 1, weightCount := 0 }
        recorded := #[⟨.main, 0, 2⟩, ⟨.other, 0, 5⟩] }) := rfl
  have mixes : Step.Mixes (α := ℚ) {
      main := { nodes := #[.input 0], inputCount := 1, weightCount := 0 }
      other := { nodes := #[.input 0], inputCount := 1, weightCount := 0 }
      recorded := #[⟨.main, 0, 2⟩, ⟨.other, 0, 5⟩] } (.binary .add 0 1) := by
    refine ⟨[⟨.main, 0, 2⟩, ⟨.other, 0, 5⟩], ?_, ?_⟩
    · exact .cons rfl (.cons rfl .nil)
    · simp
  obtain ⟨recorded, none⟩ := (outputs_of_kernels combinesForeign .second).1 _ _ [] _ (by simp [combinesForeign]) rfl
    reached mixes
  obtain ⟨k, made, _⟩ := exists_kernels_of_check (m := returnsForeign) (p := fun _ => true)
    (by decide +kernel)
  obtain ⟨outputs, r, t, results, run, recordedForeign, _, evaluated, each⟩ :=
    (outputs_of_kernels returnsForeign .second).2 k made
  exact ⟨recorded, none, k, outputs, r, t, results.toArray, made, run, recordedForeign, evaluated,
    by simpa using each.length_eq.symm⟩

/-- The variable of the other tape carries 5; in its place the trace returns the input again, which is 2. -/
theorem foreign_output_misread :
    ∃ k r t, returnsForeign.kernels .second = some (.ok k) ∧
      returnsForeign.run.run {} = .ok ([⟨.main, 0, 2⟩, ⟨.other, 0, 5⟩], r) ∧
      returnsForeign.recorded = .ok (.ok t) ∧ t.evaluate #[2] #[] = some (.ok #[2, 2]) := by
  obtain ⟨k, made, _⟩ := exists_kernels_of_check (m := returnsForeign) (p := fun _ => true)
    (by decide +kernel)
  exact ⟨k, _, { nodes := #[.input 0], inputCount := 1, weightCount := 0, outputs := [0, 0] }, made, rfl,
    by decide +kernel, by decide +kernel⟩

end Model

end AutoDiff
