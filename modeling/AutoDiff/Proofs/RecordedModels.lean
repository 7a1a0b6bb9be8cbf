import AutoDiff.Model
import AutoDiff.Proofs.Recordings

namespace AutoDiff

namespace Model

open Recording Recorder

variable {α : Type}

/-- The example points of the tapes at the end of a recording. -/
def points (m : Model α) : TapeName → Array α :=
  m.body.foldl Step.advance ((Step.independent .main (m.input ++ m.parameters)).advance fun _ => #[])

theorem points_main (m : Model α) :
    m.points .main = (m.input ++ m.parameters ++ m.body.flatMap (Step.declared .main)).toArray := by
  rw [points, Step.foldl_advance]
  simp [Step.advance, Step.declared]

variable [Arithmetic α] {P : Int32 → Prop}

def start (m : Model α) : Recorder α Unit := do
  step (.independent .main (m.input ++ m.parameters))
  unless m.parameterized do
    modify fun r => { r with recorded := r.recorded.extract 0 m.input.length }

theorem run_eq (m : Model α) :
    m.run = m.start >>= fun _ => m.body.forM step >>= fun _ => m.outputs.mapM lookup := by
  unfold run start
  cases m.parameterized <;> simp [bind_assoc]

/-- A recording is what its steps leave; the outputs are picked from the variables made by then. -/
theorem run_eq_ok_iff (m : Model α) (outputs : List (Variable α)) (r : Recording α) :
    m.run.run {} = .ok (outputs, r) ↔ (m.start >>= fun _ => m.body.forM step) {} = .ok ((), r) ∧
      List.Forall₂ (fun position v => r.recorded[position]? = some v) m.outputs outputs := by
  change m.run {} = .ok (outputs, r) ↔ _
  rw [run_eq, ← bind_assoc, Recorder.bind_eq_ok_iff]
  constructor
  · rintro ⟨_, s, steps, picked⟩
    obtain ⟨found, rfl⟩ := (lookups_eq_ok_iff m.outputs outputs).mp picked
    exact ⟨steps, found⟩
  · rintro ⟨steps, found⟩
    exact ⟨(), r, steps, (lookups_eq_ok_iff m.outputs outputs).mpr ⟨found, rfl⟩⟩

theorem maintains_start (m : Model α) :
    Maintains P m.start (fun _ => #[]) {} ((Step.independent .main (m.input ++ m.parameters)).advance fun _ => #[])
      fun _ _ => True := by
  unfold start
  apply (maintains_step truthful_empty (by simp)).bind
  intro _ s truthful _ _
  cases m.parameterized with
  | true => exact .pure truthful trivial
  | false =>
      rintro _ _ ⟨⟩
      have fewer (v : Variable α) (member : v ∈ s.recorded.extract 0 m.input.length) : v ∈ s.recorded := by
        obtain ⟨i, _, rfl⟩ := Array.mem_extract_iff_getElem.mp member
        exact Array.getElem_mem _
      exact ⟨⟨truthful.tape, truthful.inputs, truthful.declared, fun v member => truthful.shown v (fewer v member)⟩,
        fun _ shows => shows, trivial⟩

/-- At the end of a recording all variables, the outputs among them, show the values of their nodes. -/
theorem maintains_run (m : Model α) (allowed : ∀ a exponent, Step.power a exponent ∈ m.body → P exponent) :
    Maintains P m.run (fun _ => #[]) {} m.points fun outputs r => ∀ v ∈ outputs, r.Shows m.points v := by
  rw [run_eq]
  apply m.maintains_start.bind
  intro _ s truthfulS _ _
  apply (maintains_steps truthfulS m.body allowed).bind
  intro _ t truthfulT _ _
  exact maintains_lookups truthfulT m.outputs

theorem exists_recorded {m : Model α} {outputs : List (Variable α)} {r : Recording α}
    (run : m.run.run {} = .ok (outputs, r)) (input : m.input ≠ []) (nonempty : outputs ≠ [])
    (main : ∀ v ∈ outputs, v.tape = .main)
    (allowed : ∀ a exponent, Step.power a exponent ∈ m.body → P exponent) :
    m.recorded = .ok (.ok { r.main with outputs := outputs.map Variable.id }) ∧
      ({ r.main with outputs := outputs.map Variable.id } : Trace α).WellFormed ∧ Tape P r.main := by
  obtain ⟨truthful, _, shown⟩ := m.maintains_run allowed outputs r run
  have wellFormed := truthful.wellFormed main shown
  refine ⟨?_, wellFormed, truthful.tape .main⟩
  have verified := (Trace.verify_eq_ok_iff _).mpr wellFormed
  simp [recorded, input, nonempty, run, verified, Bind.bind, Except.bind, Pure.pure, Except.pure, Except.map]

theorem of_recorded {m : Model α} {t : Trace α} (recorded : m.recorded = .ok (.ok t)) :
    t.WellFormed ∧ t.weightCount = 0 ∧ ∃ outputs r, m.run.run {} = .ok (outputs, r) ∧ outputs ≠ [] ∧
      t = { r.main with outputs := outputs.map Variable.id } := by
  unfold Model.recorded at recorded
  split at recorded
  · cases recorded
  · obtain ⟨⟨outputs, r⟩, run, rest⟩ := (AutoDiff.bind_eq_ok_iff _ _ _).mp recorded
    obtain ⟨truthful, _, _⟩ := m.maintains_run (P := fun _ => True) (fun _ _ _ => trivial) outputs r run
    dsimp only at rest
    split at rest
    · cases rest
    · next some =>
        have nonempty : outputs ≠ [] := by simpa using some
        cases verified : ({ r.main with outputs := outputs.map Variable.id } : Trace α).verify with
        | error e =>
            simp only [verified] at rest
            cases rest
        | ok =>
            simp only [verified] at rest
            cases rest
            exact ⟨(Trace.verify_eq_ok_iff _).mp verified, (truthful.tape .main).weightless, outputs, r, run, nonempty, rfl⟩

end Model

end AutoDiff
