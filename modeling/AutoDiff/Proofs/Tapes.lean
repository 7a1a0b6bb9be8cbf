import AutoDiff.Proofs.RecordedModels

namespace AutoDiff

namespace Step

variable {α : Type}

def combined : Step α → List Nat
  | binary _ a b => [a, b]
  | sum terms => terms
  | _ => []

/-- A step that combines variables of both tapes. -/
def Mixes (r : Recording α) (action : Step α) : Prop :=
  ∃ vs : List (Variable α), List.Forall₂ (fun position v => r.recorded[position]? = some v) action.combined vs ∧
    ∃ u ∈ vs, ∃ v ∈ vs, u.tape ≠ v.tape

end Step

namespace Recorder

variable {α : Type} [Arithmetic α] {r : Recording α}

theorem binary_of_ne (op : BinaryOp) {a b : Variable α} (different : a.tape ≠ b.tape) :
    binary op a b r = .error .mixedTapes := by
  rw [binary, if_neg different]
  rfl

theorem foldl_add_of_ne {terms : List (Variable α)} {first : Variable α}
    (different : ∃ v ∈ terms, v.tape ≠ first.tape) : terms.foldlM (binary .add) first r = .error .mixedTapes := by
  induction terms generalizing first r with
  | nil => simp at different
  | cons term terms ih =>
      rw [List.foldlM_cons]
      by_cases same : first.tape = term.tape
      · obtain ⟨v, member, apart⟩ := different
        have later : v ∈ terms := by
          rcases List.mem_cons.mp member with rfl | later
          · exact absurd same.symm apart
          · exact later
        have made : binary .add first term r = append first.tape (.binary .add first.id term.id)
            (Arithmetic.binary .add first.value term.value) r := by
          rw [binary, if_pos same]
        rw [bind_of_eq_ok made]
        exact ih ⟨v, later, apart⟩
      · exact bind_of_eq_error (binary_of_ne .add same) _

theorem sum_of_ne {terms : List (Variable α)} (different : ∃ u ∈ terms, ∃ v ∈ terms, u.tape ≠ v.tape) :
    sum terms r = .error .mixedTapes := by
  obtain ⟨u, memberU, v, memberV, apart⟩ := different
  cases terms with
  | nil => simp at memberU
  | cons first rest =>
      apply foldl_add_of_ne
      by_contra same
      push Not at same
      have every (w : Variable α) (member : w ∈ first :: rest) : w.tape = first.tape := by
        rcases List.mem_cons.mp member with rfl | later
        · rfl
        · exact same w later
      exact apart ((every u memberU).trans (every v memberV).symm)

/-- A step that combines variables of both tapes fails. -/
theorem step_of_mixes {action : Step α} (mixes : action.Mixes r) : step action r = .error .mixedTapes := by
  obtain ⟨vs, found, different⟩ := mixes
  cases action with
  | binary op a b =>
      obtain ⟨u, _, first, rest, rfl⟩ := List.forall₂_cons_left_iff.mp found
      obtain ⟨v, _, second, last, rfl⟩ := List.forall₂_cons_left_iff.mp rest
      obtain rfl := List.forall₂_nil_left_iff.mp last
      have apart : u.tape ≠ v.tape := by
        intro same
        simp [same] at different
      have left := (lookup_eq_ok_iff a u).mpr ⟨first, rfl⟩
      have right := (lookup_eq_ok_iff b v).mpr ⟨second, rfl⟩
      rw [step, bind_of_eq_ok left, bind_of_eq_ok right]
      exact bind_of_eq_error (binary_of_ne op apart) _
  | sum terms =>
      have all := (lookups_eq_ok_iff terms vs).mpr ⟨found, rfl⟩
      rw [step, bind_of_eq_ok all]
      exact bind_of_eq_error (sum_of_ne different) _
  | independent | const | constLike | unary | binaryConst | constBinary | power | ifPositive =>
      obtain rfl := List.forall₂_nil_left_iff.mp found
      simp at different

end Recorder

namespace Model

open Recorder

variable {α : Type} [Arithmetic α]

theorem run_of_mixes {m : Model α} {before after : List (Step α)} {action : Step α} {r : Recording α}
    (body : m.body = before ++ action :: after)
    (reached : ({ m with body := before, outputs := [] } : Model α).run.run {} = .ok ([], r))
    (mixes : action.Mixes r) : m.run.run {} = .error .mixedTapes := by
  obtain ⟨opened, _⟩ := (run_eq_ok_iff _ [] r).mp reached
  change (m.start >>= fun _ => before.forM step) {} = .ok ((), r) at opened
  have whole : m.run = (m.start >>= fun _ => before.forM step) >>= fun _ => step action >>= fun _ =>
      after.forM step >>= fun _ => m.outputs.mapM lookup := by
    simp only [run_eq, body, List.forM_eq_forM, List.forM_append, List.forM_cons, bind_assoc]
  change m.run {} = _
  rw [whole, bind_of_eq_ok opened]
  exact bind_of_eq_error (step_of_mixes mixes) _

end Model

end AutoDiff
