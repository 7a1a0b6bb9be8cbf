import AutoDiff.Proofs.Replay

namespace AutoDiff

open Recording Recorder

theorem Order.includesJacobian_eq_true_iff (order : Order) : order.includesJacobian = true ↔ .first ≤ order :=
  decide_eq_true_iff

theorem Order.includesHessian_eq_true_iff (order : Order) : order.includesHessian = true ↔ order = .second := by
  cases order <;> decide

namespace KernelSet

variable {α : Type}

def traces (k : KernelSet α) : List (Trace α) := k.forward :: (k.jacobian.toList ++ k.hessian.toList)

theorem Valid.verified {k : KernelSet α} (valid : k.Valid) : ∀ t ∈ k.traces, t.verify = .ok () := by
  intro t member
  rw [t.verify_eq_ok_iff]
  simp only [traces, List.mem_cons, List.mem_append, Option.mem_toList] at member
  rcases member with rfl | first | second
  · exact valid.forward.wellFormed
  · exact (valid.jacobian t first).wellFormed
  · exact (valid.hessian t second).wellFormed

variable [Arithmetic α] [DecidableEq α] {t : Trace α} {inputSize parameterSize : Nat}

end KernelSet

namespace Model

section

variable {α : Type} [Arithmetic α]

/-- One list can hold the entries of each derivative that an order asks for. -/
structure HasRoom (m : Model α) (order : Order) : Prop where
  rows : .first ≤ order → m.outputs.length * (m.input.length + m.parameters.length) < listLimit
  square : order = .second →
    (m.input.length + m.parameters.length) * (m.input.length + m.parameters.length) < listLimit

omit [Arithmetic α] in
theorem HasRoom.mono {m : Model α} {lower higher : Order} (room : m.HasRoom higher) (le : lower ≤ higher) :
    m.HasRoom lower := by
  refine ⟨fun first => room.rows (Nat.le_trans first le), fun second => room.square ?_⟩
  subst second
  cases higher with
  | zeroth | first => exact absurd le (by decide)
  | second => rfl

variable [DecidableEq α] {m : Model α}

section

variable
  (exponents : ∀ (a : Nat) (exponent : Int32), Step.power a exponent ∈ m.body →
    Int32.minValue.toInt + 2 ≤ exponent.toInt)
  (returns : m.input ≠ [] → ∃ outputs r, m.run.run {} = .ok (outputs, r) ∧ ∀ v ∈ outputs, v.tape = .main)
include exponents returns

end

end

section

variable {count : Nat}

end

end Model

end AutoDiff
