import AutoDiff.KernelSet.Basic
import AutoDiff.Proofs.WellFormed

namespace AutoDiff

theorem Order.includesJacobian_of_includesHessian {order : Order} (second : order.includesHessian = true) :
    order.includesJacobian = true := by
  revert second
  cases order <;> decide

theorem wordProduct_of_lt {m n : Nat} (small : m * n < UInt64.size) : wordProduct m n = m * n :=
  Nat.mod_eq_of_lt small

variable {α : Type}

structure Trace.Fits (t : Trace α) (inputs weights outputs : Nat) : Prop where
  wellFormed : t.WellFormed
  inputCount : t.inputCount = inputs
  weightCount : t.weightCount = weights
  length : t.outputs.length = outputs

namespace KernelSet

/-- The kernels that the order asks for are there and fit the sizes. -/
structure Valid (k : KernelSet α) : Prop where
  forward : k.forward.Fits k.inputSize 0 k.outputSize
  hasJacobian : k.jacobian.isSome = k.order.includesJacobian
  jacobian : ∀ t, k.jacobian = some t → t.Fits k.inputSize 0 (wordProduct k.outputSize k.inputSize)
  hasHessian : k.hessian.isSome = k.order.includesHessian
  hessian : ∀ t, k.hessian = some t →
    t.Fits k.inputSize k.outputSize (wordProduct k.inputSize k.inputSize)

def Mentions (k : KernelSet α) (c : α) : Prop :=
  ∃ t, (k.forward = t ∨ k.jacobian = some t ∨ k.hessian = some t) ∧ .const c ∈ t.nodes

theorem checkKernel_eq_ok_iff (kernel : String) (t : Trace α) (inputs weights outputs : Nat) :
    checkKernel kernel t inputs weights outputs = .ok () ↔ t.Fits inputs weights outputs := by
  rw [checkKernel, check_bind_eq_ok_iff, t.verify_eq_ok_iff]
  constructor
  · rintro ⟨wellFormed, rest⟩
    by_cases inputCount : t.inputCount = inputs
    · by_cases weightCount : t.weightCount = weights
      · by_cases length : t.outputs.length = outputs
        · exact ⟨wellFormed, inputCount, weightCount, length⟩
        · simp [inputCount, weightCount, length, throw, throwThe, MonadExceptOf.throw] at rest
      · simp [inputCount, weightCount, bind, Except.bind, throw, throwThe, MonadExceptOf.throw] at rest
    · simp [inputCount, bind, Except.bind, throw, throwThe, MonadExceptOf.throw] at rest
  · rintro ⟨wellFormed, inputCount, weightCount, length⟩
    exact ⟨wellFormed, by simp [inputCount, weightCount, length, pure, Except.pure]⟩

theorem checkDerivative_eq_ok_iff (kernel : String) (t? : Option (Trace α)) (expected : Bool)
    (order : Order) (inputs weights outputs : Nat) :
    checkDerivative kernel t? expected order inputs weights outputs = .ok () ↔
      t?.isSome = expected ∧ ∀ t, t? = some t → t.Fits inputs weights outputs := by
  cases t? <;> cases expected <;> simp [checkDerivative, checkKernel_eq_ok_iff]

theorem validate_eq_ok_iff (k : KernelSet α) : k.validate = .ok () ↔ k.Valid := by
  simp only [validate, check_bind_eq_ok_iff, checkKernel_eq_ok_iff, checkDerivative_eq_ok_iff]
  constructor
  · rintro ⟨forward, ⟨hasJacobian, jacobian⟩, hasHessian, hessian⟩
    exact ⟨forward, hasJacobian, jacobian, hasHessian, hessian⟩
  · rintro ⟨forward, hasJacobian, jacobian, hasHessian, hessian⟩
    exact ⟨forward, ⟨hasJacobian, jacobian⟩, hasHessian, hessian⟩

end KernelSet

end AutoDiff
