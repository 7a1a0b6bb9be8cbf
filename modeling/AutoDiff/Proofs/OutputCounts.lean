import AutoDiff.Proofs.KernelOrders

/-!
The numbers of outputs that the check of a kernel set compares with. They are right as long as they are words; beyond
that the check passes other sets, whose numbers of outputs are right but for multiples of the number of words.
-/

namespace AutoDiff

namespace KernelSet

variable {α : Type}

/-- The kernels that the order asks for are there and verified. Jacobians and Hessians have as many outputs as `count`
says for their rows and columns. -/
structure Counted (count : Nat → Nat → Nat) (k : KernelSet α) : Prop where
  forward : k.forward.Fits k.inputSize 0 k.outputSize
  hasJacobian : k.jacobian.isSome ↔ .first ≤ k.order
  jacobian : ∀ t, k.jacobian = some t → t.Fits k.inputSize 0 (count k.outputSize k.inputSize)
  hasHessian : k.hessian.isSome ↔ k.order = .second
  hessian : ∀ t, k.hessian = some t → t.Fits k.inputSize k.outputSize (count k.inputSize k.inputSize)

def Overflows (k : KernelSet α) : Prop :=
  k.jacobian.isSome ∧ UInt64.size ≤ k.outputSize * k.inputSize ∨
    k.hessian.isSome ∧ UInt64.size ≤ k.inputSize * k.inputSize

def Listable (k : KernelSet α) : Prop :=
  ∀ t, k.jacobian = some t ∨ k.hessian = some t → t.outputs.length < UInt64.size

variable {k : KernelSet α}

theorem valid_iff_counted : k.Valid ↔ k.Counted wordProduct := by
  have first : k.jacobian.isSome = k.order.includesJacobian ↔ (k.jacobian.isSome ↔ .first ≤ k.order) := by
    rw [Bool.eq_iff_iff, Order.includesJacobian_eq_true_iff]
  have second : k.hessian.isSome = k.order.includesHessian ↔ (k.hessian.isSome ↔ k.order = .second) := by
    rw [Bool.eq_iff_iff, Order.includesHessian_eq_true_iff]
  constructor
  · intro valid
    exact ⟨valid.forward, first.mp valid.hasJacobian, valid.jacobian, second.mp valid.hasHessian, valid.hessian⟩
  · intro counted
    exact ⟨counted.forward, first.mpr counted.hasJacobian, counted.jacobian, second.mpr counted.hasHessian,
      counted.hessian⟩

theorem Counted.mono {count other : Nat → Nat → Nat} (counted : k.Counted count)
    (entries : k.jacobian.isSome → count k.outputSize k.inputSize = other k.outputSize k.inputSize)
    (square : k.hessian.isSome → count k.inputSize k.inputSize = other k.inputSize k.inputSize) :
    k.Counted other where
  forward := counted.forward
  hasJacobian := counted.hasJacobian
  jacobian t found := entries (by simp [found]) ▸ counted.jacobian t found
  hasHessian := counted.hasHessian
  hessian t found := square (by simp [found]) ▸ counted.hessian t found

/-- Without an overflow the numbers that are compared with are right. -/
theorem counted_iff_of_not_overflows (fits : ¬k.Overflows) : k.Counted wordProduct ↔ k.Counted (· * ·) := by
  have entries (there : k.jacobian.isSome) :
      wordProduct k.outputSize k.inputSize = k.outputSize * k.inputSize := by
    apply wordProduct_of_lt
    by_contra large
    exact fits (.inl ⟨there, Nat.le_of_not_lt large⟩)
  have square (there : k.hessian.isSome) : wordProduct k.inputSize k.inputSize = k.inputSize * k.inputSize := by
    apply wordProduct_of_lt
    by_contra large
    exact fits (.inr ⟨there, Nat.le_of_not_lt large⟩)
  constructor
  · intro counted
    exact counted.mono entries square
  · intro counted
    exact counted.mono (fun there => (entries there).symm) fun there => (square there).symm

theorem Counted.not_overflows (counted : k.Counted (· * ·)) (listable : k.Listable) : ¬k.Overflows := by
  rintro (⟨there, large⟩ | ⟨there, large⟩)
  · obtain ⟨t, found⟩ := Option.isSome_iff_exists.mp there
    have length : t.outputs.length = k.outputSize * k.inputSize := (counted.jacobian t found).length
    have short := listable t (.inl found)
    omega
  · obtain ⟨t, found⟩ := Option.isSome_iff_exists.mp there
    have length : t.outputs.length = k.inputSize * k.inputSize := (counted.hessian t found).length
    have short := listable t (.inr found)
    omega

/-- The check passes the kernel sets whose numbers of outputs are right up to multiples of the number of words. They
are right exactly for those of them that do not overflow. -/
theorem validate_modulo (k : KernelSet α) :
    (k.validate = .ok () ↔ k.Counted fun rows columns => rows * columns % UInt64.size) ∧
      (¬k.Overflows → (k.validate = .ok () ↔ k.Counted (· * ·))) ∧
      (k.Listable → (k.Counted (· * ·) ↔ k.validate = .ok () ∧ ¬k.Overflows)) := by
  have checked : k.validate = .ok () ↔ k.Counted wordProduct := (validate_eq_ok_iff k).trans valid_iff_counted
  refine ⟨checked, ?_, ?_⟩
  · intro fits
    exact checked.trans (counted_iff_of_not_overflows fits)
  · intro listable
    constructor
    · intro counted
      have fits := counted.not_overflows listable
      exact ⟨checked.mpr ((counted_iff_of_not_overflows fits).mpr counted), fits⟩
    · rintro ⟨passed, fits⟩
      exact (counted_iff_of_not_overflows fits).mp (checked.mp passed)

def constants (inputs : Nat) (outputs : List NodeId) : Trace Binary64 where
  nodes := #[.const (Arithmetic.ofInt 0)]
  inputCount := inputs
  weightCount := 0
  outputs := outputs

def constantPair (inputs : Nat) (entries : List NodeId) : KernelSet Binary64 where
  inputSize := inputs
  parameterSize := 0
  outputSize := 2
  order := .first
  forward := constants inputs [0, 0]
  jacobian := some (constants inputs entries)
  hessian := none

theorem validate_modulo_constantPair : (constantPair 3 [0, 0, 0, 0, 0, 0]).validate = .ok () ∧
    (constantPair 3 [0, 0, 0, 0, 0, 0]).Counted (· * ·) ∧ ¬(constantPair 3 [0, 0, 0, 0, 0, 0]).Overflows := by
  have passed : (constantPair 3 [0, 0, 0, 0, 0, 0]).validate = .ok () := by decide +kernel
  have fits : ¬(constantPair 3 [0, 0, 0, 0, 0, 0]).Overflows := by
    simp [Overflows, constantPair, UInt64.size]
  have listable : (constantPair 3 [0, 0, 0, 0, 0, 0]).Listable := by
    simp [Listable, constantPair, constants, UInt64.size]
  obtain ⟨_, _, right⟩ := validate_modulo (constantPair 3 [0, 0, 0, 0, 0, 0])
  exact ⟨passed, (right listable).mpr ⟨passed, fits⟩, fits⟩

/-- With as many inputs as half of all words there are, a Jacobian without entries passes. -/
theorem validate_overflow : (constantPair (2 ^ 63) []).validate = .ok () ∧
    ¬(constantPair (2 ^ 63) []).Counted (· * ·) := by
  constructor
  · decide +kernel
  · intro counted
    have length : 0 = 2 * 2 ^ 63 := (counted.jacobian _ rfl).length
    omega

end KernelSet

end AutoDiff
