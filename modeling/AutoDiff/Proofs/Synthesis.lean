import AutoDiff.Proofs.DerivativeTraces
import AutoDiff.Proofs.Optimization
import AutoDiff.Proofs.Validation

namespace AutoDiff

open AutoDiff.Differential

namespace KernelSet

theorem exists_derivative {α : Type} (wanted : Bool) (kernel : Option (Trace α)) (Holds : Trace α → Prop)
    (made : wanted = true → ∃ u, kernel = some u ∧ Holds u) :
    ∃ u?, derivative wanted kernel = some u? ∧ u?.isSome = wanted ∧ ∀ u, u? = some u → Holds u := by
  cases wanted with
  | false => exact ⟨none, rfl, rfl, by simp⟩
  | true =>
      obtain ⟨u, same, holds⟩ := made rfl
      exact ⟨some u, by simp [derivative, same], rfl, fun other found => Option.some.inj found ▸ holds⟩

end KernelSet

variable {α : Type} [Arithmetic α]

/-- A kernel that takes so many inputs and weights and has the outputs `xs`. -/
structure Trace.Computes {M : Type} [CommRing M] [Interpretation α M] (t : Trace α) (inputs weights : Nat)
    (xs : List M) : Prop where
  wellFormed : t.WellFormed
  inputCount : t.inputCount = inputs
  weightCount : t.weightCount = weights
  outputs : t.outputs.map (t.interpret M) = xs

theorem Trace.Computes.fits {M : Type} [CommRing M] [Interpretation α M] {t : Trace α}
    {inputs weights : Nat} {xs : List M} (computes : t.Computes inputs weights xs) :
    t.Fits inputs weights xs.length :=
  ⟨computes.wellFormed, computes.inputCount, computes.weightCount, by rw [← computes.outputs, List.length_map]⟩

namespace KernelSet

variable {M : Type} [CommRing M] [Differential α M]

/-- The kernels of a trace for an order, with the sizes given to them. -/
structure Represents (M : Type) [CommRing M] [Differential α M] (k : KernelSet α) (t : Trace α)
    (inputs parameters : Nat) (wanted : Order) : Prop where
  inputSize : k.inputSize = inputs
  parameterSize : k.parameterSize = parameters
  outputSize : k.outputSize = t.outputs.length
  order : k.order = wanted
  forward : k.forward.Computes t.inputCount 0 (t.outputs.map (t.interpret M))
  hasJacobian : k.jacobian.isSome = wanted.includesJacobian
  jacobian : ∀ u, k.jacobian = some u → u.Computes t.inputCount 0
    ((t.outputs.map (t.interpret M)).flatMap fun y => (List.range t.inputCount).map fun j => deriv α j y)
  hasHessian : k.hessian.isSome = wanted.includesHessian
  hessian : ∀ u, k.hessian = some u → u.Computes t.inputCount t.outputs.length
    ((List.range t.inputCount).flatMap fun i => (List.range t.inputCount).map fun j =>
      weighted α ((t.outputs.map (t.interpret M)).map fun y => deriv α j (deriv α i y)))

variable {t : Trace α}

theorem preserves_powersFrom {u : Trace α} {lowest : Int} (preserves : Trace.Preserves M t u)
    (powers : t.PowersFrom lowest t.size) : u.PowersFrom lowest u.size := by
  intro id base exponent _ found
  obtain ⟨old, oldBase, there⟩ := preserves.powers id base exponent found
  exact powers old oldBase exponent (Trace.lt_size there) there

theorem lt_word_of_lt_listLimit {n : Nat} (less : n < listLimit) : n < UInt64.size :=
  Nat.lt_trans less (by decide)

theorem Represents.valid {k : KernelSet α} {t : Trace α} {parameters : Nat} {wanted : Order}
    (represents : k.Represents M t t.inputCount parameters wanted)
    (first : wanted.includesJacobian = true → t.outputs.length * t.inputCount < listLimit)
    (second : wanted.includesHessian = true → t.inputCount * t.inputCount < listLimit) : k.Valid := by
  obtain ⟨inputSize, _, outputSize, order, forward, hasJacobian, jacobian, hasHessian, hessian⟩ := represents
  refine ⟨?_, order ▸ hasJacobian, fun u found => ?_, order ▸ hasHessian, fun u found => ?_⟩
  · simpa [inputSize, outputSize] using forward.fits
  · have asked : wanted.includesJacobian = true := by rw [← hasJacobian, found]; rfl
    have size := wordProduct_of_lt (lt_word_of_lt_listLimit (first asked))
    simpa [inputSize, outputSize, size, List.length_flatMap, Function.comp_def] using
      (jacobian u found).fits
  · have asked : wanted.includesHessian = true := by rw [← hasHessian, found]; rfl
    have size := wordProduct_of_lt (lt_word_of_lt_listLimit (second asked))
    simpa [inputSize, outputSize, size, List.length_flatMap, Function.comp_def] using
      (hessian u found).fits

variable [DecidableEq α]

theorem exists_second {forward : Trace α} (preserves : Trace.Preserves M t forward) (weightless : t.weightCount = 0)
    {lowest : Int} (above : (exponents α M).least + 1 < lowest) (powers : t.PowersFrom lowest t.size)
    (room : t.inputCount * t.inputCount < listLimit) :
    ∃ raw u, forward.hessian = some raw ∧ raw.WellFormed ∧ raw.optimize = some u ∧
      u.Computes t.inputCount t.outputs.length ((List.range t.inputCount).flatMap fun i =>
        (List.range t.inputCount).map fun j =>
          weighted α ((t.outputs.map (t.interpret M)).map fun y => deriv α j (deriv α i y))) := by
  have length : forward.outputs.length = t.outputs.length := by
    simpa using congrArg List.length preserves.outputs
  obtain ⟨raw, made, well, inputs, weights, same⟩ := Trace.exists_hessian (M := M) preserves.wellFormed
    (preserves.weightCount.trans weightless) (preserves.inputCount ▸ room) above
    (preserves_powersFrom preserves powers)
  obtain ⟨u, optimized, kept⟩ := Trace.exists_optimize (M := M) well
  refine ⟨raw, u, made, well, optimized, kept.wellFormed, ?_, ?_, ?_⟩
  · rw [kept.inputCount, inputs, preserves.inputCount]
  · rw [kept.weightCount, weights, length]
  · rw [kept.outputs, same, preserves.outputs, preserves.inputCount]

/-- Kernels are made of every trace, and they are its kernels. -/
theorem exists_synthesize (wellFormed : t.WellFormed) (weightless : t.weightCount = 0) {lowest : Int}
    (above : (exponents α M).least + 1 < lowest) (powers : t.PowersFrom lowest t.size)
    (inputSize parameterSize : Nat) (order : Order)
    (rows : order.includesJacobian = true → t.outputs.length * t.inputCount < listLimit)
    (square : order.includesHessian = true → t.inputCount * t.inputCount < listLimit) :
    ∃ k, synthesize inputSize parameterSize order t = some k ∧
      k.Represents M t inputSize parameterSize order := by
  obtain ⟨forward, run, preserves⟩ := Trace.exists_optimize (M := M) wellFormed
  have forwardPowers := preserves_powersFrom preserves powers
  have length : forward.outputs.length = t.outputs.length := by
    simpa using congrArg List.length preserves.outputs
  have noWeights : forward.weightCount = 0 := preserves.weightCount.trans weightless
  obtain ⟨jacobian, first, hasJacobian, isJacobian⟩ := exists_derivative
    order.includesJacobian (forward.jacobian.bind Trace.optimize)
    (fun u => u.Computes t.inputCount 0 ((t.outputs.map (t.interpret M)).flatMap fun y =>
      (List.range t.inputCount).map fun j => deriv α j y)) fun wanted => by
    have room := rows wanted
    rw [← length, ← preserves.inputCount] at room
    obtain ⟨raw, made, well, inputs, weights, same⟩ := Trace.exists_jacobian (M := M) preserves.wellFormed room
      (by omega) forwardPowers
    obtain ⟨u, optimized, kept⟩ := Trace.exists_optimize (M := M) well
    refine ⟨u, by simp [made, optimized], kept.wellFormed, ?_, ?_, ?_⟩
    · rw [kept.inputCount, inputs, preserves.inputCount]
    · rw [kept.weightCount, weights, noWeights]
    · rw [kept.outputs, same, preserves.outputs, preserves.inputCount]
  obtain ⟨hessian, second, hasHessian, isHessian⟩ := exists_derivative
    order.includesHessian (forward.hessian.bind Trace.optimize)
    (fun u => u.Computes t.inputCount t.outputs.length
      ((List.range t.inputCount).flatMap fun i => (List.range t.inputCount).map fun j =>
        weighted α ((t.outputs.map (t.interpret M)).map fun y => deriv α j (deriv α i y)))) fun wanted => by
    obtain ⟨raw, u, made, _, optimized, computes⟩ := exists_second preserves weightless above powers
      (square wanted)
    exact ⟨u, by simp [made, optimized], computes⟩
  refine ⟨_, by simp only [synthesize, run, first, second, Option.bind_eq_bind, Option.bind_some,
    Option.pure_def]; rfl, ?_⟩
  exact {
    inputSize := rfl
    parameterSize := rfl
    outputSize := length
    order := rfl
    forward := ⟨preserves.wellFormed, preserves.inputCount, noWeights, preserves.outputs⟩
    hasJacobian, jacobian := isJacobian, hasHessian, hessian := isHessian }

theorem synthesize_eq_some_iff {k : KernelSet α} {inputSize parameterSize : Nat} {order : Order} :
    synthesize inputSize parameterSize order t = some k ↔
      ∃ forward jacobian hessian, t.optimize = some forward ∧
        derivative order.includesJacobian (forward.jacobian.bind Trace.optimize) = some jacobian ∧
        derivative order.includesHessian (forward.hessian.bind Trace.optimize) = some hessian ∧
        k = { inputSize, parameterSize, outputSize := forward.outputs.length, order, forward, jacobian, hessian } := by
  simp only [synthesize, Option.bind_eq_bind, Option.bind_eq_some_iff, Option.pure_def, Option.some.injEq]
  constructor
  · rintro ⟨forward, run, jacobian, first, hessian, second, rfl⟩
    exact ⟨forward, jacobian, hessian, run, first, second, rfl⟩
  · rintro ⟨forward, jacobian, hessian, run, first, second, rfl⟩
    exact ⟨forward, run, jacobian, first, hessian, second, rfl⟩

theorem of_synthesize_second {k : KernelSet α} {inputSize parameterSize : Nat} (wellFormed : t.WellFormed)
    (made : synthesize inputSize parameterSize .second t = some k) :
    ∃ forward raw u, t.optimize = some forward ∧ forward.hessian = some raw ∧ raw.optimize = some u ∧
      k.outputSize = t.outputs.length ∧ k.order = .second ∧ k.hessian = some u := by
  obtain ⟨forward, _, _, run, _, second, rfl⟩ := synthesize_eq_some_iff.mp made
  obtain ⟨_, same, preserves⟩ := Trace.exists_optimize (M := PUnit) wellFormed
  cases run.symm.trans same
  obtain ⟨u, found, rfl⟩ := Option.map_eq_some_iff.mp (second : some <$> forward.hessian.bind Trace.optimize = _)
  obtain ⟨raw, first, optimized⟩ := Option.bind_eq_some_iff.mp found
  have length : forward.outputs.length = t.outputs.length := by
    simpa using congrArg List.length preserves.outputs
  exact ⟨forward, raw, u, run, first, optimized, length, rfl, rfl⟩

theorem inputSize_of_synthesize {k : KernelSet α} {inputSize parameterSize : Nat} {order : Order}
    (wellFormed : t.WellFormed) (made : synthesize inputSize parameterSize order t = some k) (valid : k.Valid) :
    k.inputSize = t.inputCount := by
  obtain ⟨forward, _, _, run, _, _, rfl⟩ := synthesize_eq_some_iff.mp made
  obtain ⟨_, same, preserves⟩ := Trace.exists_optimize (M := PUnit) wellFormed
  cases run.symm.trans same
  exact valid.forward.inputCount.symm.trans preserves.inputCount

/-- Derivatives whose entries do not fit in one list are never made. -/
theorem room_of_synthesize {k : KernelSet α} {inputSize parameterSize : Nat} {order : Order}
    (wellFormed : t.WellFormed) (made : synthesize inputSize parameterSize order t = some k) :
    (order.includesJacobian = true → t.outputs.length * t.inputCount < listLimit) ∧
      (order.includesHessian = true → t.inputCount * t.inputCount < listLimit) := by
  obtain ⟨forward, jacobian, hessian, run, first, second, _⟩ := synthesize_eq_some_iff.mp made
  obtain ⟨_, same, preserves⟩ := Trace.exists_optimize (M := PUnit) wellFormed
  cases run.symm.trans same
  have length : forward.outputs.length = t.outputs.length := by simpa using congrArg List.length preserves.outputs
  constructor
  · intro wanted
    rw [wanted] at first
    obtain ⟨u, made, _⟩ := Option.map_eq_some_iff.mp (first : some <$> forward.jacobian.bind Trace.optimize = _)
    obtain ⟨raw, derived, _⟩ := Option.bind_eq_some_iff.mp made
    have room := (Trace.jacobian_eq_some_iff.mp derived).1
    rwa [length, preserves.inputCount] at room
  · intro wanted
    rw [wanted] at second
    obtain ⟨u, made, _⟩ := Option.map_eq_some_iff.mp (second : some <$> forward.hessian.bind Trace.optimize = _)
    obtain ⟨raw, derived, _⟩ := Option.bind_eq_some_iff.mp made
    have room := (Trace.hessian_eq_some_iff.mp derived).1
    rwa [preserves.inputCount] at room

end KernelSet

end AutoDiff
