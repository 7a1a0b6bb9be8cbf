import AutoDiff.Proofs.ExtendedRational
import AutoDiff.Proofs.FiniteHessian
import AutoDiff.Proofs.Parameters

/-!
Outputs apart. The Hessian of one output is chosen by weights, zero for all other outputs. Where everything is
finite it is the Hessian of the model with that output alone; a product of zero with an infinity is not zero,
and so what is infinite in the derivatives of other outputs gets into it.
-/

namespace AutoDiff

open ExtendedArithmetic Expression

namespace Model

open Recording Recorder

section

variable {α : Type} [Arithmetic α]

theorem recorded_alone {m : Model α} {t s : Trace α} {k y : Nat} (chosen : m.outputs[k]? = some y)
    (recorded : m.recorded = .ok (.ok t)) (alone : ({ m with outputs := [y] } : Model α).recorded = .ok (.ok s)) :
    s.nodes = t.nodes ∧ s.inputCount = t.inputCount ∧
      ∃ id, t.outputs[k]? = some id ∧ s.outputs[0]? = some id := by
  obtain ⟨_, _, outputs, r, run, _, rfl⟩ := of_recorded recorded
  obtain ⟨_, _, others, s, runAlone, _, rfl⟩ := of_recorded alone
  obtain ⟨steps, all⟩ := (m.run_eq_ok_iff outputs r).mp run
  obtain ⟨stepsAlone, one⟩ := (run_eq_ok_iff _ others s).mp runAlone
  cases steps.symm.trans stepsAlone
  obtain ⟨inside, rfl⟩ := List.getElem?_eq_some_iff.mp chosen
  obtain ⟨length, each⟩ := List.forall₂_iff_get.mp all
  obtain ⟨v, _, found, _, rfl⟩ := List.forall₂_cons_left_iff.mp one
  obtain rfl : outputs[k] = v := Option.some.inj ((each k inside (length ▸ inside)).symm.trans found)
  exact ⟨rfl, rfl, outputs[k].id, by simp [length ▸ inside], rfl⟩

end

end Model

section

variable {E F : Type} [Field F] [FieldArithmetic F] [ExtendedArithmetic E F] {x : Array E}

theorem sum_oneHot {size chosen : Nat} (inside : chosen < size) (f : Fin size → F) :
    ∑ y : Fin size, ((CompiledModel.oneHot size chosen : Array E).map value).getD y 0 * f y =
      f ⟨chosen, inside⟩ := by
  apply sum_of_indicator inside
  intro y less
  rw [Array.getElem?_map, CompiledModel.getElem?_oneHot less, Option.map_some, value_ofInt]
  split <;> simp

variable [DecidableEq E]

theorem KernelSet.exists_hessian {t : Trace E} (wellFormed : t.WellFormed) (weightless : t.weightCount = 0)
    {inputs parameterSize : Nat} {k : KernelSet E} (made : synthesize inputs parameterSize .second t = some k)
    (inputSize : k.inputSize = t.inputCount) {chosen id : Nat} (output : t.outputs[chosen]? = some id)
    (finite : t.TwiceFinite x (CompiledModel.oneHot t.outputs.length chosen)) (size : x.size = t.inputCount)
    (product : wordProduct t.inputCount t.inputCount = t.inputCount * t.inputCount) :
    ∃ entries, k.artifact.hessian x (CompiledModel.oneHot k.outputSize chosen)
        (CompiledModel.zeros (wordProduct k.inputSize k.inputSize)) = some (.ok entries) ∧
      ∀ i j : Nat, i < t.inputCount → j < t.inputCount → ∃ v, entries[i * t.inputCount + j]? = some v ∧
        isFinite v = true ∧ value v = ((((t.expression id).map value).derivBy Predecessor.words.before i).derivBy
          Predecessor.words.before j).eval (x.map value) #[] := by
  obtain ⟨inside, rfl⟩ := List.getElem?_eq_some_iff.mp output
  obtain ⟨_, _, _, _, _, _, outputSize, _, _⟩ := of_synthesize_second wellFormed made
  have weights : (CompiledModel.oneHot t.outputs.length chosen : Array E).size = t.outputs.length := by
    simp [CompiledModel.oneHot]
  have room : (CompiledModel.zeros (wordProduct t.inputCount t.inputCount) : Array E).size =
      t.inputCount * t.inputCount := by
    simp [CompiledModel.zeros, product]
  obtain ⟨u, entries, hessian, evaluated, entry⟩ := finite.exists_entries wellFormed weightless made
    size weights room
  refine ⟨entries, ?_, fun i j row column => ?_⟩
  · rw [artifact_hessian hessian (size.trans inputSize.symm), inputSize, outputSize, fill, evaluated]
    rfl
  · obtain ⟨v, found, isFinite, sum⟩ := entry i j row column
    have plain : (t.expression t.outputs[chosen]).Weightless :=
      Trace.weightless_expression wellFormed.toConsistent weightless
    refine ⟨v, found, isFinite, ?_⟩
    rw [sum, sum_oneHot inside]
    exact eval_weightless (((plain.map value).derivBy i).derivBy j) _ _ _

end

namespace Matrix

variable {E F : Type} [Field F] [FieldArithmetic F] [ExtendedArithmetic E F]

def SameValues (rows columns : Nat) (first second : Matrix E) : Prop :=
  first.HasShape rows columns ∧ second.HasShape rows columns ∧
    ∀ i j : Nat, i < rows → j < columns → ∃ u v, first.get? i j = some u ∧ second.get? i j = some v ∧
      isFinite u = true ∧ isFinite v = true ∧ value u = value v

end Matrix

namespace Model

variable {E F : Type} [Field F] [FieldArithmetic F] [ExtendedArithmetic E F] [DecidableEq E]

/-- What the Hessian of an output at `x` is calculated from is finite. -/
def FiniteAt (m : Model E) (x : Array E) (outputDim : Nat) : Prop :=
  ∀ t, m.recorded = .ok (.ok t) → t.TwiceFinite x (CompiledModel.oneHot t.outputs.length outputDim)

/-- Where it is calculated from finite numbers a Hessian is returned, and it is the symbolic one. -/
theorem exists_hessian {m : Model E} {t : Trace E} (recorded : m.recorded = .ok (.ok t)) {kernels : KernelSet E}
    (made : m.kernels .second = some (.ok kernels)) {x : Array E} {chosen id : Nat}
    (output : t.outputs[chosen]? = some id) (finite : m.FiniteAt x chosen) (size : x.size = t.inputCount)
    (within : max t.inputCount 1 * max t.inputCount 1 ≤ CompiledModel.entryLimit) :
    ∃ H, (CompiledModel.hessian ⟨kernels.artifact⟩ x chosen).run = some (.ok H) ∧
      H.HasShape t.inputCount t.inputCount ∧
        ∀ i j : Nat, i < t.inputCount → j < t.inputCount → ∃ v, H.get? i j = some v ∧ isFinite v = true ∧
          value v = ((((t.expression id).map value).derivBy Predecessor.words.before i).derivBy
            Predecessor.words.before j).eval (x.map value) #[] := by
  obtain ⟨wellFormed, weightless, _⟩ := of_recorded recorded
  obtain ⟨other, same, synthesized, valid⟩ := exists_recorded_of_kernels made
  cases recorded.symm.trans same
  obtain ⟨_, _, _, _, _, _, outputSize, order, _⟩ := KernelSet.of_synthesize_second wellFormed synthesized
  have inputSize := KernelSet.inputSize_of_synthesize wellFormed synthesized valid
  obtain ⟨entries, filled, entry⟩ := KernelSet.exists_hessian wellFormed weightless synthesized inputSize output
    (finite t recorded) size (CompiledModel.wordProduct_eq_of_le within)
  have inside : chosen < t.outputs.length := (List.getElem?_eq_some_iff.mp output).1
  rw [← inputSize] at size within
  rw [← outputSize] at inside
  have run : (CompiledModel.hessian ⟨kernels.artifact⟩ x chosen).run =
      some (.ok ⟨kernels.inputSize, kernels.inputSize, entries⟩) :=
    CompiledModel.run_hessian_eq_some_ok_iff.mpr ⟨order, size, inside, within, entries, filled, rfl⟩
  have shape := (CompiledModel.of_run_hessian kernels.artifact_inPlace run).2.1
  change Matrix.HasShape kernels.inputSize kernels.inputSize _ at shape
  rw [inputSize] at run shape
  refine ⟨_, run, shape, fun i j row column => ?_⟩
  obtain ⟨v, found, known⟩ := entry i j row column
  exact ⟨v, by rw [Matrix.get?, if_pos column, found], known⟩

/-- The Hessian of one output is that of the model with this output alone. -/
theorem hessian_apart {m : Model E} {full single : KernelSet E} {k y : Nat} (chosen : m.outputs[k]? = some y)
    (made : m.kernels .second = some (.ok full))
    (alone : ({ m with outputs := [y] } : Model E).kernels .second = some (.ok single)) {x : Array E}
    (finite : m.FiniteAt x k) (finiteAlone : ({ m with outputs := [y] } : Model E).FiniteAt x 0) {H : Matrix E}
    (run : (CompiledModel.hessian ⟨single.artifact⟩ x 0).run = some (.ok H)) :
    ∃ G, (CompiledModel.hessian ⟨full.artifact⟩ x k).run = some (.ok G) ∧
      Matrix.SameValues x.size x.size H G := by
  obtain ⟨t, recorded, _⟩ := exists_recorded_of_kernels made
  obtain ⟨s, recordedAlone, synthesized, valid⟩ := exists_recorded_of_kernels alone
  obtain ⟨nodes, inputs, id, output, outputAlone⟩ := recorded_alone chosen recorded recordedAlone
  -- the sizes are right for both models, since they are for the single output
  obtain ⟨_, size, _, within, _⟩ := CompiledModel.run_hessian_eq_some_ok_iff.mp run
  have inputSize := KernelSet.inputSize_of_synthesize (of_recorded recordedAlone).1 synthesized valid
  change x.size = single.inputSize at size
  change max single.inputSize 1 * max single.inputSize 1 ≤ CompiledModel.entryLimit at within
  rw [inputSize] at size within
  obtain ⟨again, same, shape, entry⟩ :=
    exists_hessian recordedAlone alone outputAlone finiteAlone size within
  obtain rfl : H = again := by simpa using run.symm.trans same
  rw [inputs] at size within shape entry
  obtain ⟨G, returned, shapeFull, entryFull⟩ := exists_hessian recorded made output finite size within
  rw [size]
  refine ⟨G, returned, shape, shapeFull, fun i j row column => ?_⟩
  obtain ⟨u, found, finite, value⟩ := entry i j row column
  obtain ⟨v, foundFull, finiteFull, valueFull⟩ := entryFull i j row column
  refine ⟨u, v, found, foundFull, finite, finiteFull, ?_⟩
  rw [value, valueFull, Trace.expression_congr nodes]

def squareAndReciprocal : Model ExtendedRational where
  input := [.number 1]
  body := [.binary .mul 0 0, .constBinary .div (.number 1) 0]
  outputs := [1, 2]

theorem hessian_apart_squareAndReciprocal :
    squareAndReciprocal.outputs[0]? = some 1 ∧
      squareAndReciprocal.FiniteAt #[.number 2] 0 ∧
      ({ squareAndReciprocal with outputs := [1] } : Model ExtendedRational).FiniteAt #[.number 2] 0 ∧
      ∃ full single G, squareAndReciprocal.kernels .second = some (.ok full) ∧
        ({ squareAndReciprocal with outputs := [1] } : Model ExtendedRational).kernels .second =
          some (.ok single) ∧
        (CompiledModel.hessian ⟨single.artifact⟩ #[.number 2] 0).run = some (.ok ⟨1, 1, #[.number 2]⟩) ∧
        (CompiledModel.hessian ⟨full.artifact⟩ #[.number 2] 0).run = some (.ok G) ∧
        Matrix.SameValues 1 1 ⟨1, 1, #[.number 2]⟩ G := by
  have recorded : squareAndReciprocal.recorded = .ok (.ok {
      nodes := #[.input 0, .binary .mul 0 0, .const (.number 1), .binary .div 2 0]
      inputCount := 1
      weightCount := 0
      outputs := [1, 3] }) := by decide +kernel
  have recordedAlone : ({ squareAndReciprocal with outputs := [1] } : Model ExtendedRational).recorded = .ok (.ok {
      nodes := #[.input 0, .binary .mul 0 0, .const (.number 1), .binary .div 2 0]
      inputCount := 1
      weightCount := 0
      outputs := [1] }) := by decide +kernel
  have finite : squareAndReciprocal.FiniteAt #[.number 2] 0 := by
    intro t same
    obtain ⟨wellFormed, weightless, _⟩ := of_recorded same
    cases recorded.symm.trans same
    exact Trace.twiceFinite_of_isTwiceFinite wellFormed weightless (by decide +kernel)
  have finiteAlone : ({ squareAndReciprocal with outputs := [1] } : Model ExtendedRational).FiniteAt #[.number 2] 0 := by
    intro t same
    obtain ⟨wellFormed, weightless, _⟩ := of_recorded same
    cases recordedAlone.symm.trans same
    exact Trace.twiceFinite_of_isTwiceFinite wellFormed weightless (by decide +kernel)
  obtain ⟨full, made, _⟩ := exists_kernels_of_check (m := squareAndReciprocal) (p := fun _ => true)
    (by decide +kernel)
  obtain ⟨single, alone, run⟩ := exists_kernels_of_check
    (m := { squareAndReciprocal with outputs := [1] })
    (p := fun k => (CompiledModel.hessian ⟨k.artifact⟩ #[.number 2] 0).run = some (.ok ⟨1, 1, #[.number 2]⟩))
    (by decide +kernel)
  rw [decide_eq_true_eq] at run
  obtain ⟨G, returned, same⟩ := hessian_apart (k := 0) rfl made alone finite finiteAlone run
  exact ⟨rfl, finite, finiteAlone, full, single, G, made, alone, run, returned, same⟩

/-- At zero the reciprocal has no finite derivatives, and the Hessian of the square is not what it is alone. -/
theorem hessian_not_apart :
    ∃ full single, squareAndReciprocal.kernels .second = some (.ok full) ∧
      ({ squareAndReciprocal with outputs := [1] } : Model ExtendedRational).kernels .second =
        some (.ok single) ∧
      (CompiledModel.hessian ⟨single.artifact⟩ #[.number 0] 0).run = some (.ok ⟨1, 1, #[.number 2]⟩) ∧
      (CompiledModel.hessian ⟨full.artifact⟩ #[.number 0] 0).run = some (.ok ⟨1, 1, #[.nan]⟩) ∧
      ¬Matrix.SameValues 1 1 ⟨1, 1, #[.number 2]⟩ (⟨1, 1, #[.nan]⟩ : Matrix ExtendedRational) := by
  obtain ⟨full, made, run⟩ := exists_kernels_of_check (m := squareAndReciprocal)
    (p := fun k => (CompiledModel.hessian ⟨k.artifact⟩ #[.number 0] 0).run = some (.ok ⟨1, 1, #[.nan]⟩))
    (by decide +kernel)
  obtain ⟨single, alone, runAlone⟩ := exists_kernels_of_check
    (m := { squareAndReciprocal with outputs := [1] })
    (p := fun k => (CompiledModel.hessian ⟨k.artifact⟩ #[.number 0] 0).run = some (.ok ⟨1, 1, #[.number 2]⟩))
    (by decide +kernel)
  rw [decide_eq_true_eq] at run runAlone
  refine ⟨full, single, made, alone, runAlone, run, fun ⟨_, _, same⟩ => ?_⟩
  obtain ⟨u, v, _, second, _, finite, _⟩ := same 0 0 (by decide) (by decide)
  cases second
  cases finite

end Model

end AutoDiff
