import AutoDiff.Proofs.FiniteHessian
import AutoDiff.Proofs.KernelValues
import AutoDiff.Proofs.Parameters

namespace AutoDiff

open Expression

namespace Trace

variable {F : Type} [Field F] [FieldArithmetic F]

def weightedSecond (t : Trace F) (x w : Array F) (i j : Nat) : F :=
  ∑ k : Fin t.outputs.length, w.getD k 0 * (((t.expression t.outputs[k]).deriv i).deriv j).eval x #[]

theorem weightedSecond_linear (t : Trace F) (x : Array F) {v w : Array F} (first : v.size = t.outputs.length)
    (second : w.size = t.outputs.length) (c d : F) (i j : Nat) :
    t.weightedSecond x (Array.zipWith (fun a b => c * a + d * b) v w) i j =
      c * t.weightedSecond x v i j + d * t.weightedSecond x w i j := by
  have weight (k : Fin t.outputs.length) : (Array.zipWith (fun a b => c * a + d * b) v w).getD k 0 =
      c * v.getD k 0 + d * w.getD k 0 := by
    have inFirst : k < v.size := by omega
    have inSecond : k < w.size := by omega
    simp [Array.getD_eq_getD_getElem?, inFirst, inSecond]
  unfold weightedSecond
  rw [Finset.mul_sum, Finset.mul_sum, ← Finset.sum_add_distrib]
  apply Finset.sum_congr rfl
  intro k _
  rw [weight]
  ring

theorem weightedSecond_oneHot (t : Trace F) (x : Array F) {k : Nat} (inside : k < t.outputs.length) (i j : Nat) :
    t.weightedSecond x (CompiledModel.oneHot t.outputs.length k) i j =
      (((t.expression t.outputs[k]).deriv i).deriv j).eval x #[] := by
  apply sum_of_indicator inside
  intro y less
  rw [CompiledModel.getElem?_oneHot less, FieldArithmetic.ofInt_eq]
  split <;> simp

/-- A well-formed trace whose outputs are the weighted second derivatives of the outputs of `t`, row by row. They are
linear in the weights, and those of one output alone are its second derivatives. -/
structure SumsSecond (t u : Trace F) : Prop where
  verified : u.verify = .ok ()
  inputCount : u.inputCount = t.inputCount
  weightCount : u.weightCount = t.outputs.length
  length : u.outputs.length = t.inputCount * t.inputCount
  sums : ∀ x w : Array F, x.size = t.inputCount → w.size = t.outputs.length →
    ∃ entries, u.evaluate x w = some (.ok entries) ∧ entries.size = t.inputCount * t.inputCount ∧
      ∀ i j : Nat, i < t.inputCount → j < t.inputCount →
        entries[i * t.inputCount + j]? = some (t.weightedSecond x w i j)
  linear : ∀ (x v w : Array F) (c d : F), x.size = t.inputCount → v.size = t.outputs.length →
    w.size = t.outputs.length → ∃ first second, u.evaluate x v = some (.ok first) ∧
      u.evaluate x w = some (.ok second) ∧
      u.evaluate x (Array.zipWith (fun a b => c * a + d * b) v w) =
        some (.ok (Array.zipWith (fun a b => c * a + d * b) first second))
  single : ∀ (x : Array F) (k : Nat) (inside : k < t.outputs.length), x.size = t.inputCount →
    ∃ entries, u.evaluate x (CompiledModel.oneHot t.outputs.length k) = some (.ok entries) ∧
      entries.size = t.inputCount * t.inputCount ∧
      ∀ i j : Nat, i < t.inputCount → j < t.inputCount →
        entries[i * t.inputCount + j]? = some ((((t.expression t.outputs[k]).deriv i).deriv j).eval x #[])

theorem ext_of_square {β : Type} {size : Nat} {first second : Array β} (one : first.size = size * size)
    (two : second.size = size * size)
    (same : ∀ i j : Nat, i < size → j < size → first[i * size + j]? = second[i * size + j]?) : first = second := by
  apply Array.ext_getElem?
  intro slot
  rcases Nat.lt_or_ge slot (size * size) with inside | outside
  · have positive : 0 < size := Nat.pos_of_lt_mul_right inside
    have row : slot / size < size := Nat.div_lt_of_lt_mul inside
    have column : slot % size < size := Nat.mod_lt slot positive
    have place := same (slot / size) (slot % size) row column
    rwa [Nat.div_add_mod'] at place
  · rw [Array.getElem?_eq_none (by omega), Array.getElem?_eq_none (by omega)]

theorem SumsSecond.of_sums {t u : Trace F} (verified : u.verify = .ok ()) (inputCount : u.inputCount = t.inputCount)
    (weightCount : u.weightCount = t.outputs.length) (length : u.outputs.length = t.inputCount * t.inputCount)
    (sums : ∀ x w : Array F, x.size = t.inputCount → w.size = t.outputs.length →
      ∃ entries, u.evaluate x w = some (.ok entries) ∧ entries.size = t.inputCount * t.inputCount ∧
        ∀ i j : Nat, i < t.inputCount → j < t.inputCount →
          entries[i * t.inputCount + j]? = some (t.weightedSecond x w i j)) : t.SumsSecond u where
  verified := verified
  inputCount := inputCount
  weightCount := weightCount
  length := length
  sums := sums
  linear x v w c d size firstSize secondSize := by
    obtain ⟨first, one, oneSize, eachFirst⟩ := sums x v size firstSize
    obtain ⟨second, two, twoSize, eachSecond⟩ := sums x w size secondSize
    obtain ⟨sum, three, threeSize, eachSum⟩ := sums x (Array.zipWith (fun a b => c * a + d * b) v w) size
      (by simp [firstSize, secondSize])
    refine ⟨first, second, one, two, ?_⟩
    rw [three]
    congr 2
    apply ext_of_square threeSize (by simp [oneSize, twoSize])
    intro i j row column
    rw [eachSum i j row column, Array.getElem?_zipWith, eachFirst i j row column, eachSecond i j row column,
      weightedSecond_linear t x firstSize secondSize]
  single x k inside size := by
    obtain ⟨entries, evaluated, entriesSize, each⟩ := sums x (CompiledModel.oneHot t.outputs.length k) size
      (by simp [CompiledModel.oneHot])
    refine ⟨entries, evaluated, entriesSize, ?_⟩
    intro i j row column
    rw [each i j row column, weightedSecond_oneHot t x inside]

/-- The trace of second derivatives is made unless its lists are too long, and it calculates the weighted sums of the
symbolic second derivatives of what the outputs stand for. -/
theorem hessian_sumsSecond {t : Trace F} (verified : t.verify = .ok ()) (weightless : t.weightCount = 0)
    (exponents : ∀ (id base : Nat) (exponent : Int32), t.nodes[id]? = some (.power base exponent : Node F) →
      Int32.minValue.toInt + 2 ≤ exponent.toInt) :
    ((∃ u, t.hessian = some u) ↔ t.inputCount * t.inputCount < listLimit) ∧ ∀ u, t.hessian = some u → t.SumsSecond u := by
  have wellFormed := t.verify_eq_ok_iff.mp verified
  have powers : t.PowersFrom (Int32.minValue.toInt + 2) t.size :=
    fun id base exponent _ found => exponents id base exponent found
  have above : (Differential.exponents F (Class F)).least + 1 < Int32.minValue.toInt + 2 :=
    Int.add_lt_add_left (by decide) Int32.minValue.toInt
  constructor
  · exact exists_hessian_iff wellFormed weightless above powers
  · intro u run
    have room := (hessian_eq_some_iff.mp run).1
    obtain ⟨_, same, wellFormedU, inputCount, weightCount, outputs⟩ :=
      exists_hessian (M := Class F) wellFormed weightless room above powers
    obtain rfl := Option.some.inj (run.symm.trans same)
    have length : u.outputs.length = t.inputCount * t.inputCount := by
      simpa [List.length_flatMap, Function.comp_def] using congrArg List.length outputs
    apply SumsSecond.of_sums (u.verify_eq_ok_iff.mpr wellFormedU) inputCount weightCount length
    intro x w inputs weights
    obtain ⟨entries, evaluated, size, each⟩ := Computes.evaluate_second
      ⟨wellFormedU, inputCount, weightCount, outputs⟩ inputs weights
    refine ⟨entries, evaluated, size, ?_⟩
    intro i j row column
    rw [each i j row column]
    congr 1
    apply Finset.sum_congr rfl
    intro k _
    have plain : (t.expression t.outputs[k]).Weightless := weightless_expression wellFormed.toConsistent weightless
    rw [← derivBy_sub_one j, ← derivBy_sub_one i]
    rw [eval_weightless ((plain.derivBy i).derivBy j) x w #[]]

def productCubeQuotient : Trace ℚ where
  nodes := #[.input 0, .input 1, .binary .mul 0 1, .power 0 3, .binary .div 1 0]
  inputCount := 2
  weightCount := 0
  outputs := [2, 3, 4]

theorem hessian_sumsSecond_productCubeQuotient : productCubeQuotient.verify = .ok () ∧
    ∃ u, productCubeQuotient.hessian = some u ∧ productCubeQuotient.SumsSecond u ∧
      u.evaluate #[2, 3] #[5, 7, 8] = some (.ok #[90, 3, 3, 0]) := by
  have verified : productCubeQuotient.verify = .ok () := by decide +kernel
  obtain ⟨made, each⟩ := hessian_sumsSecond verified rfl (exponents_of_all (by decide +kernel))
  obtain ⟨u, run⟩ := made.mpr (by decide)
  refine ⟨verified, u, run, each u run, ?_⟩
  have evaluation : (productCubeQuotient.hessian.bind fun u => u.evaluate #[2, 3] #[5, 7, 8]) =
      some (.ok #[90, 3, 3, 0]) := by decide +kernel
  rwa [run] at evaluation

end Trace

end AutoDiff
