import AutoDiff.Proofs.RecordedModels
import AutoDiff.Proofs.Synthesis
import Mathlib.Algebra.BigOperators.Fin
import Mathlib.Algebra.Field.Rat

namespace AutoDiff

theorem flatMap_rows_getElem? {β γ : Type} (items : List β) (count : Nat) (f : β → Nat → γ) {i j : Nat}
    (row : i < items.length) (column : j < count) :
    (items.flatMap fun item => (List.range count).map (f item))[i * count + j]? = some (f items[i] j) := by
  induction items generalizing i with
  | nil => simp at row
  | cons item items ih =>
      rw [List.flatMap_cons]
      cases i with
      | zero =>
          rw [List.getElem?_append_left (by simpa using column)]
          simp [column]
      | succ i =>
          have place : (i + 1) * count + j = count + (i * count + j) := by
            rw [Nat.succ_mul]
            omega
          rw [List.getElem?_append_right (by simp [place]), place]
          simpa using ih (by simpa using row)

theorem sum_of_indicator {F : Type} [Field F] {size chosen : Nat} (inside : chosen < size) {w : Array F}
    (indicator : ∀ y : Nat, y < size → w[y]? = some (if y = chosen then 1 else 0)) (f : Fin size → F) :
    ∑ y : Fin size, w.getD y 0 * f y = f ⟨chosen, inside⟩ := by
  have weight (y : Fin size) : w.getD y 0 = if y = ⟨chosen, inside⟩ then 1 else 0 := by
    rw [Array.getD_eq_getD_getElem?, indicator y y.isLt, Option.getD_some]
    simp [Fin.ext_iff]
  simp only [weight, ite_mul, one_mul, zero_mul, Finset.sum_ite_eq', Finset.mem_univ, if_true]

namespace Expression

variable {F : Type} [Field F] [FieldArithmetic F] (x w : Array F)

def Class.eval : Class F →+* F where
  toFun := Quotient.lift (Expression.eval x w) fun _ _ same => eval_eq_of_equiv same x w
  map_zero' := rfl
  map_one' := rfl
  map_add' a b := by
    induction a using Class.ind with | _ a => induction b using Class.ind with | _ b =>
    exact FieldArithmetic.add_eq _ _
  map_mul' a b := by
    induction a using Class.ind with | _ a => induction b using Class.ind with | _ b =>
    exact FieldArithmetic.mul_eq _ _

@[simp] theorem Class.eval_toClass (a : Expression F) : Class.eval x w (toClass a) = a.eval x w := rfl

theorem Class.eval_weighted (α : Type) [Arithmetic α] [Reading α F] {β : Type} (items : List β)
    (f : β → Class F) : Class.eval x w (weighted α (items.map f)) =
      ∑ k : Fin items.length, w.getD k 0 * Class.eval x w (f items[k]) := by
  have terms : (items.map f).zipIdx.map (fun (y, k) => Interpretation.weight α k * y) =
      List.ofFn fun k : Fin items.length => Interpretation.weight α k * f items[k] := by
    apply List.ext_getElem
    · simp
    · simp
  rw [weighted, terms, List.sum_ofFn, map_sum]
  refine Finset.sum_congr rfl fun k _ => ?_
  rw [map_mul]
  rfl

end Expression

open Expression

variable {F : Type} [Field F] [FieldArithmetic F]

theorem Trace.interpret_eq_toClass (t : Trace F) (id : Nat) :
    t.interpret (Class F) id = toClass (t.expression id) :=
  interpret_class _

/-- A kernel evaluates to the values of its outputs. -/
theorem Trace.Computes.evaluate {u : Trace F} {inputs weights : Nat} {xs : List (Class F)}
    (computes : u.Computes inputs weights xs) {z w : Array F} (size : z.size = inputs)
    (weightSize : w.size = weights) :
    u.evaluate z w = some (.ok (xs.map (Class.eval z w)).toArray) := by
  rw [evaluate_eq computes.wellFormed (size.trans computes.inputCount.symm)
    (weightSize.trans computes.weightCount.symm), ← computes.outputs, List.map_map]
  simp [Function.comp_def, interpret_eq_toClass]

theorem Trace.Computes.evaluate_second {t u : Trace F} (computes : u.Computes t.inputCount t.outputs.length
      ((List.range t.inputCount).flatMap fun i => (List.range t.inputCount).map fun j =>
        weighted F ((t.outputs.map (t.interpret (Class F))).map fun y =>
          Differential.deriv F j (Differential.deriv F i y)))) {z w : Array F} (size : z.size = t.inputCount)
    (weightSize : w.size = t.outputs.length) :
    ∃ entries, u.evaluate z w = some (.ok entries) ∧ entries.size = t.inputCount * t.inputCount ∧
      ∀ i j : Nat, i < t.inputCount → j < t.inputCount →
        entries[i * t.inputCount + j]? = some (∑ y : Fin t.outputs.length,
          w.getD y 0 * (((t.expression t.outputs[y]).deriv i).deriv j).eval z w) := by
  refine ⟨_, computes.evaluate size weightSize, by simp [List.length_flatMap, Function.comp_def], ?_⟩
  intro i j row column
  have entry := flatMap_rows_getElem? (List.range t.inputCount) t.inputCount (fun i j =>
    weighted F ((t.outputs.map (t.interpret (Class F))).map fun y =>
      Differential.deriv F j (Differential.deriv F i y))) (by simpa using row) column
  rw [List.getElem?_toArray, List.getElem?_map, entry, Option.map_some, List.getElem_range, List.map_map,
    Class.eval_weighted]
  simp only [Function.comp_apply, t.interpret_eq_toClass, deriv_toClass, Class.eval_toClass]

namespace KernelSet

/-- The kernels calculate the outputs of a trace, and for an order their symbolic derivatives. The trace
reads no weights; those of the Hessian multiply the second derivatives of the outputs, the first of which
is taken with respect to the input of the row. -/
structure Differentiates (k : KernelSet F) (t : Trace F) (wanted : Order) : Prop where
  inputSize : k.inputSize = t.inputCount
  outputSize : k.outputSize = t.outputs.length
  order : k.order = wanted
  forward : ∀ z : Array F, z.size = t.inputCount →
    k.forward.evaluate z #[] = t.evaluate z #[] ∧
      t.evaluate z #[] = some (.ok (t.outputs.map fun y => (t.expression y).eval z #[]).toArray)
  hasJacobian : k.jacobian.isSome = wanted.includesJacobian
  jacobian : ∀ kernel, k.jacobian = some kernel → ∀ z : Array F, z.size = t.inputCount →
    ∃ entries, kernel.evaluate z #[] = some (.ok entries) ∧
      entries.size = t.outputs.length * t.inputCount ∧
      ∀ (i j : Nat) (row : i < t.outputs.length), j < t.inputCount →
        entries[i * t.inputCount + j]? = some (((t.expression t.outputs[i]).deriv j).eval z #[])
  hasHessian : k.hessian.isSome = wanted.includesHessian
  hessian : ∀ kernel, k.hessian = some kernel → ∀ z w : Array F, z.size = t.inputCount →
    w.size = t.outputs.length → ∃ entries, kernel.evaluate z w = some (.ok entries) ∧
      entries.size = t.inputCount * t.inputCount ∧
      ∀ i j : Nat, i < t.inputCount → j < t.inputCount →
        entries[i * t.inputCount + j]? = some (∑ y : Fin t.outputs.length,
          w.getD y 0 * (((t.expression t.outputs[y]).deriv i).deriv j).eval z w)

theorem Represents.differentiates {k : KernelSet F} {t : Trace F} {parameters : Nat} {order : Order}
    (represents : k.Represents (Class F) t t.inputCount parameters order) (wellFormed : t.WellFormed)
    (weightless : t.weightCount = 0) : k.Differentiates t order := by
  have outputs : t.outputs.map (t.interpret (Class F)) = t.outputs.map fun y => toClass (t.expression y) :=
    List.map_congr_left fun y _ => t.interpret_eq_toClass y
  refine ⟨represents.inputSize, represents.outputSize, represents.order, fun z size => ?_,
    represents.hasJacobian, fun kernel found z size => ?_, represents.hasHessian,
    fun kernel found z w size weightSize => ?_⟩
  · have recorded := Trace.evaluate_eq (w := #[]) wellFormed size weightless.symm
    rw [represents.forward.evaluate size rfl, recorded, outputs, List.map_map]
    exact ⟨rfl, rfl⟩
  · refine ⟨_, (represents.jacobian kernel found).evaluate size rfl, ?_, fun i j row column => ?_⟩
    · simp [List.length_flatMap, Function.comp_def]
    · have entry := flatMap_rows_getElem? (t.outputs.map (t.interpret (Class F))) t.inputCount
        (fun y j => Differential.deriv F j y) (by simpa using row) column
      rw [List.getElem?_toArray, List.getElem?_map, entry, Option.map_some, List.getElem_map,
        t.interpret_eq_toClass, deriv_toClass, Class.eval_toClass]
  · exact (represents.hessian kernel found).evaluate_second size weightSize

end KernelSet

namespace Model

theorem kernels_eq_some_ok_iff {α : Type} [Arithmetic α] [DecidableEq α] {m : Model α} {t : Trace α}
    (recorded : m.recorded = .ok (.ok t)) (order : Order) (k : KernelSet α) : m.kernels order = some (.ok k) ↔
      KernelSet.synthesize (m.input.length + m.parameters.length) m.parameters.length order t = some k ∧
        k.Valid := by
  rw [kernels, recorded, ← KernelSet.validate_eq_ok_iff]
  cases made : KernelSet.synthesize (m.input.length + m.parameters.length) m.parameters.length order t with
  | none => simp [made]
  | some other =>
      cases checked : other.validate with
      | error e =>
          simp only [made, checked, Option.bind_eq_bind, Option.bind_some, Option.pure_def, Except.map,
            Option.some.injEq, reduceCtorEq, false_iff, not_and]
          rintro rfl
          simp [checked]
      | ok =>
          simp only [made, checked, Option.bind_eq_bind, Option.bind_some, Option.pure_def, Except.map,
            Option.some.injEq, Except.ok.injEq]
          constructor
          · rintro rfl
            exact ⟨rfl, checked⟩
          · exact And.left

theorem exists_recorded_of_kernels {α : Type} [Arithmetic α] [DecidableEq α] {m : Model α} {order : Order} {k : KernelSet α}
    (made : m.kernels order = some (.ok k)) :
    ∃ t, m.recorded = .ok (.ok t) ∧
      KernelSet.synthesize (m.input.length + m.parameters.length) m.parameters.length order t = some k ∧
        k.Valid := by
  cases recorded : m.recorded with
  | error fault => simp [kernels, recorded] at made
  | ok outcome =>
      cases outcome with
      | error e => simp [kernels, recorded] at made
      | ok t => exact ⟨t, rfl, (kernels_eq_some_ok_iff recorded order k).mp made⟩

theorem exists_kernels_of_check {α : Type} [Arithmetic α] [DecidableEq α] {m : Model α}
    {p : KernelSet α → Bool} (check : ((m.kernels .second).any fun made => made.toOption.any p) = true) :
    ∃ k, m.kernels .second = some (.ok k) ∧ p k = true := by
  cases made : m.kernels .second with
  | none => simp [made] at check
  | some outcome =>
      cases outcome with
      | error e => simp [made, Except.toOption] at check
      | ok k => exact ⟨k, rfl, by simpa [made, Except.toOption] using check⟩

variable [DecidableEq F]

/-- Whatever a model records with outputs on its own tape, its kernels calculate the recorded outputs and
their derivatives; and it has kernels of every order whose derivatives fit in one list each, unless its
steps declare inputs of their own. -/
theorem kernels_differentiate {m : Model F} {outputs : List (Variable F)} {r : Recording F}
    (run : m.run.run {} = .ok (outputs, r)) (input : m.input ≠ []) (nonempty : outputs ≠ [])
    (main : ∀ v ∈ outputs, v.tape = .main)
    (exponents : ∀ (a : Nat) (exponent : Int32), Step.power a exponent ∈ m.body →
      Int32.minValue.toInt + 2 ≤ exponent.toInt) (order : Order) :
    ∃ t : Trace F, m.recorded = .ok (.ok t) ∧ t = { r.main with outputs := outputs.map Variable.id } ∧
      (t.inputCount = m.input.length + m.parameters.length →
        (order.includesJacobian = true → t.outputs.length * t.inputCount < listLimit) →
        (order.includesHessian = true → t.inputCount * t.inputCount < listLimit) →
        ∃ k, m.kernels order = some (.ok k)) ∧
      ∀ k, m.kernels order = some (.ok k) →
        k.Differentiates t order ∧ k.parameterSize = m.parameters.length := by
  obtain ⟨recorded, wellFormed, tape⟩ := exists_recorded
    (P := fun exponent => Int32.minValue.toInt + 2 ≤ exponent.toInt) run input nonempty main exponents
  obtain ⟨t, isTrace⟩ : ∃ t : Trace F, t = { r.main with outputs := outputs.map Variable.id } := ⟨_, rfl⟩
  rw [← isTrace] at recorded wellFormed
  have weightless : t.weightCount = 0 := by rw [isTrace]; exact tape.weightless
  have powers : t.PowersFrom (Int32.minValue.toInt + 2) t.size := by
    intro id base exponent _ found
    rw [isTrace] at found
    exact tape.powers id base exponent found
  have above : (Differential.exponents F (Class F)).least + 1 < Int32.minValue.toInt + 2 :=
    Int.add_lt_add_left (by decide) Int32.minValue.toInt
  refine ⟨t, recorded, isTrace, fun point first second => ?_, fun k made => ?_⟩
  · obtain ⟨k, run, represents⟩ := KernelSet.exists_synthesize (M := Class F) wellFormed weightless
      above powers t.inputCount m.parameters.length order first second
    have valid := represents.valid first second
    exact ⟨k, (kernels_eq_some_ok_iff recorded order k).mpr ⟨point ▸ run, valid⟩⟩
  · obtain ⟨run, valid⟩ := (kernels_eq_some_ok_iff recorded order k).mp made
    obtain ⟨first, second⟩ := KernelSet.room_of_synthesize wellFormed run
    obtain ⟨other, same, represents⟩ := KernelSet.exists_synthesize (M := Class F) wellFormed weightless
      above powers (m.input.length + m.parameters.length) m.parameters.length order first second
    obtain rfl : k = other := Option.some.inj (run.symm.trans same)
    have inputSize := KernelSet.inputSize_of_synthesize wellFormed run valid
    rw [← represents.inputSize, inputSize] at represents
    exact ⟨represents.differentiates wellFormed weightless, represents.parameterSize⟩

instance rationalArithmetic : FieldArithmetic ℚ where
  ofInt n := n
  unary op a := if op = .neg then -a else a
  binary
    | .add, a, b => a + b
    | .sub, a, b => a - b
    | .mul, a, b => a * b
    | .div, a, b => a / b
    | .pow, a, b => a ^ b.num
  power a n := a ^ n.toInt
  equal a b := decide (a = b)
  isPositive a := decide (0 < a)
  wholePower a n := a ^ n
  ofInt_eq _ := rfl
  neg_eq _ := rfl
  add_eq _ _ := rfl
  sub_eq _ _ := rfl
  mul_eq _ _ := rfl
  div_eq _ _ := rfl
  pow_zero a := zpow_zero a
  pow_one a := zpow_one a
  power_eq _ _ := rfl
  wholePower_zero a := zpow_zero a
  wholePower_one a := zpow_one a
  equal_iff _ _ := decide_eq_true_iff

def productAndSquare : Model ℚ where
  input := [2]
  parameters := [3]
  parameterized := true
  body := [.binary .mul 0 1, .power 0 2]
  outputs := [2, 3]

theorem kernels_differentiate_productAndSquare :
    ∃ t k, productAndSquare.kernels .second = some (.ok k) ∧ k.Differentiates t .second := by
  have run : productAndSquare.run.run {} = .ok
      ([⟨.main, 2, 2 * 3⟩, ⟨.main, 3, 2 ^ (2 : Int32).toInt⟩],
        { main := {
            nodes := #[.input 0, .input 1, .binary .mul 0 1, .power 0 2]
            inputCount := 2
            weightCount := 0 }
          recorded := #[⟨.main, 0, 2⟩, ⟨.main, 1, 3⟩, ⟨.main, 2, 2 * 3⟩,
            ⟨.main, 3, 2 ^ (2 : Int32).toInt⟩] }) := rfl
  have exponents : ∀ (a : Nat) (exponent : Int32), Step.power a exponent ∈ productAndSquare.body →
      Int32.minValue.toInt + 2 ≤ exponent.toInt := by
    intro a exponent member
    simp only [productAndSquare, List.mem_cons, List.not_mem_nil, or_false, reduceCtorEq, false_or,
      Step.power.injEq] at member
    obtain ⟨_, rfl⟩ := member
    decide
  obtain ⟨t, _, isTrace, exists_kernels, differentiate⟩ :=
    kernels_differentiate run (by simp [productAndSquare]) (by simp) (by simp) exponents .second
  obtain ⟨k, made⟩ := exists_kernels (by rw [isTrace]; decide) (by rw [isTrace]; decide) (by rw [isTrace]; decide)
  exact ⟨t, k, made, (differentiate k made).1⟩

end Model

end AutoDiff
