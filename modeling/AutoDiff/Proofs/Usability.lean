import AutoDiff.CompiledModel
import AutoDiff.Proofs.Evaluation
import AutoDiff.Proofs.Jobs
import AutoDiff.Proofs.Validation
import Mathlib.Algebra.Group.Nat.Defs

namespace AutoDiff

/-- Errors that say what is wrong with a call. All others are faults of the kernels. -/
def EvalError.Documented : EvalError → Prop
  | inputTooSmall .. | inputTooLarge .. | derivativeUnavailable .. | outputDimOutOfRange .. => True
  | bufferLength .. | trace _ | shape .. => False

namespace Matrix

variable {α : Type}

def HasShape (rows columns : Nat) (m : Matrix α) : Prop :=
  m.rows = rows ∧ m.columns = columns ∧ m.entries.size = rows * columns

theorem length_row {m : Matrix α} {rows columns i : Nat} (shape : m.HasShape rows columns) (less : i < rows) :
    (m.row i).length = columns := by
  obtain ⟨_, width, size⟩ := shape
  have room : (i + 1) * columns ≤ rows * columns := Nat.mul_le_mul_right columns less
  rw [Nat.succ_mul] at room
  simp only [row, width, List.length_take, List.length_drop, Array.length_toList, size]
  omega

theorem hasShape_block {m : Matrix α} {rows columns height width : Nat} (shape : m.HasShape rows columns)
    (low : height ≤ rows) (narrow : width ≤ columns) : (m.block height width).HasShape height width := by
  have each (i : Nat) (member : i ∈ List.range height) : ((m.row i).take width).length = width := by
    have less := List.mem_range.mp member
    rw [List.length_take, length_row shape (by omega)]
    omega
  have lengths : (List.range height).map (fun i => ((m.row i).take width).length) =
      (List.range height).map fun _ => width := List.map_congr_left each
  constructor
  · rfl
  constructor
  · rfl
  simp only [block, List.size_toArray, List.length_flatMap, lengths]
  simp

end Matrix

namespace CompiledModel

variable {α β γ : Type}

def lengthError? (m : CompiledModel α) (found : Nat) : Option EvalError :=
  if found < m.inputSize then some (.inputTooSmall m.inputSize found)
  else if m.inputSize < found then some (.inputTooLarge m.inputSize found)
  else none

def jacobianError? (m : CompiledModel α) (found : Nat) : Option EvalError :=
  if m.order = .zeroth then some (.derivativeUnavailable "jacobian" .first m.order)
  else m.lengthError? found

def hessianError? (m : CompiledModel α) (found outputDim : Nat) : Option EvalError :=
  if m.order ≠ .second then some (.derivativeUnavailable "hessian" .second m.order)
  else (m.lengthError? found).or
    (if outputDim < m.outputSize then none else some (.outputDimOutOfRange outputDim m.outputSize))

def Ends (calculation : Evaluation β) (error? : Option EvalError) (Right : β → Prop) : Prop :=
  match error? with
  | some e => e.Documented ∧ calculation.run = some (.error e)
  | none => ∃ result, calculation.run = some (.ok result) ∧ Right result

/-- All calls end as their arguments call for. -/
structure Usable [Arithmetic α] (m : CompiledModel α) : Prop where
  evaluate : ∀ x, Ends (m.evaluate x) (m.lengthError? x.size) fun y => y.size = m.outputSize
  evaluateWith : ∀ x p, Ends (m.evaluateWith x p) (m.lengthError? (x.size + p.size))
    fun y => y.size = m.outputSize
  jacobian : ∀ x, Ends (m.jacobian x) (m.jacobianError? x.size) (Matrix.HasShape m.outputSize m.inputSize)
  jacobianWith : ∀ x p, Ends (m.jacobianWith x p) (m.jacobianError? (x.size + p.size))
    (Matrix.HasShape m.outputSize x.size)
  hessian : ∀ x outputDim, Ends (m.hessian x outputDim) (m.hessianError? x.size outputDim)
    (Matrix.HasShape m.inputSize m.inputSize)
  hessianWith : ∀ x p outputDim, Ends (m.hessianWith x p outputDim)
    (m.hessianError? (x.size + p.size) outputDim) (Matrix.HasShape x.size x.size)

theorem run_bind_of_ok {filled : Filled α} {result : Array α} (done : filled = some (.ok result))
    (next : Array α → Evaluation β) : ((.mk filled : Evaluation (Array α)) >>= next).run = (next result).run := by
  rw [done]
  rfl

theorem ends_map {calculation : Evaluation β} {error? : Option EvalError} {Right : β → Prop}
    (ends : Ends calculation error? Right) (f : β → γ) {After : γ → Prop}
    (right : ∀ result, Right result → After (f result)) :
    Ends (do return f (← calculation)) error? After := by
  cases error? with
  | some e =>
      obtain ⟨documented, run⟩ := ends
      exact ⟨documented, by rw [ExceptT.run_bind, run]; rfl⟩
  | none =>
      obtain ⟨result, run, correct⟩ := ends
      exact ⟨f result, by rw [ExceptT.run_bind, run]; rfl, right result correct⟩

theorem ends_check {checks : Except EvalError Unit} {next : Evaluation β} {error? : Option EvalError}
    {Right : β → Prop} (failed : ∀ e, checks = .error e → error? = some e ∧ e.Documented)
    (passed : checks = .ok () → Ends next error? Right) : Ends (do check checks; next) error? Right := by
  cases result : checks with
  | error e =>
      obtain ⟨same, documented⟩ := failed e result
      rw [same]
      exact ⟨documented, rfl⟩
  | ok => exact passed result

theorem ends_checkInputSize {m : CompiledModel α} {found : Nat} {next : Evaluation β}
    {last? : Option EvalError} {Right : β → Prop}
    (passed : found = m.inputSize → Ends next last? Right) :
    Ends (do check (m.checkInputSize found); next) ((m.lengthError? found).or last?) Right := by
  unfold checkInputSize lengthError?
  rcases Nat.lt_trichotomy found m.inputSize with less | same | more
  · simp only [less, if_true, Option.some_or]
    exact ⟨trivial, rfl⟩
  · simp only [same, Nat.lt_irrefl, if_false, Option.none_or]
    exact passed same
  · simp only [more, Nat.lt_asymm more, if_true, if_false, Option.some_or]
    exact ⟨trivial, rfl⟩

theorem shape_eq_ok {rows columns : Nat} (entries : Array α) (tall : rows < 2 ^ 63) (wide : columns < 2 ^ 63)
    (product : rows * columns < 2 ^ 63) : shape rows columns entries = .ok ⟨rows, columns, entries⟩ := by
  have within : max rows 1 * max columns 1 ≤ entryLimit := by
    have limit : entryLimit = 2 ^ 63 - 1 := by decide
    rcases Nat.eq_zero_or_pos rows with none | some
    · rw [none, Nat.max_eq_right (Nat.zero_le 1), Nat.one_mul]
      omega
    rcases Nat.eq_zero_or_pos columns with empty | full
    · rw [empty, Nat.max_eq_right (Nat.zero_le 1), Nat.mul_one]
      omega
    rw [Nat.max_eq_left some, Nat.max_eq_left full]
    omega
  rw [shape, if_pos within]

theorem ends_jacobian {m : CompiledModel α} {found : Nat} {next : Evaluation β} {Right : β → Prop}
    (passed : m.order ≠ .zeroth → found = m.inputSize → Ends next none Right) :
    Ends (do check (m.require .first "jacobian"); check (m.checkInputSize found); next)
      (m.jacobianError? found) Right := by
  unfold jacobianError?
  by_cases low : m.order = .zeroth
  · rw [if_pos low]
    apply ends_check
    · intro e failed
      rw [require, low, if_neg (by decide)] at failed
      cases failed
      exact ⟨by rw [low], trivial⟩
    · intro accepted
      rw [require, low, if_neg (by decide)] at accepted
      cases accepted
  · rw [if_neg low]
    apply ends_check
    · intro e failed
      have enough : Order.first ≤ m.order := by
        revert low
        cases m.order <;> decide
      rw [require, if_pos enough] at failed
      cases failed
    · intro _
      rw [← Option.or_none (o := m.lengthError? found)]
      exact ends_checkInputSize (passed low)

theorem ends_hessian {m : CompiledModel α} {found outputDim : Nat} {next : Evaluation β} {Right : β → Prop}
    (passed : m.order = .second → found = m.inputSize →
      Ends next (if outputDim < m.outputSize then none else some (.outputDimOutOfRange outputDim m.outputSize))
        Right) :
    Ends (do check (m.require .second "hessian"); check (m.checkInputSize found); next)
      (m.hessianError? found outputDim) Right := by
  unfold hessianError?
  by_cases high : m.order = .second
  · rw [if_neg (not_not_intro high)]
    apply ends_check
    · intro e failed
      rw [require, high, if_pos (by decide)] at failed
      cases failed
    · intro _
      exact ends_checkInputSize (passed high)
  · rw [if_pos high]
    have few : ¬Order.second ≤ m.order := by
      revert high
      cases m.order <;> decide
    apply ends_check
    · intro e failed
      rw [require, if_neg few] at failed
      cases failed
      exact ⟨rfl, trivial⟩
    · intro accepted
      rw [require, if_neg few] at accepted
      cases accepted

end CompiledModel

theorem wordProduct_eq {m n : Nat} (product : m * n < 2 ^ 63) : wordProduct m n = m * n :=
  wordProduct_of_lt (Nat.lt_trans product (by decide))

namespace KernelSet

open CompiledModel

variable {α : Type} [Arithmetic α]

theorem exists_fill_of_fits {t : Trace α} {inputs weights results : Nat} (fits : t.Fits inputs weights results)
    {x w buffer : Array α} (sizeX : x.size = inputs) (sizeW : w.size = weights)
    (size : buffer.size = results) : ∃ y, fill t x w buffer = some (.ok y) ∧ y.size = results := by
  obtain ⟨wellFormed, rfl, rfl, rfl⟩ := fits
  obtain ⟨_, y, evaluated, _, picked⟩ := Trace.exists_evaluateInto wellFormed sizeX sizeW size
  exact ⟨y, by rw [fill, evaluated]; rfl, picked.1⟩

theorem exists_guarded {t : Trace α} {inputs weights results : Nat} (fits : t.Fits inputs weights results)
    {x w buffer : Array α} (sizeX : x.size = inputs) (sizeW : w.size = weights) (size : buffer.size = results)
    {checks : Except EvalError Unit} (passed : checks = .ok ()) :
    ∃ y, Artifact.guarded checks (fill t x w buffer) = some (.ok y) ∧ y.size = results := by
  rw [passed]
  exact exists_fill_of_fits fits sizeX sizeW size

variable {k : KernelSet α}

theorem exists_forward (valid : k.Valid) {x : Array α} (size : x.size = k.inputSize) :
    ∃ y, k.artifact.forward x (zeros k.outputSize) = some (.ok y) ∧ y.size = k.outputSize := by
  apply exists_guarded valid.forward size (w := #[]) rfl (by simp [zeros])
  simp [Artifact.checkBuffer, zeros, size, bind, Except.bind]

theorem ends_fullJacobian (valid : k.Valid) (product : k.outputSize * k.inputSize < 2 ^ 63)
    (tall : k.outputSize < 2 ^ 63) (wide : k.inputSize < 2 ^ 63) (order : k.order ≠ .zeroth) {x : Array α}
    (size : x.size = k.inputSize) :
    Ends (fullJacobian ⟨k.artifact⟩ x) none (Matrix.HasShape k.outputSize k.inputSize) := by
  have present : k.jacobian.isSome = true := by
    rw [valid.hasJacobian]
    revert order
    cases k.order <;> decide
  obtain ⟨t, found⟩ := Option.isSome_iff_exists.mp present
  have fits := valid.jacobian t found
  have filled : ∃ y, k.artifact.jacobian x (zeros (wordProduct k.outputSize k.inputSize)) = some (.ok y) ∧
      y.size = wordProduct k.outputSize k.inputSize := by
    simp only [artifact, found]
    apply exists_guarded fits size (w := #[]) rfl (by simp [zeros])
    simp [Artifact.checkBuffer, zeros, size, bind, Except.bind]
  obtain ⟨y, called, length⟩ := filled
  have shaped := shape_eq_ok y tall wide product
  exact ⟨⟨k.outputSize, k.inputSize, y⟩, (run_bind_of_ok called _).trans (congrArg some shaped), rfl, rfl,
    length.trans (wordProduct_eq product)⟩

theorem artifact_hessian {u : Trace α} (found : k.hessian = some u) {x : Array α} (size : x.size = k.inputSize)
    (outputDim : Nat) :
    k.artifact.hessian x (oneHot k.outputSize outputDim) (zeros (wordProduct k.inputSize k.inputSize)) =
      fill u x (oneHot k.outputSize outputDim) (zeros (wordProduct k.inputSize k.inputSize)) := by
  have checked : (do
      Artifact.checkBuffer "input" k.inputSize x.size
      Artifact.checkBuffer "weight" k.outputSize (oneHot k.outputSize outputDim : Array α).size
      Artifact.checkBuffer "hessian" (wordProduct k.inputSize k.inputSize)
        (zeros (wordProduct k.inputSize k.inputSize) : Array α).size) = .ok () := by
    simp [Artifact.checkBuffer, zeros, oneHot, size, bind, Except.bind]
  simp only [artifact, found, checked, Artifact.guarded]

theorem ends_fullHessian (valid : k.Valid) (square : k.inputSize * k.inputSize < 2 ^ 63)
    (wide : k.inputSize < 2 ^ 63) (order : k.order = .second) {x : Array α} (size : x.size = k.inputSize)
    (outputDim : Nat) :
    Ends (fullHessian ⟨k.artifact⟩ x outputDim)
      (if outputDim < k.outputSize then none else some (.outputDimOutOfRange outputDim k.outputSize))
      (Matrix.HasShape k.inputSize k.inputSize) := by
  by_cases less : outputDim < k.outputSize
  · rw [if_pos less]
    have present : k.hessian.isSome = true := by
      rw [valid.hasHessian, order]
      decide
    obtain ⟨t, found⟩ := Option.isSome_iff_exists.mp present
    have fits := valid.hessian t found
    have filled : ∃ y, k.artifact.hessian x (oneHot k.outputSize outputDim)
        (zeros (wordProduct k.inputSize k.inputSize)) = some (.ok y) ∧
        y.size = wordProduct k.inputSize k.inputSize := by
      rw [artifact_hessian found size]
      exact exists_fill_of_fits fits size (by simp [oneHot]) (by simp [zeros])
    obtain ⟨y, called, length⟩ := filled
    have shaped := shape_eq_ok y wide wide square
    have chosen : ¬CompiledModel.outputSize ⟨k.artifact⟩ ≤ outputDim := Nat.not_le.mpr less
    refine ⟨⟨k.inputSize, k.inputSize, y⟩, ?_, rfl, rfl, length.trans (wordProduct_eq square)⟩
    rw [fullHessian, if_neg chosen]
    exact (run_bind_of_ok called _).trans (congrArg some shaped)
  · rw [if_neg less]
    have outside : CompiledModel.outputSize ⟨k.artifact⟩ ≤ outputDim := Nat.not_lt.mp less
    constructor
    · trivial
    · rw [fullHessian, if_pos outside]
      rfl

theorem usable (valid : k.Valid) (product : k.outputSize * k.inputSize < 2 ^ 63)
    (square : k.inputSize * k.inputSize < 2 ^ 63) (tall : k.outputSize < 2 ^ 63) :
    Usable (⟨k.artifact⟩ : CompiledModel α) := by
  have wide : k.inputSize < 2 ^ 63 := by
    have least := Nat.le_mul_self k.inputSize
    omega
  have forward (x : Array α) : x.size = k.inputSize →
      Ends (.mk (k.artifact.forward x (zeros k.outputSize)) : Evaluation (Array α)) none
        fun y => y.size = k.outputSize := fun size => exists_forward valid size
  constructor
  · intro x
    have ends := ends_checkInputSize (m := ⟨k.artifact⟩) (forward x)
    rwa [Option.or_none] at ends
  · intro x p
    have ends := ends_checkInputSize (m := ⟨k.artifact⟩) (fun size => forward (x ++ p) (Array.size_append.trans size))
    rwa [Option.or_none] at ends
  · intro x
    apply ends_jacobian
    intro order size
    exact ends_fullJacobian valid product tall wide order size
  · intro x p
    apply ends_jacobian
    intro order size
    have full := ends_fullJacobian valid product tall wide order (x := x ++ p) (Array.size_append.trans size)
    have narrow : x.size ≤ k.inputSize := Nat.le_trans (Nat.le_add_right x.size p.size) (Nat.le_of_eq size)
    apply ends_map full
    intro m shaped
    rw [shaped.1]
    exact Matrix.hasShape_block shaped (Nat.le_refl _) narrow
  · intro x outputDim
    apply ends_hessian
    intro order size
    exact ends_fullHessian valid square wide order size outputDim
  · intro x p outputDim
    apply ends_hessian
    intro order size
    have full := ends_fullHessian valid square wide order (x := x ++ p) (Array.size_append.trans size) outputDim
    have narrow : x.size ≤ k.inputSize := Nat.le_trans (Nat.le_add_right x.size p.size) (Nat.le_of_eq size)
    apply ends_map full
    intro m shaped
    exact Matrix.hasShape_block shaped narrow narrow

end KernelSet

theorem KernelSet.eq_artifact_of_toArtifact {k : KernelSet Binary64} {a : Artifact Binary64}
    (accepted : k.toArtifact = .ok a) : k.Valid ∧ a = k.artifact := by
  unfold toArtifact at accepted
  cases checked : k.validate with
  | error e =>
      rw [checked] at accepted
      cases accepted
  | ok =>
      rw [checked] at accepted
      exact ⟨k.validate_eq_ok_iff.mp checked, (Except.ok.inj accepted).symm⟩

namespace Artifact

/-- Artifacts of kernels, which are given or read from the file of a model on any machine. -/
inductive Interpreted (a : Artifact Binary64) : Prop where
  | given (k : KernelSet Binary64) (accepted : k.toArtifact = .ok a)
  | opened (name : String) (generic : Path) (h after : Host)
    (run : (openInterpreted name generic).run.run h = (.ok a, after))

theorem Interpreted.exists_kernels {a : Artifact Binary64} (loaded : Interpreted a) :
    ∃ k : KernelSet Binary64, k.Valid ∧ a = k.artifact := by
  cases loaded with
  | given k accepted => exact ⟨k, KernelSet.eq_artifact_of_toArtifact accepted⟩
  | opened name generic h after run =>
      rw [run_openInterpreted] at run
      split at run
      · split at run
        · split at run
          · cases run
          · split at run
            · cases run
            · next k _ =>
                split at run
                · cases run
                · next b accepted =>
                    cases run
                    exact ⟨k, KernelSet.eq_artifact_of_toArtifact accepted⟩
        · cases run
      · cases run

/-- Loaded models are usable. The products of the sizes leave out the number of outputs of a model without
inputs, which is the length of a list all the same. -/
theorem usable_of_interpreted {a : Artifact Binary64} (loaded : Interpreted a)
    (product : a.outputSize * a.inputSize < 2 ^ 63) (square : a.inputSize * a.inputSize < 2 ^ 63)
    (addressable : a.inputSize = 0 → a.outputSize < 2 ^ 63) :
    CompiledModel.Usable (⟨a⟩ : CompiledModel Binary64) := by
  obtain ⟨k, valid, rfl⟩ := loaded.exists_kernels
  apply KernelSet.usable valid product square
  rcases Nat.eq_zero_or_pos k.inputSize with none | some
  · exact addressable none
  · exact Nat.lt_of_le_of_lt (Nat.le_mul_of_pos_right k.outputSize some) product

def square : KernelSet Binary64 where
  order := .second
  inputSize := 1
  outputSize := 1
  parameterSize := 0
  forward := {
    nodes := #[.input 0, .power 0 2]
    inputCount := 1
    weightCount := 0
    outputs := [1] }
  jacobian := some {
    nodes := #[.input 0, .const (.ofNat 2), .binary .mul 1 0]
    inputCount := 1
    weightCount := 0
    outputs := [2] }
  hessian := some {
    nodes := #[.weight 0, .const (.ofNat 2), .binary .mul 0 1]
    inputCount := 1
    weightCount := 1
    outputs := [2] }

theorem usable_of_interpreted_square : CompiledModel.Usable (⟨square.artifact⟩ : CompiledModel Binary64) := by
  have accepted : square.toArtifact = .ok square.artifact := by
    have checked : square.validate = .ok () := by decide +kernel
    rw [KernelSet.toArtifact, checked]
  exact usable_of_interpreted (.given square accepted) (by decide) (by decide) (by decide)

end Artifact

end AutoDiff
