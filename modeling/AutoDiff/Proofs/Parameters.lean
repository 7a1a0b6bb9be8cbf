import AutoDiff.Proofs.KernelValues
import AutoDiff.Proofs.Usability

namespace AutoDiff

/-- Kernels fill the buffers they are given. They cannot change how long those are. -/
structure Artifact.InPlace {α : Type} (a : Artifact α) : Prop where
  forward : ∀ x y filled, a.forward x y = some (.ok filled) → filled.size = y.size
  jacobian : ∀ x result filled, a.jacobian x result = some (.ok filled) → filled.size = result.size
  hessian : ∀ x w result filled, a.hessian x w result = some (.ok filled) → filled.size = result.size

namespace Matrix

variable {α : Type} {m : Matrix α} {rows columns : Nat}

theorem getElem?_row (width : m.columns = columns) {i j : Nat} (column : j < columns) :
    (m.row i)[j]? = m.get? i j := by
  simp only [row, get?, width, column, if_true]
  rw [List.getElem?_take_of_lt column, List.getElem?_drop, Array.getElem?_toList]

theorem getElem?_flatMap_range {width : Nat} (f : Nat → List α) {height : Nat}
    (widths : ∀ i, i < height → (f i).length = width) {i j : Nat} (row : i < height) (column : j < width) :
    ((List.range height).flatMap f)[i * width + j]? = (f i)[j]? := by
  induction height with
  | zero => cases row
  | succ height ih =>
      have before : ((List.range height).flatMap f).length = height * width := by
        have each : (List.range height).map (fun i => (f i).length) = (List.range height).map fun _ => width :=
          List.map_congr_left fun i member => widths i (Nat.lt_succ_of_lt (List.mem_range.mp member))
        rw [List.length_flatMap, each]
        simp
      rw [List.range_succ, List.flatMap_append, List.flatMap_singleton]
      rcases Nat.lt_succ_iff_lt_or_eq.mp row with earlier | rfl
      · have inside : i * width + j < height * width := by
          have next : (i + 1) * width ≤ height * width := Nat.mul_le_mul_right width earlier
          rw [Nat.succ_mul] at next
          omega
        rw [List.getElem?_append_left (by rwa [before])]
        exact ih (fun i less => widths i (Nat.lt_succ_of_lt less)) earlier
      · rw [List.getElem?_append_right (by omega), before, Nat.add_sub_cancel_left]

theorem get?_block (shape : m.HasShape rows columns) {height width i j : Nat} (low : height ≤ rows)
    (narrow : width ≤ columns) (row : i < height) (column : j < width) :
    (m.block height width).get? i j = m.get? i j := by
  have widths (i : Nat) (less : i < height) : ((m.row i).take width).length = width := by
    rw [List.length_take, length_row shape (Nat.lt_of_lt_of_le less low)]
    exact Nat.min_eq_left narrow
  have entry := getElem?_flatMap_range (fun i => (m.row i).take width) widths row column
  simp only [block, get?, column, if_true, List.getElem?_toArray]
  rw [entry, List.getElem?_take_of_lt column, getElem?_row shape.2.1 (Nat.lt_of_lt_of_le column narrow)]
  rfl

def IsCorner (height width : Nat) (whole corner : Matrix α) : Prop :=
  corner.HasShape height width ∧
    ∀ i j, i < height → j < width → (whole.get? i j).isSome ∧ corner.get? i j = whole.get? i j

theorem isSome_get? (shape : m.HasShape rows columns) {i j : Nat} (row : i < rows) (column : j < columns) :
    (m.get? i j).isSome := by
  obtain ⟨_, width, size⟩ := shape
  have inside : i * columns + j < rows * columns := by
    have next : (i + 1) * columns ≤ rows * columns := Nat.mul_le_mul_right columns row
    rw [Nat.succ_mul] at next
    omega
  simp [get?, width, column, size, inside]

theorem isCorner_block (shape : m.HasShape rows columns) {height width : Nat} (low : height ≤ rows)
    (narrow : width ≤ columns) : IsCorner height width m (m.block height width) := by
  refine ⟨hasShape_block shape low narrow, fun i j row column => ⟨?_, get?_block shape low narrow row column⟩⟩
  exact isSome_get? shape (Nat.lt_of_lt_of_le row low) (Nat.lt_of_lt_of_le column narrow)

end Matrix

namespace CompiledModel

variable {α β γ : Type}

/-- Two calculations end in the same error, or in results that are related. -/
def EndAlike (Related : β → γ → Prop) (first : Evaluation β) (second : Evaluation γ) : Prop :=
  match first.run, second.run with
  | some (.ok b), some (.ok c) => Related b c
  | some (.error e), some (.error e') => e = e'
  | none, none => True
  | _, _ => False

theorem endAlike_map {calculation : Evaluation β} (f : β → γ) {Related : β → γ → Prop}
    (right : ∀ result, calculation.run = some (.ok result) → Related result (f result)) :
    EndAlike Related calculation (do return f (← calculation)) := by
  unfold EndAlike
  rw [ExceptT.run_bind]
  cases run : calculation.run with
  | none => trivial
  | some outcome =>
      cases outcome with
      | error e => rfl
      | ok result => exact right result run

theorem of_run_check_bind {checks : Except EvalError Unit} {next : Evaluation β} {result : β}
    (run : (do check checks; next : Evaluation β).run = some (.ok result)) :
    checks = .ok () ∧ next.run = some (.ok result) := by
  cases checks with
  | error e => cases run
  | ok => exact ⟨rfl, run⟩

theorem of_run_bind {filled : Filled α} {next : Array α → Evaluation β} {result : β}
    (run : ((.mk filled : Evaluation (Array α)) >>= next).run = some (.ok result)) :
    ∃ entries, filled = some (.ok entries) ∧ (next entries).run = some (.ok result) := by
  cases filled with
  | none => cases run
  | some outcome =>
      cases outcome with
      | error e => cases run
      | ok entries => exact ⟨entries, rfl, run⟩

theorem shape_eq_ok_iff {rows columns : Nat} {entries : Array α} {full : Matrix α} :
    shape rows columns entries = .ok full ↔
      max rows 1 * max columns 1 ≤ entryLimit ∧ full = ⟨rows, columns, entries⟩ := by
  unfold shape
  split
  · next within => simp [within, eq_comm]
  · next within => simp [within]

theorem wordProduct_eq_of_le {rows columns : Nat} (within : max rows 1 * max columns 1 ≤ entryLimit) :
    wordProduct rows columns = rows * columns := by
  have limit : entryLimit < UInt64.size := by decide
  have product : rows * columns ≤ max rows 1 * max columns 1 :=
    Nat.mul_le_mul (Nat.le_max_left rows 1) (Nat.le_max_left columns 1)
  apply wordProduct_of_lt
  omega

variable {m : CompiledModel α}

theorem checkInputSize_eq_ok_iff {found : Nat} : m.checkInputSize found = .ok () ↔ found = m.inputSize := by
  unfold checkInputSize
  rcases Nat.lt_trichotomy found m.inputSize with less | same | more
  · simp [less, Nat.ne_of_lt less]
  · simp [same]
  · simp [more, Nat.lt_asymm more, Nat.ne_of_gt more]

theorem require_second_eq_ok_iff {method : String} : m.require .second method = .ok () ↔ m.order = .second := by
  have enough : Order.second ≤ m.order ↔ m.order = .second := by
    cases m.order <;> decide
  rw [← enough, require]
  split
  · next least => simp [least]
  · next less => simp [less]

variable [Arithmetic α]

theorem getElem?_oneHot {size chosen j : Nat} (inside : j < size) :
    (oneHot size chosen : Array α)[j]? = some (Arithmetic.ofInt (if j = chosen then 1 else 0)) := by
  unfold oneHot
  rw [Array.getElem?_setIfInBounds]
  by_cases same : chosen = j
  · simp [same, inside]
  · simp [same, Ne.symm same, inside]

variable {z : Array α} {full : Matrix α}

theorem of_run_jacobian (inPlace : m.artifact.InPlace) (run : (m.jacobian z).run = some (.ok full)) :
    z.size = m.inputSize ∧ full.HasShape m.outputSize m.inputSize := by
  obtain ⟨_, run⟩ := of_run_check_bind run
  obtain ⟨sized, run⟩ := of_run_check_bind run
  obtain ⟨entries, filled, shaped⟩ := of_run_bind run
  obtain ⟨within, rfl⟩ := shape_eq_ok_iff.mp (Option.some.inj shaped)
  have size := inPlace.jacobian _ _ _ filled
  rw [zeros, Array.size_replicate, wordProduct_eq_of_le within] at size
  exact ⟨checkInputSize_eq_ok_iff.mp sized, rfl, rfl, size⟩

theorem run_hessian_eq_some_ok_iff {outputDim : Nat} :
    (m.hessian z outputDim).run = some (.ok full) ↔
      m.order = .second ∧ z.size = m.inputSize ∧ outputDim < m.outputSize ∧
        max m.inputSize 1 * max m.inputSize 1 ≤ entryLimit ∧ ∃ entries,
          m.artifact.hessian z (oneHot m.outputSize outputDim) (zeros (wordProduct m.inputSize m.inputSize)) =
            some (.ok entries) ∧ full = ⟨m.inputSize, m.inputSize, entries⟩ := by
  constructor
  · intro run
    obtain ⟨ordered, run⟩ := of_run_check_bind run
    obtain ⟨sized, run⟩ := of_run_check_bind run
    obtain ⟨chosen, run⟩ := of_run_check_bind run
    obtain ⟨entries, filled, shaped⟩ := of_run_bind run
    obtain ⟨within, same⟩ := shape_eq_ok_iff.mp (Option.some.inj shaped)
    have inside : outputDim < m.outputSize := by
      by_contra outside
      rw [if_pos (Nat.not_lt.mp outside)] at chosen
      cases chosen
    exact ⟨require_second_eq_ok_iff.mp ordered, checkInputSize_eq_ok_iff.mp sized, inside, within, entries, filled,
      same⟩
  · rintro ⟨order, size, inside, within, entries, filled, same⟩
    unfold hessian fullHessian
    rw [require_second_eq_ok_iff.mpr order, checkInputSize_eq_ok_iff.mpr size, if_neg (Nat.not_le.mpr inside)]
    have shaped := shape_eq_ok_iff.mpr ⟨within, same⟩
    exact (run_bind_of_ok filled _).trans (congrArg some shaped)

theorem of_run_hessian {outputDim : Nat} (inPlace : m.artifact.InPlace)
    (run : (m.hessian z outputDim).run = some (.ok full)) :
    z.size = m.inputSize ∧ full.HasShape m.inputSize m.inputSize ∧
      ∃ entries, full = ⟨m.inputSize, m.inputSize, entries⟩ ∧
        m.artifact.hessian z (oneHot m.outputSize outputDim) (zeros (wordProduct m.inputSize m.inputSize)) =
          some (.ok entries) := by
  obtain ⟨_, sized, _, within, entries, filled, rfl⟩ := run_hessian_eq_some_ok_iff.mp run
  have size := inPlace.hessian _ _ _ _ filled
  rw [zeros, Array.size_replicate, wordProduct_eq_of_le within] at size
  exact ⟨sized, ⟨rfl, rfl, size⟩, entries, rfl, filled⟩

theorem evaluateWith_eq (m : CompiledModel α) (x p : Array α) : m.evaluateWith x p = m.evaluate (x ++ p) := by
  unfold evaluateWith evaluate
  rw [Array.size_append]

theorem jacobianWith_eq (m : CompiledModel α) (x p : Array α) :
    m.jacobianWith x p = do
      let full ← m.jacobian (x ++ p)
      return full.block full.rows x.size := by
  unfold jacobianWith jacobian
  rw [Array.size_append, bind_assoc]
  simp only [bind_assoc]

theorem hessianWith_eq (m : CompiledModel α) (x p : Array α) (outputDim : Nat) :
    m.hessianWith x p outputDim = do
      let full ← m.hessian (x ++ p) outputDim
      return full.block x.size x.size := by
  unfold hessianWith hessian
  rw [Array.size_append, bind_assoc]
  simp only [bind_assoc]

/-- A call with the parameters apart ends as the call on the joined input does. Of the derivatives it keeps those
with respect to the input; a Hessian is that of the chosen output alone, all other weights being zero. -/
theorem parameters_apart (inPlace : m.artifact.InPlace) (x p : Array α) :
    (m.evaluateWith x p).run = (m.evaluate (x ++ p)).run ∧
      EndAlike (Matrix.IsCorner m.outputSize x.size) (m.jacobian (x ++ p)) (m.jacobianWith x p) ∧
      ∀ outputDim,
        EndAlike (Matrix.IsCorner x.size x.size) (m.hessian (x ++ p) outputDim) (m.hessianWith x p outputDim) ∧
        ∀ full, (m.hessian (x ++ p) outputDim).run = some (.ok full) →
          ∃ (w : Array α) (entries : Array α), w.size = m.outputSize ∧
            (∀ j, j < m.outputSize → w[j]? = some (Arithmetic.ofInt (if j = outputDim then 1 else 0))) ∧
            m.artifact.hessian (x ++ p) w (zeros (wordProduct m.inputSize m.inputSize)) = some (.ok entries) ∧
            full = ⟨m.inputSize, m.inputSize, entries⟩ := by
  have narrow (size : (x ++ p).size = m.inputSize) : x.size ≤ m.inputSize := by
    rw [Array.size_append] at size
    omega
  refine ⟨by rw [evaluateWith_eq], ?_, fun outputDim => ⟨?_, fun full run => ?_⟩⟩
  · rw [jacobianWith_eq]
    apply endAlike_map
    intro full run
    obtain ⟨size, shape⟩ := of_run_jacobian inPlace run
    rw [shape.1]
    exact Matrix.isCorner_block shape (Nat.le_refl _) (narrow size)
  · rw [hessianWith_eq]
    apply endAlike_map
    intro full run
    obtain ⟨size, shape, _⟩ := of_run_hessian inPlace run
    exact Matrix.isCorner_block shape (narrow size) (narrow size)
  · obtain ⟨_, _, entries, same, filled⟩ := of_run_hessian inPlace run
    exact ⟨oneHot m.outputSize outputDim, entries, by simp [oneHot], fun j inside => getElem?_oneHot inside,
      filled, same⟩

end CompiledModel

namespace KernelSet

variable {α : Type}

theorem size_of_store? {outputs : List NodeId} {values result final : Array α}
    (stored : Trace.store? outputs values result = some final) : final.size = result.size := by
  unfold Trace.store? at stored
  generalize outputs.zipIdx = slots at stored
  induction slots generalizing result with
  | nil => rw [← Option.some.inj stored]
  | cons slot slots ih =>
      rw [List.foldlM_cons] at stored
      obtain ⟨next, put, rest⟩ := Option.bind_eq_some_iff.mp stored
      obtain ⟨value, _, rfl⟩ := Option.map_eq_some_iff.mp put
      rw [ih rest, Array.size_setIfInBounds]

variable [Arithmetic α]

theorem size_of_fill {t : Trace α} {x w result final : Array α} (filled : fill t x w result = some (.ok final)) :
    final.size = result.size := by
  obtain ⟨outcome, evaluated, same⟩ := Option.map_eq_some_iff.mp filled
  obtain rfl : outcome = .ok final := by
    cases outcome with
    | error e => cases same
    | ok other => exact congrArg Except.ok (Except.ok.inj same)
  rw [Trace.evaluateInto_eq] at evaluated
  cases checked : t.checkArguments x w result with
  | error e => simp [checked] at evaluated
  | ok =>
      rw [checked] at evaluated
      obtain ⟨values, _, rest⟩ := Option.bind_eq_some_iff.mp evaluated
      obtain ⟨other, stored, last⟩ := Option.bind_eq_some_iff.mp rest
      obtain rfl : other = final := by simpa using last
      exact size_of_store? stored

theorem size_of_guarded {t : Trace α} {x w result final : Array α} {checks : Except EvalError Unit}
    (filled : Artifact.guarded checks (fill t x w result) = some (.ok final)) : final.size = result.size := by
  cases checks with
  | error e => cases filled
  | ok => exact size_of_fill filled

theorem artifact_inPlace (k : KernelSet α) : k.artifact.InPlace := by
  constructor
  · intro x y filled done
    exact size_of_guarded done
  · intro x result filled done
    simp only [artifact] at done
    split at done
    · cases done
    · exact size_of_guarded done
  · intro x w result filled done
    simp only [artifact] at done
    split at done
    · cases done
    · exact size_of_guarded done

def product : KernelSet ℚ where
  order := .second
  inputSize := 2
  outputSize := 1
  parameterSize := 1
  forward := {
    nodes := #[.input 0, .input 1, .binary .mul 0 1]
    inputCount := 2
    weightCount := 0
    outputs := [2] }
  jacobian := some {
    nodes := #[.input 0, .input 1]
    inputCount := 2
    weightCount := 0
    outputs := [1, 0] }
  hessian := some {
    nodes := #[.weight 0, .const 0]
    inputCount := 2
    weightCount := 1
    outputs := [1, 0, 0, 1] }

end KernelSet

theorem CompiledModel.parameters_apart_product :
    KernelSet.product.artifact.InPlace ∧
      (evaluateWith ⟨KernelSet.product.artifact⟩ #[2] #[3]).run =
        (evaluate ⟨KernelSet.product.artifact⟩ #[2, 3]).run ∧
      EndAlike (Matrix.IsCorner 1 1) (jacobian ⟨KernelSet.product.artifact⟩ #[2, 3])
        (jacobianWith ⟨KernelSet.product.artifact⟩ #[2] #[3]) ∧
      (jacobian ⟨KernelSet.product.artifact⟩ #[2, 3]).run = some (.ok ⟨1, 2, #[3, 2]⟩) ∧
      (jacobianWith ⟨KernelSet.product.artifact⟩ #[2] #[3]).run = some (.ok ⟨1, 1, #[3]⟩) ∧
      EndAlike (Matrix.IsCorner 1 1) (hessian ⟨KernelSet.product.artifact⟩ #[2, 3] 0)
        (hessianWith ⟨KernelSet.product.artifact⟩ #[2] #[3] 0) ∧
      (hessianWith ⟨KernelSet.product.artifact⟩ #[2] #[3] 0).run = some (.ok ⟨1, 1, #[0]⟩) := by
  have inPlace := KernelSet.product.artifact_inPlace
  obtain ⟨value, jacobian, hessian⟩ := parameters_apart (m := ⟨KernelSet.product.artifact⟩) inPlace #[2] #[3]
  exact ⟨inPlace, value, jacobian, rfl, rfl, (hessian 0).1, rfl⟩

end AutoDiff
