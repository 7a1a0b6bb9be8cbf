import AutoDiff.Trace.Evaluate
import AutoDiff.Proofs.WellFormed
import Mathlib.Data.List.Induction

namespace AutoDiff

theorem exists_foldlM_push {β γ : Type} (f : Array β → γ → Option β) (items : List γ)
    (defined : ∀ (done : Array β) item, items[done.size]? = some item → (f done item).isSome) :
    ∃ results, items.foldlM (fun done item => (f done item).map done.push) #[] = some results ∧
      results.size = items.length ∧
      ∀ i item, items[i]? = some item → results[i]? = f (results.extract 0 i) item := by
  induction items using List.reverseRecOn with
  | nil => exact ⟨#[], rfl, rfl, by simp⟩
  | append_singleton items last ih =>
      obtain ⟨results, run, size, each⟩ := ih fun done item found => defined done item (by
        rw [List.getElem?_append_left (List.getElem?_eq_some_iff.mp found).1]
        exact found)
      obtain ⟨next, made⟩ := Option.isSome_iff_exists.mp (defined results last (by simp [size]))
      refine ⟨results.push next, ?_, by simp [size], ?_⟩
      · simp [run, made]
      · intro i item found
        rcases Nat.lt_or_ge i items.length with less | more
        · rw [List.getElem?_append_left less] at found
          rw [Array.getElem?_push_lt (by omega), ← Array.getElem?_eq_getElem, each i item found]
          congr 1
          simp [show i ≤ results.size by omega]
        · obtain rfl : i = items.length := by
            have := (List.getElem?_eq_some_iff.mp found).1
            simp at this
            omega
          obtain rfl : last = item := by simpa using found
          simp [← size, made]

namespace Node

variable {α : Type} [Arithmetic α]

theorem value?_congr (x w : Array α) {first second : Array α} (node : Node α)
    (same : ∀ operand : Nat, operand ∈ node.operands → first[operand]? = second[operand]?) :
    node.value? x w first = node.value? x w second := by
  cases node <;> simp_all [operands, value?]

theorem value?_isSome {x w values : Array α} {node : Node α}
    (inputs : ∀ index, node = .input index → index < x.size)
    (weights : ∀ index, node = .weight index → index < w.size)
    (operands : ∀ operand : Nat, operand ∈ node.operands → operand < values.size) :
    (node.value? x w values).isSome := by
  cases node with
  | input index => simpa [value?] using inputs index rfl
  | weight index => simpa [value?] using weights index rfl
  | const value => rfl
  | unary op arg =>
      have bound : arg < values.size := operands arg (by simp [Node.operands])
      simp [value?, bound]
  | binary op lhs rhs =>
      have left : lhs < values.size := operands lhs (by simp [Node.operands])
      have right : rhs < values.size := operands rhs (by simp [Node.operands])
      simp [value?, left, right]
  | power base exponent =>
      have bound : base < values.size := operands base (by simp [Node.operands])
      simp [value?, bound]

end Node

namespace Filling

variable {α β γ : Type}

theorem run_bind (first : Filling α β) (next : β → Filling α γ) (buffer : Array α) :
    (first >>= next).run.run buffer = (first.run.run buffer).bind fun (outcome, kept) =>
      match outcome with
      | .ok value => (next value).run.run kept
      | .error e => some (.error e, kept) := by
  rw [ExceptT.run_bind, StateT.run_bind]
  congr 1
  funext ⟨outcome, kept⟩
  cases outcome <;> rfl

theorem run_get (buffer : Array α) : (get : Filling α (Array α)).run.run buffer = some (.ok buffer, buffer) :=
  rfl

theorem run_set (buffer filled : Array α) :
    (set filled : Filling α Unit).run.run buffer = some (.ok (), filled) :=
  rfl

theorem run_ofExcept (outcome : Except TraceError β) (buffer : Array α) :
    (MonadExcept.ofExcept outcome : Filling α β).run.run buffer = some (outcome, buffer) := by
  cases outcome <;> rfl

theorem run_liftM (value : Option β) (buffer : Array α) :
    (liftM value : Filling α β).run.run buffer = value.map fun found => (.ok found, buffer) := by
  cases value <;> rfl

end Filling

namespace Trace

variable {α : Type} [Arithmetic α]

/-- The values of all nodes: each is that of its operation. -/
def Valued (t : Trace α) (x w values : Array α) : Prop :=
  values.size = t.size ∧
    ∀ (id : Nat) (node : Node α), t.nodes[id]? = some node → values[id]? = node.value? x w values

structure Supplied (t : Trace α) (x w : Array α) : Prop where
  inputs : ∀ id index : Nat, t.nodes[id]? = some (.input index : Node α) → index < x.size
  weights : ∀ id index : Nat, t.nodes[id]? = some (.weight index : Node α) → index < w.size

theorem Ordered.exists_values? {t : Trace α} (ordered : t.Ordered) {x w : Array α} (supplied : t.Supplied x w) :
    ∃ values, t.values? x w = some values ∧ t.Valued x w values := by
  obtain ⟨values, run, size, each⟩ := exists_foldlM_push (fun values node => node.value? x w values)
    t.nodes.toList fun done node found => by
      rw [Array.getElem?_toList] at found
      refine Node.value?_isSome (fun index same => ?_) (fun index same => ?_) (ordered _ _ found)
      · exact supplied.inputs _ index (same ▸ found)
      · exact supplied.weights _ index (same ▸ found)
  have length : values.size = t.size := by simpa [Trace.size] using size
  refine ⟨values, run, length, fun id node found => ?_⟩
  rw [each id node (by simpa using found)]
  refine Node.value?_congr x w node fun operand member => ?_
  have early : operand < min id values.size := by
    have := ordered id node found operand member
    have := lt_size found
    omega
  simp [early]

theorem exists_values? {t : Trace α} (consistent : t.Consistent) {x w : Array α}
    (inputs : x.size = t.inputCount) (weights : w.size = t.weightCount) :
    ∃ values, t.values? x w = some values ∧ t.Valued x w values := by
  apply consistent.ordered.exists_values?
  constructor
  · intro id index found
    rw [inputs]
    exact consistent.inputs id index found
  · intro id index found
    rw [weights]
    exact consistent.weights id index found

omit [Arithmetic α]

def Picked (outputs : List NodeId) (values result : Array α) : Prop :=
  result.size = outputs.length ∧
    ∀ (slot id : Nat), outputs[slot]? = some id → result[slot]? = values[id]?

theorem exists_store (values : Array α) (outputs : List NodeId) (start : Nat) (result : Array α)
    (defined : ∀ id : Nat, id ∈ outputs → id < values.size) :
    ∃ final, (outputs.zipIdx start).foldlM
        (fun result (id, slot) => (values[id]?).map (result.setIfInBounds slot ·)) result = some final ∧
      final.size = result.size ∧ (∀ slot, slot < start → final[slot]? = result[slot]?) ∧
      ∀ (slot id : Nat), outputs[slot]? = some id → start + slot < result.size →
        final[start + slot]? = values[id]? := by
  induction outputs generalizing start result with
  | nil => exact ⟨result, rfl, rfl, fun _ _ => rfl, by simp⟩
  | cons output outputs ih =>
      have bound := defined output (by simp)
      obtain ⟨final, run, size, before, stored⟩ := ih (start + 1)
        (result.setIfInBounds start values[output]) fun id member => defined id (by simp [member])
      refine ⟨final, ?_, by simpa using size, ?_, ?_⟩
      · simp [List.zipIdx_cons, bound, run]
      · intro slot less
        rw [before slot (by omega), Array.getElem?_setIfInBounds_ne (by omega)]
      · intro slot id found room
        cases slot with
        | zero =>
            obtain rfl : output = id := by simpa using found
            rw [before _ (by omega), Nat.add_zero, Array.getElem?_setIfInBounds_self_of_lt (by omega),
              Array.getElem?_eq_getElem bound]
        | succ slot =>
            have next := stored slot id (by simpa using found) (by simp; omega)
            rwa [show start + (slot + 1) = start + 1 + slot by omega]

theorem exists_store? {outputs : List NodeId} {values : Array α} (result : Array α)
    (defined : ∀ id : Nat, id ∈ outputs → id < values.size) (size : result.size = outputs.length) :
    ∃ final, store? outputs values result = some final ∧ Picked outputs values final := by
  obtain ⟨final, run, same, _, stored⟩ := exists_store values outputs 0 result defined
  refine ⟨final, run, same.trans size, fun slot id found => ?_⟩
  have bound := (List.getElem?_eq_some_iff.mp found).1
  simpa using stored slot id found (by omega)

theorem checkArguments_eq_ok_iff (t : Trace α) (x w result : Array α) :
    t.checkArguments x w result = .ok () ↔
      x.size = t.inputCount ∧ w.size = t.weightCount ∧ result.size = t.outputs.length := by
  simp only [checkArguments, checkLength]
  by_cases inputs : t.inputCount = x.size
  · by_cases weights : t.weightCount = w.size
    · by_cases outputs : t.outputs.length = result.size
      · simp [inputs, weights, outputs, bind, Except.bind]
      · simpa [inputs, weights, outputs, bind, Except.bind] using fun same => outputs same.symm
    · simpa [inputs, weights, bind, Except.bind] using fun same _ => weights same.symm
  · simpa [inputs, bind, Except.bind] using fun same _ _ => inputs same.symm

section

variable [Arithmetic α]

theorem run_fillBuffer (t : Trace α) (x w buffer : Array α) :
    (t.fillBuffer x w).run.run buffer = match t.checkArguments x w buffer with
      | .error e => some (.error e, buffer)
      | .ok () => (t.values? x w).bind fun values =>
          (store? t.outputs values buffer).map fun filled => (.ok (), filled) := by
  simp only [fillBuffer, Filling.run_bind, Filling.run_get, Filling.run_set, Filling.run_ofExcept,
    Filling.run_liftM, Option.bind_some, Option.bind_map, Function.comp_def]
  cases t.checkArguments x w buffer with
  | error e => rfl
  | ok => simp only [Option.map_eq_bind, Function.comp_def]

theorem evaluateInto_eq (t : Trace α) (x w result : Array α) :
    t.evaluateInto x w result = match t.checkArguments x w result with
      | .error e => some (.error e)
      | .ok () => do return .ok (← store? t.outputs (← t.values? x w) result) := by
  rw [evaluateInto, run_fillBuffer]
  cases t.checkArguments x w result with
  | error e => rfl
  | ok =>
      cases t.values? x w with
      | none => rfl
      | some values => cases stored : store? t.outputs values result <;> simp [stored, Except.map]

theorem exists_evaluateInto {t : Trace α} (wellFormed : t.WellFormed) {x w result : Array α}
    (inputs : x.size = t.inputCount) (weights : w.size = t.weightCount)
    (size : result.size = t.outputs.length) :
    ∃ values final, t.evaluateInto x w result = some (.ok final) ∧ t.Valued x w values ∧
      Picked t.outputs values final := by
  obtain ⟨values, run, valued⟩ := exists_values? wellFormed.toConsistent inputs weights
  obtain ⟨final, stored, picked⟩ := exists_store? result
    (fun id member => valued.1 ▸ wellFormed.outputs id member) size
  have checked := (checkArguments_eq_ok_iff t x w result).mpr ⟨inputs, weights, size⟩
  exact ⟨values, final, by simp [evaluateInto_eq, checked, run, stored], valued, picked⟩

theorem exists_evaluate {t : Trace α} (wellFormed : t.WellFormed) {x w : Array α}
    (inputs : x.size = t.inputCount) (weights : w.size = t.weightCount) :
    ∃ values final, t.evaluate x w = some (.ok final) ∧ t.Valued x w values ∧
      Picked t.outputs values final :=
  exists_evaluateInto wellFormed inputs weights (by simp)

/-- Evaluation with every choice of arguments. Wrong lengths are reported in order and leave the buffer
as it is. Otherwise all its slots are overwritten, whatever it held. -/
structure Safe (t : Trace α) : Prop where
  inputs : ∀ x w buffer : Array α, x.size ≠ t.inputCount →
    (t.fillBuffer x w).run.run buffer = some (.error (.argumentLength "inputs" t.inputCount x.size), buffer)
  weights : ∀ x w buffer : Array α, x.size = t.inputCount → w.size ≠ t.weightCount →
    (t.fillBuffer x w).run.run buffer = some (.error (.argumentLength "weights" t.weightCount w.size), buffer)
  outputs : ∀ x w buffer : Array α, x.size = t.inputCount → w.size = t.weightCount →
    buffer.size ≠ t.outputs.length →
    (t.fillBuffer x w).run.run buffer =
      some (.error (.argumentLength "outputs" t.outputs.length buffer.size), buffer)
  filled : ∀ x w : Array α, x.size = t.inputCount → w.size = t.weightCount →
    ∃ values, t.Valued x w values ∧ ∀ buffer : Array α, buffer.size = t.outputs.length →
      ∃ after, (t.fillBuffer x w).run.run buffer = some (.ok (), after) ∧ Picked t.outputs values after

theorem checkLength_of_ne (what : String) {expected found : Nat} (wrong : found ≠ expected) :
    checkLength what expected found = .error (.argumentLength what expected found) :=
  if_neg fun same => wrong same.symm

theorem checkLength_of_eq (what : String) {expected found : Nat} (right : found = expected) :
    checkLength what expected found = .ok () :=
  if_pos right.symm

theorem WellFormed.safe {t : Trace α} (wellFormed : t.WellFormed) : t.Safe where
  inputs x w buffer wrong := by
    rw [run_fillBuffer, checkArguments, checkLength_of_ne _ wrong]
    rfl
  weights x w buffer inputs wrong := by
    rw [run_fillBuffer, checkArguments, checkLength_of_eq _ inputs, checkLength_of_ne _ wrong]
    rfl
  outputs x w buffer inputs weights wrong := by
    rw [run_fillBuffer, checkArguments, checkLength_of_eq _ inputs, checkLength_of_eq _ weights,
      checkLength_of_ne _ wrong]
    rfl
  filled x w inputs weights := by
    obtain ⟨values, run, valued⟩ := exists_values? wellFormed.toConsistent inputs weights
    refine ⟨values, valued, fun buffer size => ?_⟩
    obtain ⟨after, stored, picked⟩ := exists_store? buffer
      (fun id member => valued.1 ▸ wellFormed.outputs id member) size
    refine ⟨after, ?_, picked⟩
    rw [run_fillBuffer, (checkArguments_eq_ok_iff t x w buffer).mpr ⟨inputs, weights, size⟩]
    simp only [run, stored, Option.bind_some, Option.map_some]

/-- The check accepts the well-formed traces, reports the first violation of any other, and what it
accepts can be evaluated. -/
theorem verify_exact (t : Trace α) :
    (t.verify = .ok () ↔ t.WellFormed) ∧ (∀ e, t.verify = .error e ↔ t.FirstViolation e) ∧
      (t.verify = .ok () → t.Safe) :=
  ⟨t.verify_eq_ok_iff, t.verify_eq_error_iff, fun passed => ((t.verify_eq_ok_iff).mp passed).safe⟩

end

def weightedInput : Trace Binary64 where
  nodes := #[.input 0, .weight 0, .binary .mul 0 1]
  inputCount := 1
  weightCount := 1
  outputs := [2, 1]

theorem verify_exact_weightedInput : weightedInput.verify = .ok () ∧ weightedInput.Safe := by
  have passed : weightedInput.verify = .ok () := rfl
  exact ⟨passed, (verify_exact weightedInput).2.2 passed⟩

end Trace

end AutoDiff
