import AutoDiff.Proofs.FiniteOptimization

namespace AutoDiff

open ExtendedArithmetic Expression

variable {F : Type} [Field F] [FieldArithmetic F]

namespace Trace

section

variable {α : Type} [Arithmetic α] {t : Trace α}

theorem weightless_expression (consistent : t.Consistent) (weightless : t.weightCount = 0) {id : Nat} :
    (t.expression id).Weightless := by
  induction id using Nat.strongRecOn with
  | ind id ih =>
      unfold expression
      cases found : t.nodes[id]? with
      | none => trivial
      | some node =>
          have operand (o : Nat) : (if o < id then t.expression o else .ofInt 0).Weightless := by
            split
            · next early => exact ih o early
            · trivial
          cases node with
          | input | const => trivial
          | weight index =>
              have inside := consistent.weights id index found
              omega
          | unary op arg => exact operand arg
          | binary op lhs rhs => exact ⟨operand lhs, operand rhs⟩
          | power base exponent => exact operand base

variable [Reading α F]

def reading (t : Trace α) (id : Nat) : Expression F := (t.expression id).map Reading.value

theorem interpret_eq_toClass_reading (t : Trace α) (id : Nat) :
    t.interpret (Class F) id = toClass (t.reading id) :=
  interpret_reading _

variable [DecidableEq α]

theorem exists_second (p : Predecessor) (wellFormed : t.WellFormed) (weightless : t.weightCount = 0) {lowest : Int}
    (above : p.least + 1 < lowest) (powers : t.PowersFrom lowest t.size) (room : t.inputCount * t.inputCount < listLimit) :
    ∃ forward raw u, t.optimize = some forward ∧ forward.hessian = some raw ∧ raw.WellFormed ∧
      raw.optimize = some u ∧ u.WellFormed ∧ u.inputCount = t.inputCount ∧ u.weightCount = t.outputs.length ∧
      u.outputs.length = t.inputCount * t.inputCount ∧
      ∀ i j : Nat, i < t.inputCount → j < t.inputCount → ∃ id, u.outputs[i * t.inputCount + j]? = some id ∧
        ∀ x w : Array F, (u.reading id).eval x w = ∑ y : Fin t.outputs.length,
          w.getD y 0 * (((t.reading t.outputs[y]).derivBy p.before i).derivBy p.before j).eval x w := by
  let _ := Class.differential α F p
  obtain ⟨forward, run, preserves⟩ := exists_optimize (M := Class F) wellFormed
  obtain ⟨raw, u, made, well, optimized, computes⟩ := KernelSet.exists_second (M := Class F) preserves weightless
    above powers room
  have length := congrArg List.length computes.outputs
  rw [List.length_map] at length
  refine ⟨forward, raw, u, run, made, well, optimized, computes.wellFormed, computes.inputCount,
    computes.weightCount, by simpa [List.length_flatMap] using length, fun i j row column => ?_⟩
  have entry := flatMap_rows_getElem? (List.range t.inputCount) t.inputCount (fun i j =>
    weighted α ((t.outputs.map (t.interpret (Class F))).map fun y =>
      Differential.deriv α j (Differential.deriv α i y))) (by simpa using row) column
  rw [← computes.outputs, List.getElem?_map, List.getElem_range, Option.map_eq_some_iff] at entry
  obtain ⟨id, found, same⟩ := entry
  refine ⟨id, found, fun x w => ?_⟩
  calc
    (u.reading id).eval x w = Class.eval x w (u.interpret (Class F) id) := by
      rw [interpret_eq_toClass_reading, Class.eval_toClass]
    _ = ∑ y : Fin t.outputs.length, w.getD y 0 * Class.eval x w
          (Differential.deriv α j (Differential.deriv α i (t.interpret (Class F) t.outputs[y]))) := by
      rw [same, List.map_map, Class.eval_weighted]
      rfl
    _ = _ := by
      refine Finset.sum_congr rfl fun y _ => ?_
      rw [interpret_eq_toClass_reading]
      rfl

end

variable {E : Type} [ExtendedArithmetic E F] [DecidableEq E] {t : Trace E} {x w : Array E}

section

omit [DecidableEq E]

/-- What the nodes of a trace are calculated with is finite if their values are. -/
theorem gives_of_finite (ordered : t.Ordered) {values : Array E} (valued : t.Valued x w values)
    (finite : ∀ (id : Nat) (v : E), values[id]? = some v → isFinite v = true) {id : Nat} {v : E}
    (found : values[id]? = some v) : (t.expression id).Gives x w v := by
  induction id using Nat.strongRecOn generalizing v with
  | ind id ih =>
      have less : id < t.size := valued.1 ▸ (Array.getElem?_eq_some_iff.mp found).1
      have there : t.nodes[id]? = some t.nodes[id] := Array.getElem?_eq_getElem less
      have isFinite := finite id v found
      have operand {o : Nat} (member : o ∈ (t.nodes[id]).operands) {u : E} (known : values[o]? = some u) :
          (t.expression o).Gives x w u :=
        ih o (ordered id _ there o member) known
      rw [valued.2 id _ there] at found
      rw [expression_eq ordered there]
      cases node : t.nodes[id] with
      | input index =>
          rw [node] at found
          exact .input found isFinite
      | weight index =>
          rw [node] at found
          exact .weight found isFinite
      | const c =>
          rw [node] at found
          cases found
          exact .const isFinite
      | unary op arg =>
          rw [node] at found operand
          obtain ⟨u, known, rfl⟩ := Option.map_eq_some_iff.mp found
          exact .unary (operand (by simp [Node.operands]) known) isFinite
      | binary op lhs rhs =>
          rw [node] at found operand
          obtain ⟨u, left, rest⟩ := Option.bind_eq_some_iff.mp found
          obtain ⟨u', right, last⟩ := Option.bind_eq_some_iff.mp rest
          cases last
          exact .binary (operand (by simp [Node.operands]) left) (operand (by simp [Node.operands]) right) isFinite
      | power base exponent =>
          rw [node] at found operand
          obtain ⟨u, known, rfl⟩ := Option.map_eq_some_iff.mp found
          exact .power (operand (by simp [Node.operands]) known) rfl isFinite

theorem finite_of_values? (wellFormed : t.WellFormed) (size : x.size = t.inputCount)
    (weightSize : w.size = t.weightCount) (check : (t.values? x w).any (·.all isFinite) = true) :
    t.ConstantsFinite ∧ t.OutputsFinite x w := by
  obtain ⟨values, run, valued⟩ := exists_values? wellFormed.toConsistent size weightSize
  have finite (id : Nat) (v : E) (found : values[id]? = some v) : isFinite v = true := by
    rw [run, Option.any_some, Array.all_eq_true'] at check
    exact check v (Array.mem_of_getElem? found)
  refine ⟨fun id c found => finite id c ?_, fun id member => ?_⟩
  · rw [valued.2 id _ found]
    rfl
  · have less : id < values.size := valued.1 ▸ wellFormed.outputs id member
    exact ⟨_, gives_of_finite wellFormed.ordered valued finite (Array.getElem?_eq_getElem less)⟩

end

/-- At `x` the outputs, and their second derivatives weighted by `w`, are calculated with finite numbers alone;
so are the constants that come about as derivatives are taken. -/
structure TwiceFinite (t : Trace E) (x w : Array E) : Prop where
  outputs : t.OutputsFinite x #[]
  constants : ∀ forward raw, t.optimize = some forward → forward.hessian = some raw → raw.ConstantsFinite
  second : ∀ forward raw, t.optimize = some forward → forward.hessian = some raw → raw.OutputsFinite x w

def isTwiceFinite (t : Trace E) (x w : Array E) : Bool :=
  t.inputCount = x.size && (t.values? x #[]).any (·.all isFinite) && (t.optimize.bind hessian).all fun raw =>
    raw.verify = .ok () && raw.inputCount = x.size && raw.weightCount = w.size
      && (raw.values? x w).any (·.all isFinite)

theorem twiceFinite_of_isTwiceFinite (wellFormed : t.WellFormed) (weightless : t.weightCount = 0)
    (check : t.isTwiceFinite x w = true) : t.TwiceFinite x w := by
  simp only [isTwiceFinite, Bool.and_eq_true, decide_eq_true_eq] at check
  obtain ⟨⟨inputs, value⟩, derivatives⟩ := check
  have each (forward raw : Trace E) (run : t.optimize = some forward) (derived : forward.hessian = some raw) :
      raw.ConstantsFinite ∧ raw.OutputsFinite x w := by
    simp only [run, Option.bind_some, derived, Option.all_some, Bool.and_eq_true, decide_eq_true_eq] at derivatives
    obtain ⟨⟨⟨verified, inputs⟩, weights⟩, finite⟩ := derivatives
    exact finite_of_values? ((verify_eq_ok_iff raw).mp verified) inputs.symm weights.symm finite
  exact ⟨(finite_of_values? (w := #[]) wellFormed inputs.symm weightless.symm value).2,
    fun forward raw run derived => (each forward raw run derived).1,
    fun forward raw run derived => (each forward raw run derived).2⟩

/-- The entries of the Hessian are finite, and their values are those in the field. -/
theorem TwiceFinite.exists_entries (finite : t.TwiceFinite x w) (wellFormed : t.WellFormed)
    (weightless : t.weightCount = 0) {inputSize parameterSize : Nat} {k : KernelSet E}
    (made : KernelSet.synthesize inputSize parameterSize .second t = some k) (size : x.size = t.inputCount)
    (weightSize : w.size = t.outputs.length) {buffer : Array E}
    (room : buffer.size = t.inputCount * t.inputCount) :
    ∃ u entries, k.hessian = some u ∧ u.evaluateInto x w buffer = some (.ok entries) ∧
      ∀ i j : Nat, i < t.inputCount → j < t.inputCount → ∃ v, entries[i * t.inputCount + j]? = some v ∧
        isFinite v = true ∧ value v = ∑ y : Fin t.outputs.length, (w.map value).getD y 0 *
          ((((t.expression t.outputs[y]).map value).derivBy Predecessor.words.before i).derivBy
            Predecessor.words.before j).eval (x.map value) (w.map value) := by
  have fits := (KernelSet.room_of_synthesize wellFormed made).2 rfl
  have powers : t.PowersFrom Int32.minValue.toInt t.size := fun _ _ exponent _ _ => exponent.minValue_le_toInt
  obtain ⟨forward, raw, u, run, derived, optimized, _, _, hessian⟩ := KernelSet.of_synthesize_second wellFormed made
  -- the same kernel is made in total arithmetic, where it is known to be right
  obtain ⟨forward', raw', u', run', derived', well, optimized', wellU, inputs, weights, length, entry⟩ :=
    @exists_second F _ _ E (total E) t _ _ Predecessor.words wellFormed weightless _ (by decide) powers fits
  obtain ⟨first, one, alsoOne, _⟩ := exists_optimize_of_finite wellFormed finite.outputs
  obtain rfl : forward = first := Option.some.inj (run.symm.trans one)
  obtain rfl : forward' = forward := Option.some.inj (run'.symm.trans alsoOne)
  have alsoDerived := hessian_total derived (finite.constants _ raw run derived)
  obtain rfl : raw' = raw := Option.some.inj (derived'.symm.trans alsoDerived)
  obtain ⟨last, two, alsoTwo, stays⟩ := exists_optimize_of_finite well (finite.second _ _ run derived)
  obtain rfl : u = last := Option.some.inj (optimized.symm.trans two)
  obtain rfl : u' = u := Option.some.inj (optimized'.symm.trans alsoTwo)
  obtain ⟨values, entries, evaluated, valued, _, picked⟩ := exists_evaluateInto wellU (size.trans inputs.symm)
    (weightSize.trans weights.symm) (room.trans length.symm)
  refine ⟨u', entries, hessian, evaluated, fun i j row column => ?_⟩
  obtain ⟨id, found, sum⟩ := entry i j row column
  have member := List.mem_of_getElem? found
  obtain ⟨v, gives⟩ := stays id member
  refine ⟨v, ?_, gives.isFinite, ?_⟩
  · rw [picked _ id found]
    exact valued.eq_of_gives wellU.ordered (wellU.outputs id member) gives
  · rw [gives.value_eq]
    have same := sum (x.map value) (w.map value)
    simp only [reading, expression_total] at same
    exact same

end Trace

end AutoDiff
