import AutoDiff.Trace.Verify
import Mathlib.Data.List.Basic
import Mathlib.Data.List.Induction

namespace AutoDiff

theorem bind_eq_ok_iff {ε β γ : Type} (e : Except ε β) (next : β → Except ε γ) (result : γ) :
    (e >>= next) = .ok result ↔ ∃ value, e = .ok value ∧ next value = .ok result := by
  cases e <;> simp [bind, Except.bind]

theorem check_bind_eq_ok_iff {ε γ : Type} (check : Except ε Unit) (next : Unit → Except ε γ) (result : γ) :
    (check >>= next) = .ok result ↔ check = .ok () ∧ next () = .ok result := by
  cases check <;> simp [bind, Except.bind]

theorem foldlM_outcome {β σ ε : Type} (f : σ → β → Except ε σ) (items : List β) (start : σ)
    (Kept : Nat → σ → Prop) (Fault : Nat → ε → Prop) (initial : Kept 0 start)
    (step : ∀ i item state, items[i]? = some item → Kept i state →
      (∃ next, f state item = .ok next ∧ Kept (i + 1) next) ∨ ∃ e, f state item = .error e ∧ Fault i e) :
    (∃ final, items.foldlM f start = .ok final ∧ Kept items.length final) ∨
      ∃ i e, items.foldlM f start = .error e ∧ Fault i e := by
  induction items using List.reverseRecOn with
  | nil => exact .inl ⟨start, rfl, initial⟩
  | append_singleton items last ih =>
      have before := ih fun i item state found => step i item state (by
        rw [List.getElem?_append_left (List.getElem?_eq_some_iff.mp found).1]
        exact found)
      simp only [List.foldlM_append, List.foldlM_cons, List.foldlM_nil, List.length_append,
        List.length_singleton, bind_pure]
      rcases before with ⟨state, passed, kept⟩ | ⟨i, e, failed, fault⟩
      · rw [passed]
        rcases step items.length last state (by simp) kept with made | ⟨e, failed, fault⟩
        · exact .inl made
        · exact .inr ⟨_, e, failed, fault⟩
      · rw [failed]
        exact .inr ⟨i, e, rfl, fault⟩

theorem forM_eq_foldlM {β ε : Type} (items : List β) (check : β → Except ε Unit) :
    items.forM check = items.foldlM (fun _ item => check item) () := by
  rw [List.forM_eq_forM]
  induction items with
  | nil => rfl
  | cons item items ih => rw [List.forM_cons, List.foldlM_cons, ih]

namespace Trace

variable {α : Type}

theorem lt_size {t : Trace α} {id : Nat} {node : Node α} (found : t.nodes[id]? = some node) :
    id < t.size :=
  (Array.getElem?_eq_some_iff.mp found).1

/-- What is wrong with a trace, and where. The places are the nodes and, after them, the outputs. -/
inductive Violation (t : Trace α) : Nat → TraceError → Prop
  | operand {id operand : Nat} {node : Node α} (found : t.nodes[id]? = some node)
      (undefined : node.operands.find? (id ≤ ·) = some operand) :
      Violation t id (.useBeforeDefinition id operand)
  | input {id index : Nat} (found : t.nodes[id]? = some (.input index)) (beyond : t.inputCount ≤ index) :
      Violation t id (.inputOutOfRange id index t.inputCount)
  | weight {id index : Nat} (found : t.nodes[id]? = some (.weight index)) (beyond : t.weightCount ≤ index) :
      Violation t id (.weightOutOfRange id index t.weightCount)
  | duplicate {first second index : Nat} (earlier : first < second)
      (one : t.nodes[first]? = some (.input index)) (two : t.nodes[second]? = some (.input index)) :
      Violation t second (.duplicateInput index first second)
  | output {position id : Nat} (found : t.outputs[position]? = some id) (undefined : t.size ≤ id) :
      Violation t (t.size + position) (.undefinedOutput position id)

def Clean (t : Trace α) (place : Nat) : Prop := ∀ earlier < place, ∀ e, ¬t.Violation earlier e

def Listed (t : Trace α) (place : Nat) (inputs : List (Nat × NodeId)) : Prop :=
  ∀ index first : Nat,
    inputs.lookup index = some first ↔ first < place ∧ t.nodes[first]? = some (.input index : Node α)

/-- A violation before which there is none. -/
def FirstViolation (t : Trace α) (e : TraceError) : Prop := ∃ place, t.Violation place e ∧ t.Clean place

def SoleViolation (t : Trace α) (place : Nat) (e : TraceError) : Prop :=
  t.Clean place ∧ ∀ other, t.Violation place other ↔ e = other

theorem Clean.succ {t : Trace α} {place : Nat} (clean : t.Clean place) (none : ∀ e, ¬t.Violation place e) :
    t.Clean (place + 1) := by
  intro earlier less
  rcases Nat.lt_or_eq_of_le (Nat.le_of_lt_succ less) with before | rfl
  · exact clean earlier before
  · exact none

theorem violation_node_iff {t : Trace α} {id : Nat} {node : Node α} (found : t.nodes[id]? = some node)
    (e : TraceError) :
    t.Violation id e ↔
      (∃ operand, node.operands.find? (id ≤ ·) = some operand ∧ .useBeforeDefinition id operand = e) ∨
      (∃ index, node = .input index ∧ t.inputCount ≤ index ∧ .inputOutOfRange id index t.inputCount = e) ∨
      (∃ index, node = .weight index ∧ t.weightCount ≤ index ∧ .weightOutOfRange id index t.weightCount = e) ∨
      ∃ index first, node = .input index ∧ first < id ∧
        t.nodes[first]? = some (.input index) ∧ .duplicateInput index first id = e := by
  constructor
  · rintro (⟨found', undefined⟩ | ⟨found', beyond⟩ | ⟨found', beyond⟩ | ⟨earlier, one, two⟩ | ⟨output, undefined⟩)
    · obtain rfl := Option.some.inj (found.symm.trans found')
      exact .inl ⟨_, undefined, rfl⟩
    · exact .inr (.inl ⟨_, Option.some.inj (found.symm.trans found'), beyond, rfl⟩)
    · exact .inr (.inr (.inl ⟨_, Option.some.inj (found.symm.trans found'), beyond, rfl⟩))
    · exact .inr (.inr (.inr ⟨_, _, Option.some.inj (found.symm.trans two), earlier, one, rfl⟩))
    · have := lt_size found
      omega
  · rintro (⟨_, undefined, rfl⟩ | ⟨_, rfl, beyond, rfl⟩ | ⟨_, rfl, beyond, rfl⟩ | ⟨_, _, rfl, earlier, one, rfl⟩)
    · exact .operand found undefined
    · exact .input found beyond
    · exact .weight found beyond
    · exact .duplicate earlier one found

theorem violation_output_iff {t : Trace α} {position id : Nat} (found : t.outputs[position]? = some id)
    (e : TraceError) :
    t.Violation (t.size + position) e ↔ t.size ≤ id ∧ .undefinedOutput position id = e := by
  constructor
  · intro violation
    generalize same : t.size + position = place at violation
    cases violation with
    | operand found | input found | weight found | duplicate _ _ found =>
        have := lt_size found
        omega
    | output found' undefined =>
        obtain rfl := Nat.add_left_cancel same
        obtain rfl := Option.some.inj (found.symm.trans found')
        exact ⟨undefined, rfl⟩
  · rintro ⟨undefined, rfl⟩
    exact .output found undefined

theorem verifyOutput_eq_error_iff {t : Trace α} {position id : Nat} (found : t.outputs[position]? = some id)
    (e : TraceError) : t.verifyOutput position id = .error e ↔ t.Violation (t.size + position) e := by
  rw [violation_output_iff found, verifyOutput]
  by_cases defined : id < t.size
  · have inside := Nat.not_le.mpr defined
    simp [defined, inside]
  · have beyond := Nat.le_of_not_lt defined
    simp [defined, beyond]

theorem Listed.skip {t : Trace α} {id : Nat} {node : Node α} {inputs : List (Nat × NodeId)}
    (listed : t.Listed id inputs) (found : t.nodes[id]? = some node) (other : ∀ index, node ≠ .input index) :
    t.Listed (id + 1) inputs := by
  intro index first
  rw [listed index first, Nat.lt_succ_iff_lt_or_eq, or_and_right, or_iff_left]
  rintro ⟨rfl, same⟩
  exact other index (Option.some.inj (found.symm.trans same))

theorem Listed.cons {t : Trace α} {id index : Nat} {inputs : List (Nat × NodeId)}
    (listed : t.Listed id inputs) (found : t.nodes[id]? = some (.input index))
    (fresh : inputs.lookup index = none) : t.Listed (id + 1) ((index, id) :: inputs) := by
  intro other first
  rw [List.lookup_cons, Nat.lt_succ_iff_lt_or_eq, or_and_right, ← listed other first]
  by_cases same : other = index
  · subst same
    simp only [BEq.rfl, fresh, reduceCtorEq, false_or, Option.some.injEq]
    exact ⟨fun this => ⟨this.symm, this ▸ found⟩, fun this => this.1.symm⟩
  · have apart : (other == index) = false := by simpa using same
    simp only [apart]
    refine ⟨.inl, fun this => this.resolve_right ?_⟩
    rintro ⟨rfl, again⟩
    exact same (Node.input.inj (Option.some.inj (again.symm.trans found)))

theorem verifyOperands_eq_error_iff (id : Nat) (node : Node α) (e : TraceError) :
    verifyOperands id node = .error e ↔
      ∃ operand, node.operands.find? (id ≤ ·) = some operand ∧ .useBeforeDefinition id operand = e := by
  unfold verifyOperands
  split
  · next operand found => simp [found]
  · next none => simp [none]

theorem verifyNode_input (t : Trace α) (inputs : List (Nat × NodeId)) (id index : Nat) :
    t.verifyNode inputs id (.input index) =
      if t.inputCount ≤ index then .error (.inputOutOfRange id index t.inputCount)
      else match inputs.lookup index with
        | some first => .error (.duplicateInput index first id)
        | none => .ok ((index, id) :: inputs) :=
  rfl

theorem verifyNode_weight (t : Trace α) (inputs : List (Nat × NodeId)) (id index : Nat) :
    t.verifyNode inputs id (.weight index) =
      if t.weightCount ≤ index then .error (.weightOutOfRange id index t.weightCount) else .ok inputs :=
  rfl

theorem verifyNode_eq_error_iff {t : Trace α} {id : Nat} {node : Node α} {inputs : List (Nat × NodeId)}
    (found : t.nodes[id]? = some node) (listed : t.Listed id inputs) (clean : t.Clean id) (e : TraceError) :
    t.verifyNode inputs id node = .error e ↔ t.Violation id e := by
  rw [violation_node_iff found, ← verifyOperands_eq_error_iff]
  cases node with
  | input index =>
      have again : (∃ other first, (Node.input index : Node α) = .input other ∧ first < id ∧
          t.nodes[first]? = some (.input other : Node α) ∧ .duplicateInput other first id = e) ↔
          ∃ first, inputs.lookup index = some first ∧ .duplicateInput index first id = e := by
        simp [listed index, and_assoc]
      rw [again]
      by_cases beyond : t.inputCount ≤ index
      · -- A second node that is out of range comes after a first one that is.
        have unread : inputs.lookup index = none := by
          refine Option.eq_none_iff_forall_ne_some.mpr fun first read => ?_
          obtain ⟨earlier, one⟩ := (listed index first).mp read
          exact clean first earlier _ (.input one beyond)
        simp [verifyNode_input, verifyOperands, Node.operands, beyond, unread]
      · cases before : inputs.lookup index <;>
          simp [verifyNode_input, verifyOperands, Node.operands, beyond, before]
  | weight index =>
      by_cases beyond : t.weightCount ≤ index <;>
        simp [verifyNode_weight, verifyOperands, Node.operands, beyond]
  | const | unary | binary | power =>
      simp only [verifyNode, reduceCtorEq, false_and, exists_false, or_false]
      cases verifyOperands id _ <;> simp [bind, Except.bind]

theorem listed_of_verifyNode {t : Trace α} {id : Nat} {node : Node α} {inputs next : List (Nat × NodeId)}
    (found : t.nodes[id]? = some node) (listed : t.Listed id inputs)
    (passed : t.verifyNode inputs id node = .ok next) : t.Listed (id + 1) next := by
  cases node with
  | input index =>
      rw [verifyNode_input] at passed
      split at passed
      · cases passed
      · cases before : inputs.lookup index with
        | some first =>
            rw [before] at passed
            cases passed
        | none =>
            rw [before] at passed
            obtain rfl := Except.ok.inj passed
            exact listed.cons found before
  | weight index =>
      rw [verifyNode_weight] at passed
      split at passed
      · cases passed
      · obtain rfl := Except.ok.inj passed
        exact listed.skip found (by simp)
  | const | unary | binary | power =>
      obtain ⟨_, _, same⟩ := (bind_eq_ok_iff _ _ _).mp passed
      obtain rfl := Except.ok.inj same
      exact listed.skip found (by simp)

theorem check_outcome {t : Trace α} {place : Nat} {β : Type} (result : Except TraceError β) (clean : t.Clean place)
    (faults : ∀ e, result = .error e ↔ t.Violation place e) :
    (∃ next, result = .ok next ∧ t.Clean (place + 1)) ∨ ∃ e, result = .error e ∧ t.SoleViolation place e := by
  cases result with
  | ok next => exact .inl ⟨next, rfl, clean.succ fun e violation => nomatch (faults e).mpr violation⟩
  | error e => exact .inr ⟨e, rfl, clean, fun other => by rw [← faults other, Except.error.injEq]⟩

theorem verify_nodes (t : Trace α) :
    (∃ inputs, t.nodes.toList.zipIdx.foldlM (fun inputs (node, id) => t.verifyNode inputs id node) [] =
        .ok inputs ∧ t.Clean t.size) ∨
      ∃ place e, t.nodes.toList.zipIdx.foldlM (fun inputs (node, id) => t.verifyNode inputs id node) [] =
        .error e ∧ t.SoleViolation place e := by
  have outcome := foldlM_outcome (fun inputs (node, id) => t.verifyNode inputs id node) t.nodes.toList.zipIdx []
    (fun place inputs => t.Listed place inputs ∧ t.Clean place) t.SoleViolation
    ⟨by simp [Listed], by simp [Clean]⟩ ?_
  · refine outcome.imp_left ?_
    rintro ⟨inputs, passed, _, clean⟩
    exact ⟨inputs, passed, by simpa [Trace.size] using clean⟩
  · rintro place ⟨node, id⟩ inputs item ⟨listed, clean⟩
    obtain ⟨found, rfl⟩ : t.nodes[place]? = some node ∧ place = id := by simpa using item
    refine (check_outcome _ clean (verifyNode_eq_error_iff found listed clean)).imp_left ?_
    rintro ⟨next, passed, further⟩
    exact ⟨next, passed, listed_of_verifyNode found listed passed, further⟩

theorem verify_outputs {t : Trace α} (clean : t.Clean t.size) :
    (t.outputs.zipIdx.forM fun (id, position) => t.verifyOutput position id) = .ok () ∧
        t.Clean (t.size + t.outputs.length) ∨
      ∃ place e, (t.outputs.zipIdx.forM fun (id, position) => t.verifyOutput position id) = .error e ∧
        t.SoleViolation place e := by
  rw [forM_eq_foldlM]
  have outcome := foldlM_outcome (fun _ (id, position) => t.verifyOutput position id) t.outputs.zipIdx ()
    (fun position _ => t.Clean (t.size + position)) (fun position => t.SoleViolation (t.size + position)) clean ?_
  · refine outcome.imp ?_ ?_
    · rintro ⟨_, passed, further⟩
      exact ⟨passed, by simpa using further⟩
    · rintro ⟨position, e, failed, sole⟩
      exact ⟨_, e, failed, sole⟩
  · rintro place ⟨id, position⟩ _ item before
    obtain ⟨found, rfl⟩ : t.outputs[place]? = some id ∧ place = position := by simpa using item
    exact check_outcome _ before (verifyOutput_eq_error_iff found)

/-- There is no place after the nodes and the outputs. -/
theorem Violation.place_lt {t : Trace α} {place : Nat} {e : TraceError} (violation : t.Violation place e) :
    place < t.size + t.outputs.length := by
  cases violation with
  | operand found | input found | weight found | duplicate _ _ found =>
      have := lt_size found
      omega
  | output found =>
      have := (List.getElem?_eq_some_iff.mp found).1
      omega

theorem verify_outcome (t : Trace α) :
    t.verify = .ok () ∧ (∀ place e, ¬t.Violation place e) ∨
      ∃ place e, t.verify = .error e ∧ t.SoleViolation place e := by
  unfold verify
  rcases t.verify_nodes with ⟨inputs, passed, clean⟩ | ⟨place, e, failed, sole⟩
  · rw [passed]
    refine (verify_outputs clean).imp_left fun ⟨passed, clean⟩ => ⟨passed, fun place e violation => ?_⟩
    exact clean place violation.place_lt e violation
  · rw [failed]
    exact .inr ⟨place, e, rfl, sole⟩

theorem verify_eq_ok_iff_not_violation (t : Trace α) : t.verify = .ok () ↔ ∀ place e, ¬t.Violation place e := by
  rcases t.verify_outcome with ⟨passed, none⟩ | ⟨place, e, failed, _, sole⟩
  · exact iff_of_true passed none
  · exact iff_of_false (by simp [failed]) fun none => none place e ((sole e).mpr rfl)

/-- The check reports the first violation. -/
theorem verify_eq_error_iff (t : Trace α) (e : TraceError) : t.verify = .error e ↔ t.FirstViolation e := by
  rcases t.verify_outcome with ⟨passed, none⟩ | ⟨place, first, failed, clean, sole⟩
  · refine iff_of_false (by simp [passed]) ?_
    rintro ⟨place, violation, _⟩
    exact none place e violation
  · rw [failed, Except.error.injEq, ← sole e]
    refine ⟨fun violation => ⟨place, violation, clean⟩, ?_⟩
    rintro ⟨other, violation, before⟩
    obtain rfl : other = place := by
      rcases Nat.lt_trichotomy other place with less | same | greater
      · exact absurd violation (clean other less e)
      · exact same
      · exact absurd ((sole first).mpr rfl) (before place greater first)
    exact violation

/-- The second reading of an input comes before the weight that is out of range. -/
example : ({ nodes := #[.input 0, .input 0, .weight 1], inputCount := 1, weightCount := 1 } : Trace Nat).verify =
    .error (.duplicateInput 0 0 1) := rfl

end Trace

end AutoDiff
