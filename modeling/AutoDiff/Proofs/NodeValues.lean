import AutoDiff.Proofs.Evaluation
import Mathlib.Data.List.Forall2

namespace AutoDiff

theorem getElem?_push_of_eq_some {β : Type} {items : Array β} {i : Nat} {item : β} (found : items[i]? = some item)
    (last : β) : (items.push last)[i]? = some item := by
  have inside := (Array.getElem?_eq_some_iff.mp found).1
  rw [Array.getElem?_push_lt inside, ← Array.getElem?_eq_getElem inside, found]

namespace Trace

variable {α : Type} [Arithmetic α] {t : Trace α} {x w values : Array α}

theorem values?_push (run : t.values? x w = some values) (node : Node α) :
    (t.push node).values? x w = (node.value? x w values).map values.push := by
  unfold values? at run ⊢
  rw [push, Array.toList_push, List.foldlM_append, run]
  simp

/-- One more input makes no difference to nodes that do not read it. -/
theorem values?_push_input (consistent : t.Consistent) (size : x.size = t.inputCount) (value : α) :
    t.values? (x.push value) w = t.values? x w := by
  unfold values?
  have same (node : Node α) (member : node ∈ t.nodes.toList) (values : Array α) :
      node.value? (x.push value) w values = node.value? x w values := by
    cases node with
    | input index =>
        obtain ⟨id, inside, found⟩ := List.mem_iff_getElem.mp member
        have declared := consistent.inputs id index (by
          rw [← Array.getElem?_toList, List.getElem?_eq_getElem inside, found])
        have inside : index < x.size := by omega
        exact (Array.getElem?_push_lt inside).trans (Array.getElem?_eq_getElem inside).symm
    | weight | const | unary | binary | power => rfl
  generalize t.nodes.toList = nodes at same
  generalize (#[] : Array α) = done
  induction nodes generalizing done with
  | nil => rfl
  | cons node nodes ih =>
      rw [List.foldlM_cons, List.foldlM_cons, same node (by simp)]
      exact bind_congr fun next => ih (fun node member => same node (by simp [member])) next

theorem evaluate_of_values? (inputs : x.size = t.inputCount) (weights : w.size = t.weightCount)
    (run : t.values? x w = some values) {results : List α}
    (each : List.Forall₂ (fun id result => values[id]? = some result) t.outputs results) :
    t.evaluate x w = some (.ok results.toArray) := by
  obtain ⟨length, entries⟩ := List.forall₂_iff_get.mp each
  have slots (slot id : Nat) (found : t.outputs[slot]? = some id) : values[id]? = results[slot]? := by
    obtain ⟨inside, rfl⟩ := List.getElem?_eq_some_iff.mp found
    rw [List.getElem?_eq_getElem (length ▸ inside)]
    exact entries slot inside (length ▸ inside)
  have defined (id : Nat) (member : id ∈ t.outputs) : id < values.size := by
    obtain ⟨slot, inside, rfl⟩ := List.mem_iff_getElem.mp member
    have value := entries slot inside (length ▸ inside)
    exact (Array.getElem?_eq_some_iff.mp value).1
  obtain ⟨final, stored, size, picked⟩ := exists_store?
    (Array.replicate t.outputs.length (Arithmetic.ofInt 0 : α)) defined (by simp)
  have same : final = results.toArray := by
    apply Array.ext_getElem?
    intro slot
    by_cases less : slot < t.outputs.length
    · have found : t.outputs[slot]? = some t.outputs[slot] := List.getElem?_eq_getElem less
      rw [picked slot _ found, slots slot _ found, List.getElem?_toArray]
    · rw [Array.getElem?_eq_none (by omega), Array.getElem?_eq_none (by simp; omega)]
  have checked := (checkArguments_eq_ok_iff t x w (Array.replicate t.outputs.length (Arithmetic.ofInt 0))).mpr
    ⟨inputs, weights, by simp⟩
  simp [evaluate, evaluateInto_eq, checked, run, stored, same]

def nodeValue? (t : Trace α) (x : Array α) (id : NodeId) : Option α := (t.values? x #[]).bind (·[id]?)

section

variable {longer : Trace α} {y : Array α} {value : α} (replay : longer.values? y #[] = some (values.push value))
include replay

/-- A trace that computes one value more keeps the values of the nodes before. -/
theorem nodeValue?_of_push (run : t.values? x #[] = some values) {id : NodeId} {known : α}
    (valued : t.nodeValue? x id = some known) : longer.nodeValue? y id = some known := by
  rw [nodeValue?, run, Option.bind_some] at valued
  rw [nodeValue?, replay, Option.bind_some]
  exact getElem?_push_of_eq_some valued value

theorem nodeValue?_last : longer.nodeValue? y values.size = some value := by
  rw [nodeValue?, replay, Option.bind_some, Array.getElem?_push_size]

end

end Trace

end AutoDiff
