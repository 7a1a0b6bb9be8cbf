import AutoDiff.CSource.Evaluate
import AutoDiff.KernelSet.Source
import AutoDiff.Proofs.Alike
import AutoDiff.Proofs.Evaluation
import AutoDiff.Proofs.Validation

namespace AutoDiff

namespace CSource

def Expr.variables : Expr → List Nat
  | element _ _ | literal _ => []
  | negation v | call _ v | wholePow v _ => [v]
  | operation _ u v | pow u v => [u, v]

def Expr.element? : Expr → Option (Buffer × Nat)
  | element buffer index => some (buffer, index)
  | _ => none

namespace Statement

def uses : Statement → List Nat
  | mention _ => []
  | declare _ value => value.variables
  | store _ _ v => [v]

def declared? : Statement → Option Nat
  | declare v _ => some v
  | _ => none

def stored? : Statement → Option (Buffer × Nat)
  | store buffer slot _ => some (buffer, slot)
  | _ => none

def element? : Statement → Option (Buffer × Nat)
  | declare _ value => value.element?
  | _ => none

def parameters : Statement → List Buffer
  | mention buffer => [buffer]
  | declare _ value => (value.element?.map Prod.fst).toList
  | store buffer _ _ => [buffer]

end Statement

/-- Straight-line code that respects its variables and its buffers. -/
structure Kernel.Proper (k : Kernel) (inputs weights results : Nat) : Prop where
  once : (k.body.filterMap Statement.declared?).Nodup
  before : ∀ (position : Nat) (s : Statement), k.body[position]? = some s → ∀ v ∈ s.uses,
    ∃ earlier value, earlier < position ∧ k.body[earlier]? = some (.declare v value)
  inside : ∀ s ∈ k.body, ∀ (buffer : Buffer) (index : Nat), s.element? = some (buffer, index) →
    buffer = .x ∧ index < inputs ∨ buffer = .w ∧ index < weights
  stores : k.body.filterMap Statement.stored? = (List.range results).map fun slot => (k.result, slot)
  scope : ∀ s ∈ k.body, ∀ buffer ∈ s.parameters, buffer ∈ k.arguments ++ [k.result]

end CSource

open CSource

namespace Node

theorem variables_toExpr (node : Node Binary64) : node.toExpr.variables = node.operands := by
  cases node with
  | unary op arg => cases op <;> rfl
  | binary op lhs rhs => cases op <;> rfl
  | input | weight | const | power => rfl

theorem element?_toExpr (node : Node Binary64) :
    node.toExpr.element? = match node with
      | .input index => some (.x, index)
      | .weight index => some (.w, index)
      | _ => none := by
  cases node with
  | unary op arg => cases op <;> rfl
  | binary op lhs rhs => cases op <;> rfl
  | input | weight | const | power => rfl

end Node

namespace Trace

def mentions (t : Trace Binary64) : List Statement :=
  .mention .x :: if 0 < t.weightCount then [.mention .w] else []

def declarations (t : Trace Binary64) : List Statement :=
  t.nodes.toList.zipIdx.map fun (node, id) => .declare id node.toExpr

def stores (t : Trace Binary64) (result : Buffer) : List Statement :=
  t.outputs.zipIdx.map fun (id, slot) => .store result slot id

variable {t : Trace Binary64}

theorem statements_eq (t : Trace Binary64) (result : Buffer) :
    t.statements result = t.mentions ++ (t.declarations ++ t.stores result) := by
  simp [statements, mentions, declarations, stores]

theorem mention_of_mem {s : Statement} (member : s ∈ t.mentions) :
    s = .mention .x ∨ 0 < t.weightCount ∧ s = .mention .w := by
  unfold mentions at member
  split at member
  · next some => simpa [some] using member
  · exact .inl (List.mem_singleton.mp member)

theorem getElem?_declarations (t : Trace Binary64) (id : Nat) :
    t.declarations[id]? = t.nodes[id]?.map fun node => .declare id node.toExpr := by
  simp [declarations, List.getElem?_zipIdx, Function.comp_def]

theorem getElem?_stores (t : Trace Binary64) (result : Buffer) (slot : Nat) :
    (t.stores result)[slot]? = t.outputs[slot]?.map fun id => .store result slot id := by
  simp [stores, List.getElem?_zipIdx, Function.comp_def]

theorem declared_statements (t : Trace Binary64) (result : Buffer) :
    (t.statements result).filterMap Statement.declared? = List.range t.size := by
  have mentions : t.mentions.filterMap Statement.declared? = [] := by
    rw [List.filterMap_eq_nil_iff]
    intro s member
    rcases mention_of_mem member with rfl | ⟨_, rfl⟩ <;> rfl
  have declarations : t.declarations.filterMap Statement.declared? = List.range t.size := by
    rw [declarations, List.filterMap_map]
    have each : (Statement.declared? ∘ fun (node, id) => Statement.declare id (Node.toExpr node)) =
        some ∘ Prod.snd := rfl
    rw [each, List.filterMap_eq_map, List.zipIdx_map_snd, List.range_eq_range']
    rfl
  have stores : (t.stores result).filterMap Statement.declared? = [] := by
    rw [List.filterMap_eq_nil_iff]
    intro s member
    obtain ⟨_, _, rfl⟩ := List.mem_map.mp member
    rfl
  rw [statements_eq, List.filterMap_append, List.filterMap_append, mentions, declarations, stores]
  simp

theorem stored_statements (t : Trace Binary64) (result : Buffer) :
    (t.statements result).filterMap Statement.stored? =
      (List.range t.outputs.length).map fun slot => (result, slot) := by
  have mentions : t.mentions.filterMap Statement.stored? = [] := by
    rw [List.filterMap_eq_nil_iff]
    intro s member
    rcases mention_of_mem member with rfl | ⟨_, rfl⟩ <;> rfl
  have declarations : t.declarations.filterMap Statement.stored? = [] := by
    rw [List.filterMap_eq_nil_iff]
    intro s member
    obtain ⟨_, _, rfl⟩ := List.mem_map.mp member
    rfl
  have stores : (t.stores result).filterMap Statement.stored? =
      (List.range t.outputs.length).map fun slot => (result, slot) := by
    rw [stores, List.filterMap_map]
    have each : (Statement.stored? ∘ fun entry : Nat × Nat => Statement.store result entry.2 entry.1) =
        some ∘ (fun slot => (result, slot)) ∘ Prod.snd := rfl
    rw [each, List.filterMap_eq_map, ← List.map_map, List.zipIdx_map_snd, List.range_eq_range']
  rw [statements_eq, List.filterMap_append, List.filterMap_append, mentions, declarations, stores]
  rfl

theorem operands_lt (wellFormed : t.WellFormed) {id : Nat} {node : Node Binary64}
    (found : t.nodes[id]? = some node) {v : Nat} (used : v ∈ node.toExpr.variables) : v < id := by
  rw [Node.variables_toExpr] at used
  exact wellFormed.ordered id node found v used

theorem exists_declaration (wellFormed : t.WellFormed) (result : Buffer) {position : Nat} {s : Statement}
    (found : (t.statements result)[position]? = some s) {v : Nat} (used : v ∈ s.uses) :
    ∃ earlier value, earlier < position ∧ (t.statements result)[earlier]? = some (.declare v value) := by
  have declared (v : Nat) (less : v < t.size) :
      ∃ value, (t.statements result)[t.mentions.length + v]? = some (.declare v value) := by
    have here : t.declarations[v]? = some (.declare v (t.nodes[v]).toExpr) := by
      rw [getElem?_declarations, Array.getElem?_eq_getElem less]
      rfl
    refine ⟨(t.nodes[v]).toExpr, ?_⟩
    rw [statements_eq, List.getElem?_append_right (by omega), Nat.add_sub_cancel_left,
      List.getElem?_append_left (List.getElem?_eq_some_iff.mp here).1, here]
  have length : t.declarations.length = t.size := by simp [declarations, size]
  rw [statements_eq] at found
  rcases Nat.lt_or_ge position t.mentions.length with early | later
  · rw [List.getElem?_append_left early] at found
    rcases mention_of_mem (List.mem_of_getElem? found) with rfl | ⟨_, rfl⟩ <;> simp [Statement.uses] at used
  · rw [List.getElem?_append_right later] at found
    rcases Nat.lt_or_ge (position - t.mentions.length) t.declarations.length with node | store
    · rw [List.getElem?_append_left node, getElem?_declarations, Option.map_eq_some_iff] at found
      obtain ⟨node, there, rfl⟩ := found
      have less := operands_lt wellFormed there used
      obtain ⟨value, same⟩ := declared v (by omega)
      exact ⟨_, value, by omega, same⟩
    · rw [List.getElem?_append_right store, getElem?_stores, Option.map_eq_some_iff] at found
      obtain ⟨id, there, rfl⟩ := found
      obtain rfl : v = id := by simpa [Statement.uses] using used
      have less := wellFormed.outputs v (List.mem_of_getElem? there)
      obtain ⟨value, same⟩ := declared v less
      exact ⟨_, value, by omega, same⟩

theorem parameters_of_mem (wellFormed : t.WellFormed) {result : Buffer} {s : Statement}
    (member : s ∈ t.statements result) :
    (∀ buffer ∈ s.parameters, buffer = .x ∨ 0 < t.weightCount ∧ buffer = .w ∨ buffer = result) ∧
      ∀ (buffer : Buffer) (index : Nat), s.element? = some (buffer, index) →
        buffer = .x ∧ index < t.inputCount ∨ buffer = .w ∧ index < t.weightCount := by
  rw [statements_eq, List.mem_append, List.mem_append] at member
  rcases member with mention | declaration | store
  · rcases mention_of_mem mention with rfl | ⟨some, rfl⟩
    · simp [Statement.parameters, Statement.element?]
    · simp [Statement.parameters, Statement.element?, some]
  · obtain ⟨⟨node, id⟩, there, rfl⟩ := List.mem_map.mp declaration
    have found : t.nodes[id]? = some node := by
      have same := List.mem_zipIdx_iff_getElem?.mp there
      simpa using same
    simp only [Statement.parameters, Statement.element?, Node.element?_toExpr]
    cases node with
    | input index =>
        have bound := wellFormed.inputs id index found
        simpa using bound
    | weight index =>
        have bound := wellFormed.weights id index found
        have some := Nat.zero_lt_of_lt bound
        simpa [some] using bound
    | const | unary | binary | power => simp
  · obtain ⟨_, _, rfl⟩ := List.mem_map.mp store
    simp [Statement.parameters, Statement.element?]

/-- The kernel source of a trace. -/
theorem Fits.proper {inputs weights outputs : Nat} (fits : t.Fits inputs weights outputs)
    {name part : String} {arguments : List Buffer} {result : Buffer} (x : .x ∈ arguments)
    (w : 0 < weights → .w ∈ arguments) :
    (KernelSet.kernelSource name part arguments result t).Proper inputs weights outputs := by
  obtain ⟨wellFormed, rfl, rfl, rfl⟩ := fits
  constructor
  · rw [KernelSet.kernelSource, declared_statements]
    exact List.nodup_range
  · intro position s found v used
    exact exists_declaration wellFormed result found used
  · intro s member
    exact (parameters_of_mem wellFormed member).2
  · exact stored_statements t result
  · intro s member buffer named
    rw [List.mem_append]
    rcases (parameters_of_mem wellFormed member).1 buffer named with rfl | ⟨some, rfl⟩ | rfl
    · exact .inl x
    · exact .inl (w some)
    · exact .inr (List.mem_singleton.mpr rfl)

end Trace

end AutoDiff
