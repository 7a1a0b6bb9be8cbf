import AutoDiff.Proofs.KernelValues
import AutoDiff.Proofs.Regions
import AutoDiff.Proofs.Values

namespace AutoDiff

open Expression

variable {F : Type} [Field F] [FieldArithmetic F] {t u : Trace F} {x w values : Array F}

theorem Node.value?_eq_eval {f : NodeId → Expression F} {node : Node F}
    (inputs : ∀ index, node = .input index → index < x.size)
    (weights : ∀ index, node = .weight index → index < w.size)
    (operands : ∀ operand : Nat, operand ∈ node.operands → values[operand]? = some ((f operand).eval x w)) :
    node.value? x w values = some ((node.unfold f).eval x w) := by
  cases node with
  | input index =>
      have inside := inputs index rfl
      simp [value?, unfold, Expression.eval, inside]
  | weight index =>
      have inside := weights index rfl
      simp [value?, unfold, Expression.eval, inside]
  | const value => rfl
  | unary op arg =>
      have first := operands arg (by simp [Node.operands])
      simp [value?, unfold, Expression.eval, first]
  | binary op lhs rhs =>
      have left := operands lhs (by simp [Node.operands])
      have right := operands rhs (by simp [Node.operands])
      simp [value?, unfold, Expression.eval, left, right]
  | power base exponent =>
      have first := operands base (by simp [Node.operands])
      simp [value?, unfold, Expression.eval, first]

def Simplified.value? (x w values : Array F) : Simplified F → Option F
  | existing id => values[id]?
  | fresh node => node.value? x w values

namespace Node

theorem interpret_eq_toClass (node : Node F) (f : NodeId → Expression F) :
    node.interpret (Class F) (fun id => toClass (f id)) = toClass (node.unfold f) := by
  cases node with
  | input | weight | const | unary | power => rfl
  | binary op lhs rhs =>
      cases op with
      | div => exact (toClass_div _ _).symm
      | add | sub | mul | pow => rfl

end Node

namespace Trace

theorem Valued.value?_eq_eval (ordered : t.Ordered) (supplied : t.Supplied x w) (valued : t.Valued x w values)
    {node : Node F} (defined : ∀ operand : Nat, operand ∈ node.operands → operand < t.size)
    (inner : ∀ index, node ≠ .input index ∧ node ≠ .weight index) :
    node.value? x w values = some ((node.unfold t.expression).eval x w) := by
  apply Node.value?_eq_eval
  · intro index same
    exact absurd same (inner index).1
  · intro index same
    exact absurd same (inner index).2
  · intro operand member
    exact valued.eq_eval ordered supplied.inputs supplied.weights (defined operand member)

/-- What a node is simplified to is equivalent to it. -/
theorem simplify_equiv (ordered : t.Ordered) {node : Node F} {made : Simplified F}
    (simplified : t.simplify node = some made) : Equiv (made.unfold t) (node.unfold t.expression) := by
  have meaning : t.interpret (Class F) = fun id => toClass (t.expression id) := funext t.interpret_eq_toClass
  have same := simplify_interpret (M := Class F) ordered simplified
  rw [meaning, Node.interpret_eq_toClass] at same
  rw [← toClass_eq_iff, ← same]
  cases made with
  | existing id => exact (t.interpret_eq_toClass id).symm
  | fresh made => rw [Simplified.interpret, meaning, Node.interpret_eq_toClass, Simplified.unfold]

theorem simplify_value? (ordered : t.Ordered) (supplied : t.Supplied x w) (valued : t.Valued x w values)
    {node : Node F} (defined : ∀ operand : Nat, operand ∈ node.operands → operand < t.size) {made : Simplified F}
    (simplified : t.simplify node = some made) (isDefined : made.Defined t node) :
    made.value? x w values = node.value? x w values := by
  by_cases leaf : node.operands = []
  · rw [simplify_of_operands_eq_nil leaf] at simplified
    cases simplified
    rfl
  · -- A node with operands reads neither an input nor a weight, so that it has a value.
    have inner : ∀ index, node ≠ .input index ∧ node ≠ .weight index := by
      intro index
      constructor
      · rintro rfl
        exact leaf rfl
      · rintro rfl
        exact leaf rfl
    rw [valued.value?_eq_eval ordered supplied defined inner, ← eval_eq_of_equiv (simplify_equiv ordered simplified)]
    cases made with
    | existing id => exact valued.eq_eval ordered supplied.inputs supplied.weights isDefined
    | fresh made =>
        apply valued.value?_eq_eval ordered supplied isDefined.1
        refine isDefined.allowed (P := fun other => ∀ index, other ≠ .input index ∧ other ≠ .weight index) ?_ inner
        intro other plain index
        constructor
        · rintro rfl
          exact plain
        · rintro rfl
          exact plain

section

variable {α : Type} {s : Trace α} {id n : NodeId}

theorem Ordered.le_of_reachable (ordered : s.Ordered) (reachable : (s.cone id).Reachable n) : n ≤ id := by
  induction reachable with
  | output member => exact Nat.le_of_eq (List.mem_singleton.mp member)
  | operand _ found member ih => exact Nat.le_trans (Nat.le_of_lt (ordered _ _ found _ member)) ih

def NeededBy (s : Trace α) (roots : List NodeId) (n : NodeId) : Prop :=
  s.size ≤ n ∨ ∃ root ∈ roots, (s.cone root).Reachable n

theorem region_neededBy (s : Trace α) (roots : List NodeId) : s.Region (s.NeededBy roots) fun _ => True := by
  constructor
  · intro id beyond
    exact .inl beyond
  · intro id node needed found operand member
    rcases needed with beyond | ⟨root, isRoot, below⟩
    · exact absurd (lt_size found) (Nat.not_lt.mpr beyond)
    · exact .inr ⟨root, isRoot, .operand below found member⟩
  · intro _ _ _ _
    trivial

end

/-- What inserting a node comes to. -/
structure Inserted (t : Trace F) (node : Node F) (id : NodeId) (u : Trace F) : Prop extends Extends t u where
  size_le_succ : u.size ≤ t.size + 1
  lt_size : id < u.size
  ordered : u.Ordered
  /-- The node that is returned has the value of the operation at the values of the operands. -/
  value : ∀ x w, t.Supplied x w → ∃ values, t.values? x w = some values ∧
    (u.values? x w).bind (·[id]?) = node.value? x w values
  needed : ∀ n, n ≠ id → (u.cone id).Reachable n → ∃ operand ∈ node.operands, (t.cone operand).Reachable n

theorem inserted_existing (ordered : t.Ordered) {node : Node F}
    (defined : ∀ operand : Nat, operand ∈ node.operands → operand < t.size) {id : NodeId}
    (simplified : t.simplify node = some (.existing id)) (inside : id < t.size) : t.Inserted node id t := by
  have region := t.region_neededBy node.operands
  have roots : ∀ operand : Nat, operand ∈ node.operands → t.NeededBy node.operands operand := fun operand member =>
    .inr ⟨operand, member, t.reachable_self operand⟩
  have member : t.NeededBy node.operands id :=
    (rewrites_of_simplify simplified).within region roots fun _ _ => trivial
  refine ⟨.refl t, Nat.le_succ _, inside, ordered, ?_, ?_⟩
  · intro x w supplied
    obtain ⟨values, run, valued⟩ := ordered.exists_values? supplied
    refine ⟨values, run, ?_⟩
    rw [run]
    exact simplify_value? ordered supplied valued defined simplified inside
  · intro n _ below
    have early : n < t.size := Nat.lt_of_le_of_lt (ordered.le_of_reachable below) inside
    rcases region.reachable member below with beyond | found
    · exact absurd early (Nat.not_lt.mpr beyond)
    · exact found

theorem inserted_fresh (ordered : t.Ordered) {node made : Node F}
    (defined : ∀ operand : Nat, operand ∈ node.operands → operand < t.size)
    (simplified : t.simplify node = some (.fresh made)) (isDefined : (Simplified.fresh made).Defined t node) :
    t.Inserted node t.size (t.push made) := by
  have grows := grows_push (P := fun _ => True) t isDefined.1 trivial
  have last : (t.push made).size = t.size + 1 := by simp [push, size]
  have region := t.region_neededBy node.operands
  have roots : ∀ operand : Nat, operand ∈ node.operands → t.NeededBy node.operands operand := fun operand member =>
    .inr ⟨operand, member, t.reachable_self operand⟩
  have within := (rewrites_of_simplify simplified).within region roots fun _ _ => trivial
  have inside : t.size < (t.push made).size := Nat.lt_of_lt_of_eq (Nat.lt_succ_self t.size) last.symm
  refine ⟨extends_push t made, Nat.le_of_eq last, inside, grows.ordered ordered, ?_, ?_⟩
  · intro x w supplied
    obtain ⟨values, run, valued⟩ := ordered.exists_values? supplied
    have same := simplify_value? ordered supplied valued defined simplified isDefined
    refine ⟨values, run, ?_⟩
    rw [values?_push run]
    change made.value? x w values = node.value? x w values at same
    rw [same]
    cases node.value? x w values with
    | none => rfl
    | some value => simp [← valued.1]
  · intro n other below
    have early : n < t.size := Nat.lt_of_le_of_ne ((grows.ordered ordered).le_of_reachable below) other
    have member := (region.push within.1 within.2).reachable (.inl (Nat.le_refl _)) below
    rcases member with beyond | found
    · exact absurd early (Nat.not_lt.mpr beyond)
    · exact found

end Trace

namespace Build

/-- A node over nodes that are there is inserted soundly. -/
theorem insert_sound (ordered : t.Ordered) (node : Node F)
    (defined : ∀ operand : Nat, operand ∈ node.operands → operand < t.size) :
    ∃ id u, insert node t = some (id, u) ∧ t.Inserted node id u := by
  obtain ⟨made, simplified, isDefined⟩ := Trace.exists_simplify ordered node defined
  cases made with
  | existing id =>
      have inserted := Trace.inserted_existing ordered defined simplified isDefined
      exact ⟨id, t, by simp [insert, simplified], inserted⟩
  | fresh fresh =>
      have inserted := Trace.inserted_fresh ordered defined simplified isDefined
      exact ⟨t.size, t.push fresh, by simp [insert, simplified], inserted⟩

def zeroAndNegation : Trace ℚ where
  nodes := #[.input 0, .const 0, .unary .neg 0]
  inputCount := 1
  weightCount := 0

/-- The negation is taken from zero, which comes back to the input itself. -/
theorem insert_sound_zeroAndNegation : zeroAndNegation.Ordered ∧
    (∀ operand : Nat, operand ∈ (Node.binary .sub 1 2 : Node ℚ).operands → operand < zeroAndNegation.size) ∧
    ∃ id u, insert (.binary .sub 1 2) zeroAndNegation = some (id, u) ∧
      zeroAndNegation.Inserted (.binary .sub 1 2) id u := by
  have ordered : zeroAndNegation.Ordered := by
    intro id node found operand member
    rcases id with _ | _ | _ | id
    · obtain rfl : Node.input 0 = node := by simpa [zeroAndNegation] using found
      simp [Node.operands] at member
    · obtain rfl : Node.const 0 = node := by simpa [zeroAndNegation] using found
      simp [Node.operands] at member
    · obtain rfl : Node.unary .neg 0 = node := by simpa [zeroAndNegation] using found
      simp_all [Node.operands]
    · simp [zeroAndNegation] at found
  have defined : ∀ operand : Nat, operand ∈ (Node.binary .sub 1 2 : Node ℚ).operands →
      operand < zeroAndNegation.size := by
    intro operand member
    simp only [Node.operands, List.mem_cons, List.not_mem_nil, or_false] at member
    rcases member with rfl | rfl
    · decide
    · decide
  exact ⟨ordered, defined, insert_sound ordered (.binary .sub 1 2) defined⟩

end Build

end AutoDiff
