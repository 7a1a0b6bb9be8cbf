import AutoDiff.Proofs.SourceKernels

namespace AutoDiff

namespace CSource

/-- A power with a literal whole exponent is an integer power. -/
def wholeRule : PowerRule := fun x n => Arithmetic.power x n

/-- The first `count` variables are declared, and they have the values of the nodes. -/
structure Frame.Follows (R : Binary64 → Binary64 → Prop) (f : Frame) (values : Array Binary64)
    (count : Nat) : Prop where
  known : ∀ v, v < count → ∃ a b, f.get? v = some a ∧ values[v]? = some b ∧ R a b
  unknown : ∀ v, count ≤ v → f.get? v = none

theorem Frame.get?_declare (f : Frame) (id v : Nat) (a : Binary64) :
    { f with values := (id, a) :: f.values }.get? v = if v = id then some a else f.get? v := by
  unfold Frame.get?
  rw [List.lookup_cons]
  by_cases same : v = id
  · subst same
    simp
  · rw [beq_false_of_ne same, if_neg same]

end CSource

open CSource

variable {R : Binary64 → Binary64 → Prop}

theorem Node.exists_value? (congruence : Congruence R) {node : Node Binary64} {f : Frame}
    {values : Array Binary64} (literal : ∀ c, node = .const c → R (Literal.ofBinary64 c).value c)
    (operands : ∀ v : Nat, v ∈ node.operands → ∃ a b, f.get? v = some a ∧ values[v]? = some b ∧ R a b)
    {b : Binary64} (value : node.value? f.x f.w values = some b) :
    ∃ a, node.toExpr.value? wholeRule f = some a ∧ R a b := by
  cases node with
  | input index => exact ⟨b, value, congruence.refl b⟩
  | weight index => exact ⟨b, value, congruence.refl b⟩
  | const c =>
      obtain rfl : c = b := by simpa [Node.value?] using value
      exact ⟨_, rfl, literal c rfl⟩
  | unary op arg =>
      obtain ⟨a, c, known, same, related⟩ := operands arg (by simp [Node.operands])
      obtain rfl : Arithmetic.unary op c = b := by simpa [Node.value?, same] using value
      refine ⟨Arithmetic.unary op a, ?_, congruence.unary op related⟩
      cases op <;> simp [Node.toExpr, UnaryOp.toExpr, Expr.value?, known, MathFunction.op]
  | binary op lhs rhs =>
      obtain ⟨a, c, known, same, left⟩ := operands lhs (by simp [Node.operands])
      obtain ⟨d, e, also, too, right⟩ := operands rhs (by simp [Node.operands])
      obtain rfl : Arithmetic.binary op c e = b := by simpa [Node.value?, same, too] using value
      refine ⟨Arithmetic.binary op a d, ?_, congruence.binary op left right⟩
      cases op <;> simp [Node.toExpr, BinaryOp.toExpr, Expr.value?, known, also, Operator.op]
  | power base exponent =>
      obtain ⟨a, c, known, same, related⟩ := operands base (by simp [Node.operands])
      obtain rfl : Arithmetic.power c exponent = b := by simpa [Node.value?, same] using value
      exact ⟨_, by simp [Node.toExpr, Expr.value?, known, wholeRule], congruence.power exponent related⟩

namespace Trace

variable {t : Trace Binary64} {x w values : Array Binary64}

def Literals (R : Binary64 → Binary64 → Prop) (t : Trace Binary64) : Prop :=
  ∀ c, .const c ∈ t.nodes → R (Literal.ofBinary64 c).value c

theorem exists_declarations (congruence : Congruence R) (literals : t.Literals R) (ordered : t.Ordered)
    (valued : t.Valued x w values) (result : Buffer) (rest : List (Node Binary64)) (count : Nat)
    (split : t.nodes.toList.drop count = rest) {f : Frame} (sameX : f.x = x) (sameW : f.w = w)
    (follows : f.Follows R values count) :
    ∃ g, ((rest.zipIdx count).map fun (node, id) => Statement.declare id node.toExpr).foldlM
        (Statement.run? wholeRule result) f = some g ∧ g.result = f.result ∧
      ∀ v, v < t.size → ∃ a b, g.get? v = some a ∧ values[v]? = some b ∧ R a b := by
  induction rest generalizing count f with
  | nil =>
      have done : t.size ≤ count := by simpa [size] using List.drop_eq_nil_iff.mp split
      exact ⟨f, rfl, rfl, fun v less => follows.known v (by omega)⟩
  | cons node rest ih =>
      have found : t.nodes[count]? = some node := by
        have first := congrArg (·[0]?) split
        simpa [List.getElem?_drop] using first
      have inside : count < values.size := valued.1 ▸ lt_size found
      have value := valued.2 count node found
      rw [Array.getElem?_eq_getElem inside, ← sameX, ← sameW] at value
      obtain ⟨a, calculated, related⟩ := Node.exists_value? congruence
        (fun c same => literals c (same ▸ Array.mem_of_getElem? found))
        (fun v member => follows.known v (ordered count node found v member)) value.symm
      have step : Statement.run? wholeRule result f (.declare count node.toExpr) =
          some { f with values := (count, a) :: f.values } := by
        simp [Statement.run?, follows.unknown count (Nat.le_refl count), calculated]
      have next : Frame.Follows R { f with values := (count, a) :: f.values } values (count + 1) := by
        constructor
        · intro v less
          rw [Frame.get?_declare]
          by_cases same : v = count
          · subst same
            exact ⟨a, values[v], by simp, Array.getElem?_eq_getElem inside, related⟩
          · rw [if_neg same]
            exact follows.known v (by omega)
        · intro v more
          rw [Frame.get?_declare, if_neg (by omega)]
          exact follows.unknown v (by omega)
      have remaining : t.nodes.toList.drop (count + 1) = rest := by
        rw [← List.drop_drop, split]
        rfl
      obtain ⟨g, run, result, each⟩ := ih (count + 1) remaining
        (f := { f with values := (count, a) :: f.values }) sameX sameW next
      refine ⟨g, ?_, result, each⟩
      rw [List.zipIdx_cons, List.map_cons, List.foldlM_cons, step]
      exact run

theorem exists_stores (result : Buffer) (rest : List NodeId) (slot : Nat) {f : Frame}
    (known : ∀ id : Nat, id ∈ rest → ∃ a, f.get? id = some a)
    (size : slot + rest.length ≤ f.result.size) :
    ∃ g, ((rest.zipIdx slot).map fun (id, slot) => Statement.store result slot id).foldlM
        (Statement.run? wholeRule result) f = some g ∧ g.result.size = f.result.size ∧
      (∀ i, i < slot → g.result[i]? = f.result[i]?) ∧
      ∀ (i id : Nat), rest[i]? = some id → g.result[slot + i]? = f.get? id := by
  induction rest generalizing slot f with
  | nil => exact ⟨f, rfl, rfl, fun _ _ => rfl, by simp⟩
  | cons id rest ih =>
      obtain ⟨a, value⟩ := known id (by simp)
      rw [List.length_cons] at size
      have inside : slot < f.result.size := by omega
      have step : Statement.run? wholeRule result f (.store result slot id) =
          some { f with result := f.result.setIfInBounds slot a } := by
        simp [Statement.run?, inside, value]
      obtain ⟨g, run, length, before, after⟩ := ih (slot + 1)
        (f := { f with result := f.result.setIfInBounds slot a })
        (fun other member => known other (by simp [member])) (by simpa using by omega)
      refine ⟨g, ?_, by simpa using length, fun i less => ?_, fun i other found => ?_⟩
      · rw [List.zipIdx_cons, List.map_cons, List.foldlM_cons, step]
        exact run
      · rw [before i (by omega)]
        exact Array.getElem?_setIfInBounds_ne (by omega)
      · cases i with
        | zero =>
            obtain rfl : id = other := by simpa using found
            rw [Nat.add_zero, before slot (Nat.lt_succ_self slot), value]
            simp [inside]
        | succ i =>
            rw [← Nat.succ_add_eq_add_succ]
            exact after i other (by simpa using found)

/-- With buffers of the right lengths, the source of a kernel stores what evaluation computes. -/
theorem exists_run (congruence : Congruence R) (literals : t.Literals R) (wellFormed : t.WellFormed)
    (name part : String) (arguments : List Buffer) (result : Buffer) {buffer : Array Binary64}
    (inputs : x.size = t.inputCount) (weights : w.size = t.weightCount)
    (length : buffer.size = t.outputs.length) :
    ∃ stored computed,
      (KernelSet.kernelSource name part arguments result t).run? wholeRule x w buffer = some stored ∧
        t.evaluateInto x w buffer = some (.ok computed) ∧
        List.Forall₂ R stored.toList computed.toList := by
  obtain ⟨values, computed, evaluated, valued, picked⟩ := exists_evaluateInto wellFormed inputs weights length
  obtain ⟨start, isStart⟩ : ∃ start : Frame, start = { x, w, result := buffer } := ⟨_, rfl⟩
  have mentioned : t.mentions.foldlM (Statement.run? wholeRule result) start = some start := by
    unfold mentions
    split <;> rfl
  obtain ⟨middle, declared, kept, known⟩ := exists_declarations congruence literals wellFormed.ordered valued
    result t.nodes.toList 0 rfl (f := start) (by rw [isStart]) (by rw [isStart])
    ⟨fun v less => absurd less (Nat.not_lt_zero v), fun v _ => by rw [isStart]; rfl⟩
  have keptResult : middle.result = buffer := by rw [kept, isStart]
  obtain ⟨final, stored, size, _, slots⟩ := exists_stores result t.outputs 0 (f := middle)
    (fun id member => by
      obtain ⟨a, _, value, _⟩ := known id (wellFormed.outputs id member)
      exact ⟨a, value⟩) (by simp [keptResult, length])
  have run : (t.statements result).foldlM (Statement.run? wholeRule result) start = some final := by
    rw [statements_eq, List.foldlM_append, mentioned, Option.bind_eq_bind, Option.bind_some,
      List.foldlM_append, declarations, declared, Option.bind_eq_bind, Option.bind_some]
    exact stored
  refine ⟨final.result, computed, ?_, evaluated, List.forall₂_iff_get.mpr ⟨?_, fun i less _ => ?_⟩⟩
  · simp [Kernel.run?, KernelSet.kernelSource, ← isStart, run]
  · simp [size, keptResult, length, picked.1]
  · have slot : i < t.outputs.length := by
      rw [Array.length_toList, size, keptResult, length] at less
      exact less
    have output : t.outputs[i]? = some t.outputs[i] := List.getElem?_eq_getElem slot
    obtain ⟨a, b, value, same, related⟩ := known _ (wellFormed.outputs _ (List.getElem_mem slot))
    have first := slots i _ output
    have second := picked.2 i _ output
    rw [Nat.zero_add, value, Array.getElem?_eq_some_iff] at first
    rw [same, Array.getElem?_eq_some_iff] at second
    obtain ⟨_, first⟩ := first
    obtain ⟨_, second⟩ := second
    simpa [first, second] using related

end Trace

end AutoDiff
