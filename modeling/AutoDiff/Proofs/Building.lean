import AutoDiff.Proofs.Simplification

/-!
Steps that append nodes to a trace. What a step promises is a `Meets` statement: it succeeds, it only
appends nodes of a certain kind, and its result has a certain property.
-/

namespace AutoDiff

namespace Trace

variable {α : Type}

/-- `t` is `s` with nodes appended of which `P` holds. -/
structure Grows (P : Node α → Prop) (s t : Trace α) : Prop extends Extends s t where
  ordered : s.Ordered → t.Ordered
  added : ∀ (id : Nat) (node : Node α), s.size ≤ id → t.nodes[id]? = some node → P node

variable {P : Node α → Prop}

theorem Grows.refl (t : Trace α) : Grows P t t where
  toExtends := Extends.refl t
  ordered := id
  added _ _ more found := absurd (lt_size found) (Nat.not_lt.mpr more)

theorem Grows.trans {r s t : Trace α} (first : Grows P r s) (second : Grows P s t) : Grows P r t where
  toExtends := first.toExtends.trans second.toExtends
  ordered before := second.ordered (first.ordered before)
  added id node more found := by
    rcases Nat.lt_or_ge id s.size with less | beyond
    · exact first.added id node more (second.nodes id less ▸ found)
    · exact second.added id node beyond found

theorem grows_push (t : Trace α) {node : Node α}
    (defined : ∀ operand : Nat, operand ∈ node.operands → operand < t.size) (allowed : P node) :
    Grows P t (t.push node) where
  toExtends := extends_push t node
  ordered before id other found operand member := by
    rcases Nat.lt_or_ge id t.size with less | more
    · exact before id other ((extends_push t node).nodes id less ▸ found) operand member
    · have last : id = t.size := by
        have := lt_size found
        simp [push, size] at this more ⊢
        omega
      subst last
      obtain rfl : node = other := by simpa [push, size] using found
      exact defined operand member
  added id other more found := by
    have last : id = t.size := by
      have := lt_size found
      simp [push, size] at this more ⊢
      omega
    subst last
    obtain rfl : node = other := by simpa [push, size] using found
    exact allowed

theorem expression_push [Arithmetic α] {t : Trace α} (ordered : t.Ordered) {node : Node α}
    (defined : ∀ operand : Nat, operand ∈ node.operands → operand < t.size) :
    (t.push node).expression t.size = node.unfold t.expression := by
  have after := (grows_push (P := fun _ => True) t defined trivial).ordered ordered
  rw [expression_eq after (push_nodes_size t node)]
  exact Node.unfold_congr fun operand member => (extends_push t node).expression (defined operand member)

/-- Appended nodes leave a trace consistent when they read no input, and weights that there are. -/
theorem Grows.consistent {s t : Trace α} (grows : Grows P s t) (consistent : s.Consistent)
    (noInput : ∀ index, ¬P (.input index))
    (weights : ∀ index, P (.weight index) → index < s.weightCount) : t.Consistent := by
  have old {id index : Nat} (found : t.nodes[id]? = some (.input index : Node α)) :
      s.nodes[id]? = some (.input index : Node α) := by
    rcases Nat.lt_or_ge id s.size with less | more
    · exact grows.nodes id less ▸ found
    · exact absurd (grows.added id _ more found) (noInput index)
  refine ⟨grows.ordered consistent.ordered, ?_, ?_, ?_⟩
  · intro id index found
    rw [grows.inputCount]
    exact consistent.inputs id index (old found)
  · intro id index found
    rw [grows.weightCount]
    rcases Nat.lt_or_ge id s.size with less | more
    · exact consistent.weights id index (grows.nodes id less ▸ found)
    · exact weights index (grows.added id _ more found)
  · intro first second index one two
    exact consistent.distinct first second index (old one) (old two)

variable {M : Type} [Arithmetic α] [CommRing M] [Interpretation α M]

def Denotes (t : Trace α) (id : Nat) (x : M) : Prop := id < t.size ∧ t.interpret M id = x

theorem denotes_interpret {t : Trace α} {id : Nat} (less : id < t.size) :
    t.Denotes id (t.interpret M id) :=
  ⟨less, rfl⟩

theorem Denotes.extend {s t : Trace α} {id : Nat} {x : M} (denotes : s.Denotes id x)
    (more : Extends s t) : t.Denotes id x :=
  ⟨Nat.lt_of_lt_of_le denotes.1 more.size_le, (more.interpret denotes.1).trans denotes.2⟩

theorem denotes_push {t : Trace α} (ordered : t.Ordered) {node : Node α}
    (defined : ∀ operand : Nat, operand ∈ node.operands → operand < t.size) :
    (t.push node).Denotes t.size (node.interpret M (t.interpret M)) := by
  have after := (grows_push (P := fun _ => True) t defined trivial).ordered ordered
  refine ⟨by simp [push, size], ?_⟩
  rw [interpret_eq after (push_nodes_size t node)]
  exact Node.interpret_congr fun operand member => (extends_push t node).interpret (defined operand member)

end Trace

namespace Build

variable {α β γ : Type} {P : Node α → Prop} {s : Trace α}

theorem bind_apply (action : Build α β) (next : β → Build α γ) (t : Trace α) :
    (action >>= next) t = (action t).bind fun (result, after) => next result after := rfl

theorem get_bind (next : Trace α → Build α β) (t : Trace α) : (get >>= next) t = next t t := rfl

theorem bind_eq_none {action : Build α β} {next : β → Build α γ} (fails : ∀ result t, next result t = none) :
    (action >>= next) s = none := by
  rw [bind_apply]
  cases action s with
  | none => rfl
  | some made => exact fails made.1 made.2

section

variable {t : Trace α} {result : γ}

theorem bind_eq_some_iff {action : Build α β} {next : β → Build α γ} :
    (action >>= next) s = some (result, t) ↔
      ∃ middle u, action s = some (middle, u) ∧ next middle u = some (result, t) := by
  rw [bind_apply, Option.bind_eq_some_iff, Prod.exists]

theorem guard_bind_eq_some_iff {condition : Prop} [Decidable condition] {next : Unit → Build α γ} :
    (guard condition >>= next) s = some (result, t) ↔ condition ∧ next () s = some (result, t) := by
  by_cases holds : condition
  · simp [guard, holds]
  · simp [guard, holds, bind_apply, failure, StateT.failure]

theorem lift_bind_eq_some_iff {option : Option β} {next : β → Build α γ} :
    (liftM option >>= next) s = some (result, t) ↔ ∃ x, option = some x ∧ next x s = some (result, t) := by
  cases option with
  | none => simp [bind_apply, liftM, monadLift, MonadLift.monadLift, StateT.lift]
  | some x =>
      simp only [Option.some.injEq, exists_eq_left']
      rfl

end

/-- Started in `s`, an action succeeds, appends nodes of which `P` holds, and ends as `post` says. -/
def Meets (P : Node α → Prop) (action : Build α β) (s : Trace α) (post : β → Trace α → Prop) : Prop :=
  ∃ result t, action s = some (result, t) ∧ s.Grows P t ∧ post result t

theorem Meets.pure {post : β → Trace α → Prop} {result : β} (holds : post result s) :
    Meets P (Pure.pure result) s post :=
  ⟨result, s, rfl, .refl s, holds⟩

theorem Meets.bind {action : Build α β} {next : β → Build α γ} {middle : β → Trace α → Prop}
    {post : γ → Trace α → Prop} (first : Meets P action s middle)
    (second : ∀ result t, s.Grows P t → middle result t → Meets P (next result) t post) :
    Meets P (action >>= next) s post := by
  obtain ⟨result, t, run, grows, holds⟩ := first
  obtain ⟨final, u, rest, more, done⟩ := second result t grows holds
  exact ⟨final, u, by simp [bind_apply, run, rest], grows.trans more, done⟩

theorem Meets.get {next : Trace α → Build α β} {post : β → Trace α → Prop} (meets : Meets P (next s) s post) :
    Meets P (MonadState.get >>= next) s post :=
  meets

theorem Meets.lift {option : Option γ} {next : γ → Build α β} {post : β → Trace α → Prop} {result : γ}
    (known : option = some result) (meets : Meets P (next result) s post) :
    Meets P (liftM option >>= next) s post := by
  subst known
  exact meets

theorem Meets.guarded {condition : Prop} [Decidable condition] {next : Unit → Build α β}
    {post : β → Trace α → Prop} (holds : condition) (meets : Meets P (next ()) s post) :
    Meets P (guard condition >>= next) s post := by
  simpa [guard, holds] using meets

theorem Meets.mono {action : Build α β} {post weak : β → Trace α → Prop} (meets : Meets P action s post)
    (weaker : ∀ result t, s.Grows P t → post result t → weak result t) : Meets P action s weak := by
  obtain ⟨result, t, run, grows, holds⟩ := meets
  exact ⟨result, t, run, grows, weaker result t grows holds⟩

theorem Meets.and {action : Build α β} {first second : β → Trace α → Prop} (one : Meets P action s first)
    (two : Meets P action s second) : Meets P action s fun result t => first result t ∧ second result t := by
  obtain ⟨result, t, run, grows, holds⟩ := one
  obtain ⟨_, _, same, _, also⟩ := two
  cases run.symm.trans same
  exact ⟨result, t, run, grows, holds, also⟩

variable {M : Type} [Arithmetic α] [CommRing M] [Interpretation α M]

theorem meets_push (ordered : s.Ordered) (node : Node α)
    (defined : ∀ operand : Nat, operand ∈ node.operands → operand < s.size) (allowed : P node) :
    Meets P (push node) s fun id t => t.Denotes id (node.interpret M (s.interpret M)) :=
  ⟨s.size, s.push node, rfl, s.grows_push defined allowed, Trace.denotes_push ordered defined⟩

theorem meets_constant (ordered : s.Ordered) (plain : ∀ node : Node α, node.IsPlain → P node) (n : Int) :
    Meets P (constant (Arithmetic.ofInt n)) s fun id t => t.Denotes id (n : M) := by
  have pushed := meets_push (M := M) ordered (.const (Arithmetic.ofInt n))
    (by simp [Node.operands]) (plain _ trivial)
  simpa [constant, Node.interpret, Interpretation.const_ofInt] using pushed

theorem meets_insert (ordered : s.Ordered) (plain : ∀ node : Node α, node.IsPlain → P node)
    (node : Node α) (defined : ∀ operand : Nat, operand ∈ node.operands → operand < s.size)
    (allowed : P node) :
    Meets P (insert node) s fun id t => t.Denotes id (node.interpret M (s.interpret M)) := by
  obtain ⟨made, simplified, isDefined⟩ := Trace.exists_simplify ordered node defined
  have same := Trace.simplify_interpret (M := M) ordered simplified
  cases made with
  | existing id => exact ⟨id, s, by simp [insert, simplified], .refl s, isDefined, same⟩
  | fresh fresh =>
      have kind : P fresh := isDefined.allowed plain allowed
      refine ⟨s.size, s.push fresh, by simp [insert, simplified], s.grows_push isDefined.1 kind, ?_⟩
      rw [← same]
      exact Trace.denotes_push ordered isDefined.1

section Operations

variable (ordered : s.Ordered) (plain : ∀ node : Node α, node.IsPlain → P node) {a b : Nat} {x y : M}
include ordered plain

theorem meets_unary (op : UnaryOp) (first : s.Denotes a x) :
    Meets P (unary op a) s fun id t => t.Denotes id (Interpretation.unary α op x) := by
  have inserted := meets_insert (M := M) ordered plain (.unary op a)
    (by simpa [Node.operands] using first.1) (plain _ trivial)
  simpa [unary, Node.interpret, first.2] using inserted

theorem meets_binary (op : BinaryOp) (first : s.Denotes a x) (second : s.Denotes b y) :
    Meets P (binary op a b) s fun id t => t.Denotes id (Interpretation.binary α op x y) := by
  have inserted := meets_insert (M := M) ordered plain (.binary op a b)
    (by simpa [Node.operands] using ⟨first.1, second.1⟩) (plain _ trivial)
  simpa [binary, Node.interpret, first.2, second.2] using inserted

theorem meets_power (exponent : Int32) (first : s.Denotes a x) (allowed : P (.power a exponent)) :
    Meets P (power a exponent) s fun id t => t.Denotes id (Interpretation.power α exponent.toInt x) := by
  have inserted := meets_insert (M := M) ordered plain (.power a exponent)
    (by simpa [Node.operands] using first.1) allowed
  simpa [power, Node.interpret, first.2] using inserted

theorem meets_neg (first : s.Denotes a x) : Meets P (neg a) s fun id t => t.Denotes id (-x) := by
  have negated := meets_unary ordered plain .neg first
  rwa [Interpretation.unary_neg] at negated

theorem meets_add (first : s.Denotes a x) (second : s.Denotes b y) :
    Meets P (add a b) s fun id t => t.Denotes id (x + y) :=
  meets_binary ordered plain .add first second

theorem meets_sub (first : s.Denotes a x) (second : s.Denotes b y) :
    Meets P (sub a b) s fun id t => t.Denotes id (x - y) :=
  meets_binary ordered plain .sub first second

theorem meets_mul (first : s.Denotes a x) (second : s.Denotes b y) :
    Meets P (mul a b) s fun id t => t.Denotes id (x * y) :=
  meets_binary ordered plain .mul first second

theorem meets_div (first : s.Denotes a x) (second : s.Denotes b y) :
    Meets P (div a b) s fun id t => t.Denotes id (x * Interpretation.inv α y) :=
  meets_binary ordered plain .div first second

theorem meets_pow (first : s.Denotes a x) (second : s.Denotes b y) :
    Meets P (pow a b) s fun id t => t.Denotes id (Interpretation.pow α x y) :=
  meets_binary ordered plain .pow first second

end Operations

end Build

end AutoDiff
