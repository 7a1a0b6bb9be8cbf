import AutoDiff.Proofs.Interpretation
import AutoDiff.Proofs.Rules
import AutoDiff.Proofs.Unfolding

namespace AutoDiff

namespace Node

variable {α : Type}

def IsPlain : Node α → Prop
  | const _ | unary _ _ | binary _ _ _ => True
  | input _ | weight _ | power _ _ => False

end Node

/-- Existing nodes are there and appended ones have operands that are there; an appended input, weight
or power is the node that was to be inserted. -/
def Simplified.Defined {α : Type} (t : Trace α) (node : Node α) : Simplified α → Prop
  | existing id => id < t.size
  | fresh made => (∀ operand : Nat, operand ∈ made.operands → operand < t.size) ∧ (made = node ∨ made.IsPlain)

theorem Simplified.Defined.allowed {α : Type} {t : Trace α} {node made : Node α} {P : Node α → Prop}
    (defined : (fresh made).Defined t node) (plain : ∀ other : Node α, other.IsPlain → P other) (own : P node) :
    P made :=
  defined.2.elim (fun same => same ▸ own) (plain made)

theorem Simplified.Defined.of_isPlain {α : Type} {t : Trace α} {node other : Node α} {made : Simplified α}
    (defined : made.Defined t node) (plain : node.IsPlain) : made.Defined t other := by
  cases made with
  | existing id => exact defined
  | fresh made => exact ⟨defined.1, .inr (defined.allowed (fun _ => id) plain)⟩

namespace Trace

section

variable {α : Type}

theorem operands_ordered (op : BinaryOp) (lhs rhs : Nat) (operand : Nat) :
    operand ∈ (ordered op lhs rhs : Node α).operands ↔ operand = lhs ∨ operand = rhs := by
  unfold ordered
  split <;> simp [Node.operands, or_comm]

theorem isPlain_ordered (op : BinaryOp) (lhs rhs : Nat) : (ordered op lhs rhs : Node α).IsPlain := by
  unfold ordered
  split <;> trivial

variable [Arithmetic α] {t : Trace α}

theorem expression_const (ordered : t.Ordered) {id : Nat} {c : α} (known : t.const? id = some c) :
    t.expression id = .const c :=
  expression_eq ordered (const?_eq_some_iff.mp known)

/-- Every rule makes a node that is there, or one whose operands are. -/
theorem Rewrites.defined {node : Node α} {made : Simplified α} (rewrites : t.Rewrites node made)
    (ordered : t.Ordered) (defined : ∀ operand : Nat, operand ∈ node.operands → operand < t.size) :
    made.Defined t node := by
  induction rewrites with
  | leaf | keepUnary | keepPower => exact ⟨defined, .inl rfl⟩
  | foldUnary | foldBinary | powZero | powerZero | foldPower => exact ⟨by simp [Node.operands], .inr trivial⟩
  | negNeg double =>
      have negated := defined _ (List.mem_singleton_self _)
      exact Nat.lt_trans (ordered _ _ double _ (List.mem_singleton_self _)) negated
  | zeroAdd | addZero | subZero | zeroMul | mulZero | oneMul | mulOne | zeroDiv | divOne | powOne | powerOne =>
      exact defined _ (by simp [Node.operands])
  | keepBinary =>
      refine ⟨fun operand member => defined operand ?_, .inr (isPlain_ordered _ _ _)⟩
      simpa [Node.operands] using (operands_ordered _ _ _ operand).mp member
  | zeroSub _ _ _ ih | minusMul _ _ _ ih | mulMinus _ _ _ ih =>
      refine (ih fun operand member => defined operand ?_).of_isPlain trivial
      simp_all [Node.operands]

theorem exists_simplifyUnary (op : UnaryOp) {arg : Nat} (bound : arg < t.size) :
    ∃ made, t.simplifyUnary op arg = some made := by
  have found : t.nodes[arg]? = some t.nodes[arg] := Array.getElem?_eq_getElem bound
  unfold simplifyUnary
  split
  · exact ⟨_, rfl⟩
  · split
    · split
      · next missing => simp [missing] at found
      · exact ⟨_, rfl⟩
      · exact ⟨_, rfl⟩
    · exact ⟨_, rfl⟩

theorem exists_simplifyBinary (op : BinaryOp) {lhs rhs : Nat} (left : lhs < t.size) (right : rhs < t.size) :
    ∃ made, t.simplifyBinary op lhs rhs = some made := by
  unfold simplifyBinary
  split
  · exact ⟨_, rfl⟩
  · cases op <;> simp only <;> split_ifs <;>
      first
      | exact ⟨_, rfl⟩
      | exact exists_simplifyUnary .neg left
      | exact exists_simplifyUnary .neg right

theorem exists_simplify (ordered : t.Ordered) (node : Node α)
    (defined : ∀ operand : Nat, operand ∈ node.operands → operand < t.size) :
    ∃ made, t.simplify node = some made ∧ made.Defined t node := by
  obtain ⟨made, run⟩ : ∃ made, t.simplify node = some made := by
    cases node with
    | input | weight | const | power => exact ⟨_, rfl⟩
    | unary op arg => exact exists_simplifyUnary op (defined arg (by simp [Node.operands]))
    | binary op lhs rhs =>
        exact exists_simplifyBinary op (defined lhs (by simp [Node.operands])) (defined rhs (by simp [Node.operands]))
  exact ⟨made, run, (rewrites_of_simplify run).defined ordered defined⟩

end

end Trace

section

variable {α : Type} (M : Type) [Arithmetic α] [CommRing M] [Interpretation α M]

def Node.interpret (f : NodeId → M) : Node α → M
  | input index => Interpretation.input α index
  | weight index => Interpretation.weight α index
  | const value => Interpretation.const value
  | unary op arg => Interpretation.unary α op (f arg)
  | binary op lhs rhs => Interpretation.binary α op (f lhs) (f rhs)
  | power base exponent => Interpretation.power α exponent.toInt (f base)

variable {M} in
theorem Node.interpret_congr {f g : NodeId → M} {node : Node α}
    (same : ∀ operand : Nat, operand ∈ node.operands → f operand = g operand) :
    node.interpret M f = node.interpret M g := by
  cases node <;> simp_all [operands, interpret]

/-- The interpretation of what a node of a trace stands for. -/
def Trace.interpret (t : Trace α) (id : Nat) : M := (t.expression id).interpret M

def Simplified.interpret (t : Trace α) : Simplified α → M
  | existing id => t.interpret M id
  | fresh node => node.interpret M (t.interpret M)

end

namespace Trace

variable {α M : Type} [Arithmetic α] [CommRing M] [Interpretation α M] {t : Trace α}

theorem interpret_eq (ordered : t.Ordered) {id : Nat} {node : Node α} (found : t.nodes[id]? = some node) :
    t.interpret M id = node.interpret M (t.interpret M) := by
  rw [interpret, expression_eq ordered found]
  cases node <;> rfl

theorem Extends.interpret {s : Trace α} (more : Extends s t) {id : Nat} (less : id < s.size) :
    t.interpret M id = s.interpret M id :=
  congrArg (Expression.interpret M) (more.expression less)

theorem interpret_congr {s : Trace α} (same : s.nodes = t.nodes) (id : Nat) :
    s.interpret M id = t.interpret M id :=
  congrArg (Expression.interpret M) (expression_congr same id)

theorem interpret_outputs (t : Trace α) (outputs : List NodeId) :
    ({ t with outputs } : Trace α).interpret M = t.interpret M :=
  funext (interpret_congr rfl)

theorem interpret_const (ordered : t.Ordered) {id : Nat} {c : α} (found : t.const? id = some c) :
    t.interpret M id = Interpretation.const c :=
  interpret_eq ordered (const?_eq_some_iff.mp found)

theorem interpret_isConst (ordered : t.Ordered) (id : Nat) {n : Int} (found : t.isConst id n = true) :
    t.interpret M id = n := by
  obtain ⟨c, same, equal⟩ := isConst_eq_true_iff.mp found
  rw [interpret_const ordered same, Interpretation.const_of_equal c n equal]

theorem interpret_neg (x : M) : Interpretation.unary α .neg x = -x := Interpretation.unary_neg x

theorem interpret_ordered (op : BinaryOp) (lhs rhs : Nat) (f : NodeId → M) :
    (Trace.ordered op lhs rhs : Node α).interpret M f = Interpretation.binary α op (f lhs) (f rhs) := by
  unfold Trace.ordered
  split
  · next swapped =>
      cases op with
      | add => exact add_comm (f rhs) (f lhs)
      | mul => exact mul_comm (f rhs) (f lhs)
      | sub | div | pow => simp [BinaryOp.isCommutative] at swapped
  · rfl

/-- Every rule keeps the interpretation of the node. -/
theorem Rewrites.interpret {node : Node α} {made : Simplified α} (rewrites : t.Rewrites node made)
    (ordered : t.Ordered) : made.interpret M t = node.interpret M (t.interpret M) := by
  have known {id : NodeId} {n : Int} := interpret_isConst (M := M) (n := n) ordered id
  induction rewrites with
  | leaf leaf => exact Node.interpret_congr (by simp [leaf])
  | keepUnary | keepPower => rfl
  | foldUnary op found =>
      rw [Node.interpret, interpret_const ordered found, Interpretation.unary_const]
      rfl
  | negNeg double =>
      rw [Node.interpret, interpret_eq ordered double, Node.interpret, interpret_neg, interpret_neg, neg_neg]
      rfl
  | foldBinary op first second =>
      rw [Node.interpret, interpret_const ordered first, interpret_const ordered second, Interpretation.binary_const]
      rfl
  | zeroAdd zero | addZero zero | subZero zero | zeroMul zero | mulZero zero | zeroDiv zero =>
      simp [Simplified.interpret, Node.interpret, Interpretation.binary, known zero]
  | oneMul one | mulOne one =>
      simp [Simplified.interpret, Node.interpret, Interpretation.binary, known one]
  | divOne one => simp [Simplified.interpret, Node.interpret, Interpretation.binary, known one, Interpretation.inv_one]
  | powOne one => simp [Simplified.interpret, Node.interpret, Interpretation.binary, known one, Interpretation.pow_one]
  | powZero zero =>
      simp [Simplified.interpret, Node.interpret, Interpretation.binary, known zero, Interpretation.pow_zero,
        Interpretation.const_ofInt]
  | zeroSub zero _ _ ih =>
      rw [ih, Node.interpret, Node.interpret, interpret_neg, known zero]
      simp [Interpretation.binary]
  | minusMul minus _ _ ih | mulMinus minus _ _ ih =>
      rw [ih, Node.interpret, Node.interpret, interpret_neg, known minus]
      simp [Interpretation.binary]
  | keepBinary => exact interpret_ordered _ _ _ _
  | powerZero base =>
      simp [Simplified.interpret, Node.interpret, Interpretation.power_zero, Interpretation.const_ofInt]
  | powerOne base => exact (Interpretation.power_one (α := α) _).symm
  | foldPower _ _ found =>
      rw [Node.interpret, interpret_const ordered found, Interpretation.power_const]
      rfl

theorem simplify_interpret (ordered : t.Ordered) {node : Node α} {made : Simplified α}
    (run : t.simplify node = some made) : made.interpret M t = node.interpret M (t.interpret M) :=
  (rewrites_of_simplify run).interpret ordered

end Trace

end AutoDiff
