import AutoDiff.Trace.Gradient
import AutoDiff.Proofs.Dependence
import AutoDiff.Proofs.Rules

namespace AutoDiff

def Simplified.Within {α : Type} (G : NodeId → Prop) (K : Nat → Prop) : Simplified α → Prop
  | existing id => G id
  | fresh (made : Node α) => (∀ operand : Nat, operand ∈ made.operands → G operand) ∧
      ∀ index, made = .input index → K index

namespace Trace

variable {α : Type} {G : NodeId → Prop} {K : Nat → Prop} {t : Trace α}

/-- All ids to come are of a region, and the operands of its nodes. Its nodes read no inputs but those of `K`. -/
structure Region (G : NodeId → Prop) (K : Nat → Prop) (t : Trace α) : Prop where
  fresh : ∀ id : Nat, t.size ≤ id → G id
  operands : ∀ (id : Nat) (node : Node α), G id → t.nodes[id]? = some node →
    ∀ operand : Nat, operand ∈ node.operands → G operand
  inputs : ∀ id index : Nat, G id → t.nodes[id]? = some (.input index : Node α) → K index

theorem region_everything (t : Trace α) : t.Region (fun _ => True) fun _ => True :=
  ⟨fun _ _ => trivial, fun _ _ _ _ _ _ => trivial, fun _ _ _ _ => trivial⟩

theorem Region.push (region : t.Region G K) {node : Node α}
    (operands : ∀ operand : Nat, operand ∈ node.operands → G operand)
    (inputs : ∀ index, node = .input index → K index) : (t.push node).Region G K where
  fresh id more := by
    apply region.fresh
    simp only [size, Trace.push, Array.size_push] at more ⊢
    omega
  operands id other member found := by
    rcases nodes_push found with ⟨_, old⟩ | ⟨_, rfl⟩
    · exact region.operands id other member old
    · exact operands
  inputs id index member found := by
    rcases nodes_push found with ⟨_, old⟩ | ⟨_, rfl⟩
    · exact region.inputs id index member old
    · exact inputs index rfl

theorem Region.reachable (region : t.Region G K) {id leaf : NodeId} (member : G id)
    (reachable : (t.cone id).Reachable leaf) : G leaf := by
  induction reachable with
  | output isOutput =>
      rw [List.mem_singleton.mp isOutput]
      exact member
  | operand _ found below ih => exact region.operands _ _ ih found _ below

theorem Region.dependsOn (region : t.Region G K) {id : NodeId} (member : G id) {j : Nat} (depends : t.DependsOn id j) :
    K j := by
  obtain ⟨leaf, reachable, found⟩ := depends
  exact region.inputs leaf j (region.reachable member reachable) found

variable [Arithmetic α]

/-- Every rule stays in the region: it takes an operand, the operand of an operand, or a node over operands. -/
theorem Rewrites.within (region : t.Region G K) {node : Node α} {made : Simplified α} (rewrites : t.Rewrites node made)
    (operands : ∀ operand : Nat, operand ∈ node.operands → G operand)
    (inputs : ∀ index, node = .input index → K index) : made.Within G K := by
  induction rewrites with
  | leaf => exact ⟨operands, inputs⟩
  | foldUnary | foldBinary | powZero | powerZero | foldPower => simp [Simplified.Within, Node.operands]
  | negNeg found =>
      exact region.operands _ _ (operands _ (by simp [Node.operands])) found _ (by simp [Node.operands])
  | keepUnary | keepPower => exact ⟨operands, by simp⟩
  | keepBinary =>
      constructor
      · intro operand member
        rcases (operands_ordered _ _ _ operand).mp member with rfl | rfl
        · exact operands _ (by simp [Node.operands])
        · exact operands _ (by simp [Node.operands])
      · intro index same
        unfold ordered at same
        split at same <;> cases same
  | zeroAdd | addZero | subZero | zeroMul | mulZero | oneMul | mulOne | zeroDiv | divOne | powOne | powerOne =>
      exact operands _ (by simp [Node.operands])
  | zeroSub _ _ _ ih | minusMul _ _ _ ih | mulMinus _ _ _ ih =>
      apply ih
      · intro operand member
        exact operands operand (by simp_all [Node.operands])
      · simp

end Trace

namespace Build

variable {α : Type} {G : NodeId → Prop} {K : Nat → Prop} {m n : Nat}

/-- Started in a region, an action stays in it: it appends at most `most` nodes, and returns a node of the region. -/
def Stays (G : NodeId → Prop) (K : Nat → Prop) (most : Nat) (action : Build α NodeId) : Prop :=
  ∀ (s : Trace α) (id : NodeId) (t : Trace α), s.Region G K → action s = some (id, t) →
    G id ∧ t.Region G K ∧ t.size ≤ s.size + most

theorem Stays.pure {id : NodeId} (member : G id) : Stays G K 0 (Pure.pure id : Build α NodeId) := by
  intro s other t region run
  cases run
  exact ⟨member, region, Nat.le_refl _⟩

theorem Stays.bind {action : Build α NodeId} {next : NodeId → Build α NodeId} (first : Stays G K m action)
    (second : ∀ id, G id → Stays G K n (next id)) : Stays G K (m + n) (action >>= next) := by
  intro s id t region run
  obtain ⟨middle, u, one, two⟩ := bind_eq_some_iff.mp run
  obtain ⟨member, inside, size⟩ := first s middle u region one
  obtain ⟨result, still, more⟩ := second middle member u id t inside two
  exact ⟨result, still, by omega⟩

theorem Stays.mono {action : Build α NodeId} (stays : Stays G K m action) (less : m ≤ n) : Stays G K n action := by
  intro s id t region run
  obtain ⟨member, inside, size⟩ := stays s id t region run
  exact ⟨member, inside, by omega⟩

theorem stays_push (node : Node α) (operands : ∀ operand : Nat, operand ∈ node.operands → G operand)
    (inputs : ∀ index, node = .input index → K index) : Stays G K 1 (push node) := by
  intro s id t region run
  cases run
  exact ⟨region.fresh _ (Nat.le_refl _), region.push operands inputs, by simp [Trace.size, Trace.push]⟩

theorem stays_constant (c : α) : Stays G K 1 (constant c) :=
  stays_push (.const c) (by simp [Node.operands]) (by simp)

variable [Arithmetic α]

theorem stays_insert (node : Node α) (operands : ∀ operand : Nat, operand ∈ node.operands → G operand)
    (inputs : ∀ index, node = .input index → K index) : Stays G K 1 (insert node) := by
  intro s id t region run
  unfold insert at run
  cases simplified : s.simplify node with
  | none => simp [simplified] at run
  | some made =>
      have within := (Trace.rewrites_of_simplify simplified).within region operands inputs
      rw [simplified] at run
      cases made with
      | existing old =>
          cases run
          exact ⟨within, region, by omega⟩
      | fresh fresh =>
          cases run
          exact ⟨region.fresh _ (Nat.le_refl _), region.push within.1 within.2, by simp [Trace.size, Trace.push]⟩

theorem stays_unary (op : UnaryOp) {arg : NodeId} (operand : G arg) :
    Stays G K 1 (unary op arg : Build α NodeId) :=
  stays_insert _ (by simpa [Node.operands] using operand) (by simp)

theorem stays_binary (op : BinaryOp) {lhs rhs : NodeId} (left : G lhs) (right : G rhs) :
    Stays G K 1 (binary op lhs rhs : Build α NodeId) :=
  stays_insert _ (by simpa [Node.operands] using ⟨left, right⟩) (by simp)

theorem stays_power (exponent : Int32) {base : NodeId} (operand : G base) :
    Stays G K 1 (power base exponent : Build α NodeId) :=
  stays_insert _ (by simpa [Node.operands] using operand) (by simp)

end Build

namespace Gradient

open Build

variable {α : Type} [Arithmetic α] {G : NodeId → Prop} {K : Nat → Prop} {id arg lhs rhs base adjoint : NodeId}

theorem stays_unaryContribution (op : UnaryOp) (node : G id) (operand : G arg) (given : G adjoint) :
    Stays G K 4 (unaryContribution op id arg adjoint : Build α NodeId) := by
  cases op with
  | neg => exact (stays_unary .neg given).mono (by decide)
  | sin =>
      apply Stays.mono (m := 1 + 1) _ (by decide)
      apply (stays_unary .cos operand).bind
      intro cosine isCosine
      exact stays_binary .mul given isCosine
  | cos =>
      apply Stays.mono (m := 1 + (1 + 1)) _ (by decide)
      apply (stays_unary .sin operand).bind
      intro sine isSine
      apply (stays_unary .neg isSine).bind
      intro negated isNegated
      exact stays_binary .mul given isNegated
  | tan =>
      apply Stays.mono (m := 1 + (1 + (1 + 1))) _ (by decide)
      apply (stays_binary .mul node node).bind
      intro square isSquare
      apply (stays_constant _).bind
      intro one isOne
      apply (stays_binary .add isOne isSquare).bind
      intro sum isSum
      exact stays_binary .mul given isSum
  | exp => exact (stays_binary .mul given node).mono (by decide)
  | ln => exact (stays_binary .div given operand).mono (by decide)
  | sqrt =>
      apply Stays.mono (m := 1 + (1 + 1)) _ (by decide)
      apply (stays_constant _).bind
      intro two isTwo
      apply (stays_binary .mul isTwo node).bind
      intro double isDouble
      exact stays_binary .div given isDouble
  | tanh =>
      apply Stays.mono (m := 1 + (1 + (1 + 1))) _ (by decide)
      apply (stays_binary .mul node node).bind
      intro square isSquare
      apply (stays_constant _).bind
      intro one isOne
      apply (stays_binary .sub isOne isSquare).bind
      intro rest isRest
      exact stays_binary .mul given isRest

theorem stays_leftContribution (op : BinaryOp) (left : G lhs) (right : G rhs) (given : G adjoint) :
    Stays G K 5 (leftContribution op lhs rhs adjoint : Build α NodeId) := by
  cases op with
  | add | sub => exact (Stays.pure given).mono (by decide)
  | mul => exact (stays_binary .mul given right).mono (by decide)
  | div => exact (stays_binary .div given right).mono (by decide)
  | pow =>
      apply Stays.mono (m := 1 + (1 + (1 + (1 + 1)))) _ (by decide)
      apply (stays_constant _).bind
      intro one isOne
      apply (stays_binary .sub right isOne).bind
      intro less isLess
      apply (stays_binary .pow left isLess).bind
      intro power isPower
      apply (stays_binary .mul right isPower).bind
      intro product isProduct
      exact stays_binary .mul given isProduct

theorem stays_rightContribution (op : BinaryOp) (node : G id) (left : G lhs) (right : G rhs) (given : G adjoint) :
    Stays G K 3 (rightContribution op id lhs rhs adjoint : Build α NodeId) := by
  cases op with
  | add => exact (Stays.pure given).mono (by decide)
  | sub => exact (stays_unary .neg given).mono (by decide)
  | mul => exact (stays_binary .mul given left).mono (by decide)
  | div =>
      apply (stays_binary .div node right).bind (n := 1 + 1)
      intro quotient isQuotient
      apply (stays_binary .mul given isQuotient).bind
      intro product isProduct
      exact stays_unary .neg isProduct
  | pow =>
      apply (stays_unary .ln left).bind (n := 1 + 1)
      intro log isLog
      apply (stays_binary .mul node isLog).bind
      intro product isProduct
      exact stays_binary .mul given isProduct

theorem stays_powerContribution (exponent : Int32) (operand : G base) (given : G adjoint) :
    Stays G K 4 (powerContribution base adjoint exponent : Build α NodeId) := by
  apply (stays_power (exponent - 1) operand).bind (n := 1 + (1 + 1))
  intro power isPower
  apply (stays_constant _).bind
  intro factor isFactor
  apply (stays_binary .mul isFactor isPower).bind
  intro product isProduct
  exact stays_binary .mul given isProduct

end Gradient

end AutoDiff
