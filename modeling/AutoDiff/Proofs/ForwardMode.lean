import AutoDiff.Proofs.KernelValues

namespace AutoDiff

variable {F : Type} [Field F] [FieldArithmetic F]

def UnaryOp.slopeAt (a : F) : UnaryOp → F
  | neg => -1
  | sin => Arithmetic.unary .cos a
  | cos => -Arithmetic.unary .sin a
  | tan => 1 + Arithmetic.unary .tan a ^ 2
  | exp => Arithmetic.unary .exp a
  | ln => 1 / a
  | sqrt => 1 / ((2 : Nat) * Arithmetic.unary .sqrt a)
  | tanh => 1 - Arithmetic.unary .tanh a ^ 2

def BinaryOp.slopesAt (a b : F) : BinaryOp → F × F
  | add => (1, 1)
  | sub => (1, -1)
  | mul => (b, a)
  | div => (1 / b, -(a / (b * b)))
  | pow => (b * Arithmetic.binary .pow a (b - 1), Arithmetic.binary .pow a b * Arithmetic.unary .ln a)

/-- A value with its derivative. -/
structure Dual (F : Type) where
  value : F
  tangent : F
  deriving DecidableEq, Repr

/-- The value of a node and its derivative with respect to input `j`, given those of the nodes before it. -/
def Node.dual? (x w : Array F) (j : Nat) (duals : Array (Dual F)) : Node F → Option (Dual F)
  | .input index => do return ⟨← x[index]?, if index = j then 1 else 0⟩
  | .weight index => do return ⟨← w[index]?, 0⟩
  | .const value => some ⟨value, 0⟩
  | .unary op arg => do
    let a ← duals[arg]?
    return ⟨Arithmetic.unary op a.value, op.slopeAt a.value * a.tangent⟩
  | .binary op lhs rhs => do
    let a ← duals[lhs]?
    let b ← duals[rhs]?
    let (left, right) := op.slopesAt a.value b.value
    return ⟨Arithmetic.binary op a.value b.value, left * a.tangent + right * b.tangent⟩
  | .power base exponent => do
    let a ← duals[base]?
    return ⟨Arithmetic.power a.value exponent,
      exponent.toInt * Arithmetic.power a.value (exponent - 1) * a.tangent⟩

namespace Trace

def duals? (t : Trace F) (x w : Array F) (j : Nat) : Option (Array (Dual F)) :=
  t.nodes.toList.foldlM (fun duals node => (node.dual? x w j duals).map duals.push) #[]

/-- The derivative of a node with respect to input `j`, by forward accumulation. -/
def tangent? (t : Trace F) (x w : Array F) (j : Nat) (id : NodeId) : Option F := do
  return (← (← t.duals? x w j)[id]?).tangent

end Trace

namespace Expression

def dual (x w : Array F) (j : Nat) (a : Expression F) : Dual F := ⟨a.eval x w, (a.deriv j).eval x w⟩

variable (x w : Array F)

theorem eval_slope (a : Expression F) (op : UnaryOp) : (slope a op).eval x w = op.slopeAt (a.eval x w) := by
  cases op <;> simp [slope, UnaryOp.slopeAt, eval, ofInt, pow_two]

theorem eval_combine (a b a' b' : Expression F) (op : BinaryOp) :
    (combine a b a' b' op).eval x w = (op.slopesAt (a.eval x w) (b.eval x w)).1 * a'.eval x w +
      (op.slopesAt (a.eval x w) (b.eval x w)).2 * b'.eval x w := by
  cases op with
  | add | sub | mul =>
      simp only [combine, BinaryOp.slopesAt, eval, FieldArithmetic.add_eq, FieldArithmetic.sub_eq,
        FieldArithmetic.mul_eq]
      ring
  | div =>
      simp only [combine, BinaryOp.slopesAt, eval, FieldArithmetic.sub_eq, FieldArithmetic.mul_eq,
        FieldArithmetic.div_eq]
      by_cases zero : b.eval x w = 0
      · simp [zero]
      · rw [sub_div, mul_div_mul_right _ _ zero]
        ring
  | pow => simp [combine, BinaryOp.slopesAt, eval, ofInt]

end Expression

namespace Node

theorem dual?_eq {x w : Array F} {j : Nat} {duals : Array (Dual F)} {f : NodeId → Expression F} {node : Node F}
    (inputs : ∀ index, node = .input index → index < x.size)
    (weights : ∀ index, node = .weight index → index < w.size)
    (exponents : ∀ base exponent, node = .power base exponent → Int32.minValue < exponent)
    (operands : ∀ operand : Nat, operand ∈ node.operands → duals[operand]? = some ((f operand).dual x w j)) :
    node.dual? x w j duals = some ((node.unfold f).dual x w j) := by
  cases node with
  | input index =>
      have inside : index < x.size := inputs index rfl
      simp [dual?, unfold, Expression.dual, Expression.eval, Expression.deriv, Expression.ofInt, inside]
  | weight index =>
      have inside : index < w.size := weights index rfl
      simp [dual?, unfold, Expression.dual, Expression.eval, Expression.deriv, Expression.ofInt, inside]
  | const value => simp [dual?, unfold, Expression.dual, Expression.eval, Expression.deriv, Expression.ofInt]
  | unary op arg =>
      simp [dual?, operands arg (by simp [Node.operands]), unfold, Expression.dual, Expression.eval,
        Expression.deriv, Expression.eval_slope]
  | binary op lhs rhs =>
      simp [dual?, operands lhs (by simp [Node.operands]), operands rhs (by simp [Node.operands]), unfold,
        Expression.dual, Expression.eval, Expression.deriv, Expression.eval_combine]
  | power base exponent =>
      have above : Int32.minValue.toInt < exponent.toInt :=
        Int32.lt_iff_toInt_lt.mp (exponents base exponent rfl)
      simp [dual?, operands base (by simp [Node.operands]), unfold, Expression.dual, Expression.eval,
        Expression.deriv, Expression.ofInt, Int32.toInt_sub_one above]

end Node

namespace Trace

variable {t : Trace F}

section

variable (consistent : t.Consistent) (exponents : ∀ (id base : Nat) (exponent : Int32),
  t.nodes[id]? = some (.power base exponent : Node F) → Int32.minValue < exponent)
include consistent exponents

section

variable {x w : Array F} (inputs : x.size = t.inputCount) (weights : w.size = t.weightCount) (j : Nat)
include inputs weights

theorem dual?_node {id : Nat} {node : Node F} (found : t.nodes[id]? = some node) {duals : Array (Dual F)}
    (before : ∀ operand, operand < id → duals[operand]? = some ((t.expression operand).dual x w j)) :
    node.dual? x w j duals = some ((t.expression id).dual x w j) := by
  rw [expression_eq consistent.ordered found]
  apply Node.dual?_eq
  · intro index same
    exact inputs ▸ consistent.inputs id index (same ▸ found)
  · intro index same
    exact weights ▸ consistent.weights id index (same ▸ found)
  · intro base exponent same
    exact exponents id base exponent (same ▸ found)
  · intro operand member
    exact before operand (consistent.ordered id node found operand member)

theorem foldlM_take_dual? {count : Nat} (within : count ≤ t.size) :
    (t.nodes.toList.take count).foldlM (fun duals node => (node.dual? x w j duals).map duals.push) #[] =
      some ((List.range count).map fun id => (t.expression id).dual x w j).toArray := by
  induction count with
  | zero => rfl
  | succ count ih =>
      obtain ⟨node, found⟩ : ∃ node, t.nodes[count]? = some node := ⟨_, Array.getElem?_eq_getElem within⟩
      have next : node.dual? x w j ((List.range count).map fun id => (t.expression id).dual x w j).toArray =
          some ((t.expression count).dual x w j) := by
        apply dual?_node consistent exponents inputs weights j found
        intro operand early
        simp [early]
      rw [List.take_add_one, Array.getElem?_toList, found, List.foldlM_append, ih (Nat.le_of_succ_le within)]
      simp [next, List.range_succ]

/-- Forward accumulation gives every node the derivative of its expression. -/
theorem tangent?_eq {id : Nat} (inside : id < t.size) :
    t.tangent? x w j id = some (((t.expression id).deriv j).eval x w) := by
  have duals : t.duals? x w j = some ((List.range t.size).map fun id => (t.expression id).dual x w j).toArray := by
    have whole := foldlM_take_dual? consistent exponents inputs weights j (Nat.le_refl t.size)
    rwa [List.take_of_length_le (by simp [Trace.size])] at whole
  simp [tangent?, duals, inside, Expression.dual]

end

theorem exists_gradient {output : Nat} (inside : output < t.size) (few : t.inputCount < listLimit) :
    ∃ ids u, gradient output t = some (ids, u) ∧ t.Extends u ∧
      ∀ x w : Array F, x.size = t.inputCount → w.size = t.weightCount →
        ({ u with outputs := ids } : Trace F).evaluate x w = some (.ok
          ((List.range t.inputCount).map fun j => ((t.expression output).deriv j).eval x w).toArray) := by
  have powers : t.PowersFrom (Int32.minValue.toInt + 1) t.size := by
    intro id base exponent _ found
    exact Int32.lt_iff_toInt_lt.mp (exponents id base exponent found)
  have above : (Differential.exponents F (Expression.Class F)).least < Int32.minValue.toInt + 1 :=
    Int.lt_succ Int32.minValue.toInt
  obtain ⟨ids, u, run, grows, denotes⟩ := meets_gradient (M := Expression.Class F) above few (Nat.le_refl _) powers
    consistent inside
  obtain ⟨wellFormed, same⟩ := (grows.derived_consistent consistent).of_denotes denotes
  have computes : ({ u with outputs := ids } : Trace F).Computes t.inputCount t.weightCount
      ((List.range t.inputCount).map fun j => Differential.deriv F j (t.interpret (Expression.Class F) output)) :=
    ⟨wellFormed, grows.inputCount, grows.weightCount, same⟩
  refine ⟨ids, u, run, grows.toExtends, ?_⟩
  intro x w inputs weights
  rw [computes.evaluate inputs weights, List.map_map]
  simp only [Function.comp_def, interpret_eq_toClass, Expression.deriv_toClass, Expression.Class.eval_toClass]

end

/-- Reverse accumulation is forward accumulation: the nodes of a gradient evaluate to the derivatives of the
output with respect to each input. Only if the list of these nodes is too long is there no gradient. -/
theorem gradient_eq_tangents (verified : t.verify = .ok ())
    (exponents : ∀ (id base : Nat) (exponent : Int32), t.nodes[id]? = some (.power base exponent : Node F) →
      Int32.minValue < exponent) {output : Nat} (inside : output < t.size) :
    ((∃ ids u, gradient output t = some (ids, u)) ↔ t.inputCount < listLimit) ∧
    ∀ ids u, gradient output t = some (ids, u) → t.Extends u ∧
      ∀ x w : Array F, x.size = t.inputCount → w.size = t.weightCount →
        ∃ derivatives : List F,
          ({ u with outputs := ids } : Trace F).evaluate x w = some (.ok derivatives.toArray) ∧
          List.Forall₂ (fun j derivative => t.tangent? x w j output = some derivative)
            (List.range t.inputCount) derivatives := by
  have consistent := (t.verify_eq_ok_iff.mp verified).toConsistent
  have few {ids : List NodeId} {u : Trace F} (run : gradient output t = some (ids, u)) :
      t.inputCount < listLimit := by
    by_contra many
    rw [gradient_eq_none (Nat.le_of_not_lt many) output] at run
    cases run
  constructor
  · constructor
    · rintro ⟨ids, u, run⟩
      exact few run
    · intro few
      obtain ⟨ids, u, run, _⟩ := exists_gradient consistent exponents inside few
      exact ⟨ids, u, run⟩
  · intro ids u run
    obtain ⟨_, _, same, more, evaluates⟩ := exists_gradient consistent exponents inside (few run)
    cases run.symm.trans same
    refine ⟨more, ?_⟩
    intro x w inputs weights
    refine ⟨_, evaluates x w inputs weights, ?_⟩
    rw [List.forall₂_map_right_iff, List.forall₂_same]
    intro j _
    exact tangent?_eq consistent exponents inputs weights j inside

def cubeOfDifference : Trace ℚ where
  nodes := #[.input 0, .input 1, .weight 0, .binary .mul 0 0, .binary .mul 3 2, .binary .sub 4 1, .power 5 3,
    .unary .sin 6]
  inputCount := 2
  weightCount := 1

theorem gradient_eq_tangents_cubeOfDifference : cubeOfDifference.verify = .ok () ∧
    ∃ ids u, gradient 6 cubeOfDifference = some (ids, u) ∧
      ({ u with outputs := ids } : Trace ℚ).evaluate #[2, 3] #[5] = some (.ok #[17340, -867]) := by
  have verified : cubeOfDifference.verify = .ok () := by decide +kernel
  have exponents : ∀ (id base : Nat) (exponent : Int32),
      cubeOfDifference.nodes[id]? = some (.power base exponent : Node ℚ) → Int32.minValue < exponent := by
    intro id base exponent found
    have member : Node.power base exponent ∈ cubeOfDifference.nodes := Array.mem_of_getElem? found
    simp only [cubeOfDifference, List.mem_toArray, List.mem_cons, List.not_mem_nil, or_false, reduceCtorEq,
      false_or, Node.power.injEq] at member
    obtain ⟨_, rfl⟩ := member
    decide
  have inside : 6 < cubeOfDifference.size := by decide
  obtain ⟨made, each⟩ := gradient_eq_tangents verified exponents inside
  obtain ⟨ids, u, run⟩ := made.mpr (by decide)
  obtain ⟨_, evaluated⟩ := each ids u run
  obtain ⟨derivatives, evaluation, tangents⟩ := evaluated #[2, 3] #[5] rfl rfl
  have first : cubeOfDifference.tangent? #[2, 3] #[5] 0 6 = some 17340 := by decide +kernel
  have second : cubeOfDifference.tangent? #[2, 3] #[5] 1 6 = some (-867) := by decide +kernel
  change List.Forall₂ _ [0, 1] derivatives at tangents
  obtain ⟨_, _, one, rest, rfl⟩ := List.forall₂_cons_left_iff.mp tangents
  obtain ⟨_, _, two, last, rfl⟩ := List.forall₂_cons_left_iff.mp rest
  obtain rfl := List.forall₂_nil_left_iff.mp last
  cases first.symm.trans one
  cases second.symm.trans two
  exact ⟨verified, ids, u, run, evaluation⟩

end Trace

end AutoDiff
