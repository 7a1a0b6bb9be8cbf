import AutoDiff.Proofs.Dependence
import AutoDiff.Proofs.SecondDerivatives

/-!
Mixed derivatives. They do not depend on the order in which they are taken, as long as the exponents of powers are
constants; where an exponent varies, the arbitrary power and logarithm of a field are not related enough. So the matrix
of second derivatives is symmetric, although its rows are calculated one by one.
-/

namespace AutoDiff

open AutoDiff.Differential Interpretation

variable {α M : Type} [Arithmetic α] [CommRing M] [Differential α M]

namespace Differential

variable (j : Nat)

theorem deriv_intCast (n : Int) : deriv α j (n : M) = 0 := by
  rw [← Interpretation.const_ofInt (α := α), deriv_const]

theorem deriv_one : deriv α j (1 : M) = 0 := by
  simpa using deriv_intCast (α := α) (M := M) j 1

theorem deriv_neg (x : M) : deriv α j (-x) = -deriv α j x := by
  rw [← zero_sub, deriv_sub, deriv_zero, zero_sub]

theorem exists_deriv_slope (op : UnaryOp) (x : M) :
    ∃ c : M, ∀ j, deriv α j (Interpretation.slope α x op) = c * deriv α j x := by
  cases op with
  | neg =>
      refine ⟨0, ?_⟩
      intro j
      change deriv α j (-1 : M) = _
      rw [deriv_neg, deriv_one, neg_zero, zero_mul]
  | sin => exact ⟨Interpretation.slope α x .cos, fun j => deriv_unary j .cos x⟩
  | cos =>
      refine ⟨-Interpretation.slope α x .sin, ?_⟩
      intro j
      change deriv α j (-unary α .sin x) = _
      rw [deriv_neg, deriv_unary, neg_mul]
  | tan =>
      refine ⟨2 * unary α .tan x * Interpretation.slope α x .tan, ?_⟩
      intro j
      change deriv α j (1 + unary α .tan x * unary α .tan x) = _
      rw [deriv_add, deriv_one, deriv_mul, deriv_unary]
      ring
  | exp => exact ⟨Interpretation.slope α x .exp, fun j => deriv_unary j .exp x⟩
  | ln => exact ⟨-(inv α x * inv α x), fun j => deriv_inv j x⟩
  | sqrt =>
      refine ⟨-(inv α (2 * unary α .sqrt x) * inv α (2 * unary α .sqrt x)) * (2 * Interpretation.slope α x .sqrt), ?_⟩
      intro j
      have two : deriv α j (2 : M) = 0 := by simpa using deriv_intCast (α := α) (M := M) j 2
      change deriv α j (inv α (2 * unary α .sqrt x)) = _
      rw [deriv_inv, deriv_mul, two, deriv_unary]
      ring
  | tanh =>
      refine ⟨-(2 * unary α .tanh x * Interpretation.slope α x .tanh), ?_⟩
      intro j
      change deriv α j (1 - unary α .tanh x * unary α .tanh x) = _
      rw [deriv_sub, deriv_one, deriv_mul, deriv_unary]
      ring

/-- The order of two derivatives does not matter. -/
def Commutes (α : Type) {M : Type} [Arithmetic α] [CommRing M] [Differential α M] (i j : Nat) (x : M) : Prop :=
  deriv α i (deriv α j x) = deriv α j (deriv α i x)

section

variable {i j : Nat} {x y : M}

theorem commutes_of_constant (constant : ∀ j, deriv α j x = 0) : Commutes α i j x := by
  rw [Commutes, constant, constant, deriv_zero, deriv_zero]

theorem commutes_input (index : Nat) : Commutes α i j (input α index : M) := by
  have whole (i : Nat) : ∃ n : Int, deriv α i (input α index : M) = n := by
    rw [deriv_input]
    split
    · exact ⟨1, by simp⟩
    · exact ⟨0, by simp⟩
  obtain ⟨m, first⟩ := whole i
  obtain ⟨n, second⟩ := whole j
  rw [Commutes, first, second, deriv_intCast, deriv_intCast]

theorem Commutes.unary (op : UnaryOp) (commutes : Commutes α i j x) :
    Commutes α i j (Interpretation.unary α op x) := by
  obtain ⟨c, slopes⟩ := exists_deriv_slope (α := α) op x
  unfold Commutes at commutes ⊢
  calc
    deriv α i (deriv α j (Interpretation.unary α op x)) =
        c * deriv α i x * deriv α j x + Interpretation.slope α x op * deriv α i (deriv α j x) := by
      rw [deriv_unary, deriv_mul, slopes]
    _ = c * deriv α j x * deriv α i x + Interpretation.slope α x op * deriv α j (deriv α i x) := by
      rw [commutes]
      ring
    _ = deriv α j (deriv α i (Interpretation.unary α op x)) := by
      rw [deriv_unary, deriv_mul, slopes]

theorem Commutes.add (first : Commutes α i j x) (second : Commutes α i j y) : Commutes α i j (x + y) := by
  unfold Commutes at first second ⊢
  rw [deriv_add, deriv_add, deriv_add, deriv_add, first, second]

theorem Commutes.sub (first : Commutes α i j x) (second : Commutes α i j y) : Commutes α i j (x - y) := by
  unfold Commutes at first second ⊢
  rw [deriv_sub, deriv_sub, deriv_sub, deriv_sub, first, second]

theorem Commutes.mul (first : Commutes α i j x) (second : Commutes α i j y) : Commutes α i j (x * y) := by
  unfold Commutes at first second ⊢
  simp only [deriv_mul, deriv_add, first, second]
  ring

theorem Commutes.inv (commutes : Commutes α i j x) : Commutes α i j (Interpretation.inv α x) := by
  unfold Commutes at commutes ⊢
  simp only [deriv_inv, deriv_mul, deriv_neg, commutes]
  ring

/-- With a constant exponent only the base of a power varies. -/
theorem Commutes.pow (base : Commutes α i j x) (constant : ∀ j, deriv α j y = 0) :
    Commutes α i j (Interpretation.pow α x y) := by
  have lowered (j : Nat) : deriv α j (y - 1) = 0 := by
    rw [deriv_sub, constant, deriv_one, sub_zero]
  have power (z : M) (still : ∀ j, deriv α j z = 0) (j : Nat) :
      deriv α j (Interpretation.pow α x z) = z * Interpretation.pow α x (z - 1) * deriv α j x := by
    rw [deriv_pow, still, mul_zero, add_zero]
  unfold Commutes at base ⊢
  simp only [power y constant, deriv_mul, constant, power (y - 1) lowered, base]
  ring

theorem Commutes.power (n : Int) (commutes : Commutes α i j x) : Commutes α i j (Interpretation.power α n x) := by
  unfold Commutes at commutes ⊢
  simp only [deriv_power, deriv_mul, deriv_intCast, commutes]
  ring

end

end Differential

namespace Expression

/-- No input occurs in the exponent of a power; those of integer powers are constants anyway. -/
def FixedExponents {α : Type} : Expression α → Prop
  | input _ | weight _ | const _ => True
  | unary _ a | power a _ => a.FixedExponents
  | binary op a b => a.FixedExponents ∧ b.FixedExponents ∧ (op = .pow → ∀ j, ¬b.Reads j)

theorem deriv_interpret_of_not_reads {a : Expression α} {j : Nat} (absent : ¬a.Reads j) :
    Differential.deriv α j (a.interpret M) = 0 := by
  induction a with
  | input index => exact (deriv_input j index).trans (if_neg absent)
  | weight index => exact deriv_weight j index
  | const c => exact deriv_const j c
  | unary op a ih => rw [interpret, deriv_unary, ih absent, mul_zero]
  | binary op a b left right =>
      obtain ⟨notLeft, notRight⟩ := not_or.mp absent
      rw [interpret, deriv_binary, left notLeft, right notRight, mul_zero, mul_zero, add_zero]
  | power a n ih => rw [interpret, deriv_power, ih absent, mul_zero]

theorem commutes_interpret {a : Expression α} (fixed : a.FixedExponents) (i j : Nat) :
    Commutes α i j (a.interpret M) := by
  induction a with
  | input index => exact commutes_input index
  | weight index => exact commutes_of_constant fun j => deriv_weight j index
  | const c => exact commutes_of_constant fun j => deriv_const j c
  | unary op a ih => exact (ih fixed).unary op
  | power a n ih => exact (ih fixed).power n
  | binary op a b left right =>
      obtain ⟨first, second, exponent⟩ := fixed
      have left := left first
      have right := right second
      cases op with
      | add => exact left.add right
      | sub => exact left.sub right
      | mul => exact left.mul right
      | div => exact left.mul right.inv
      | pow => exact left.pow fun j => deriv_interpret_of_not_reads (exponent rfl j)

variable {F : Type} [Field F] [FieldArithmetic F]

theorem eval_deriv_comm {a : Expression F} (fixed : a.FixedExponents) (i j : Nat) (x w : Array F) :
    ((a.deriv i).deriv j).eval x w = ((a.deriv j).deriv i).eval x w := by
  have commutes := commutes_interpret (M := Class F) fixed j i
  rw [Commutes, interpret_class, deriv_toClass, deriv_toClass, deriv_toClass, deriv_toClass] at commutes
  exact congrArg (Class.eval x w) commutes

end Expression

namespace Trace

theorem fixedExponents_expression {t : Trace α} (ordered : t.Ordered) (fixed : ∀ (id base exponent j : Nat),
    t.nodes[id]? = some (.binary .pow base exponent : Node α) → ¬t.DependsOn exponent j) {id : Nat}
    (inside : id < t.size) : (t.expression id).FixedExponents := by
  induction id using Nat.strongRecOn with
  | ind id ih =>
      have found : t.nodes[id]? = some t.nodes[id] := Array.getElem?_eq_getElem inside
      have operand (operand : Nat) (member : operand ∈ (t.nodes[id]).operands) :
          operand < t.size ∧ (t.expression operand).FixedExponents := by
        have early := ordered id _ found operand member
        have there := Nat.lt_trans early inside
        exact ⟨there, ih operand early there⟩
      rw [expression_eq ordered found]
      cases node : t.nodes[id] with
      | input | weight | const => trivial
      | unary op arg => exact (operand arg (by simp [node, Node.operands])).2
      | power base exponent => exact (operand base (by simp [node, Node.operands])).2
      | binary op lhs rhs =>
          have left := operand lhs (by simp [node, Node.operands])
          have right := operand rhs (by simp [node, Node.operands])
          refine ⟨left.2, right.2, ?_⟩
          rintro rfl j reads
          exact fixed id lhs rhs j (node ▸ found) ((dependsOn_iff_reads ordered right.1 j).mpr reads)

variable {F : Type} [Field F] [FieldArithmetic F]

/-- A kernel of so many inputs and weights evaluates to the entries of a symmetric matrix. -/
def Symmetric (u : Trace F) (inputs weights : Nat) : Prop :=
  ∀ x w : Array F, x.size = inputs → w.size = weights →
    ∃ entries, u.evaluate x w = some (.ok entries) ∧ entries.size = inputs * inputs ∧
      ∀ i j : Nat, i < inputs → j < inputs → entries[i * inputs + j]? = entries[j * inputs + i]?

theorem Computes.symmetric {t u : Trace F} (computes : u.Computes t.inputCount t.outputs.length
      ((List.range t.inputCount).flatMap fun i => (List.range t.inputCount).map fun j =>
        weighted F ((t.outputs.map (t.interpret (Expression.Class F))).map fun y => deriv F j (deriv F i y))))
    (fixed : ∀ id : Nat, id ∈ t.outputs → (t.expression id).FixedExponents) :
    u.Symmetric t.inputCount t.outputs.length := by
  intro x w inputs weights
  obtain ⟨entries, evaluated, size, each⟩ := computes.evaluate_second inputs weights
  refine ⟨entries, evaluated, size, ?_⟩
  intro i j row column
  rw [each i j row column, each j i column row]
  congr 1
  apply Finset.sum_congr rfl
  intro k _
  have same := Expression.eval_deriv_comm (fixed t.outputs[k] (List.getElem_mem k.isLt)) i j x w
  rw [same]

variable [DecidableEq F]

/-- The matrix of second derivatives is symmetric, before and after it is optimized. -/
theorem hessian_symmetric {t : Trace F} (verified : t.verify = .ok ()) (weightless : t.weightCount = 0)
    (powers : ∀ (id base : Nat) (exponent : Int32), t.nodes[id]? = some (.power base exponent : Node F) →
      Int32.minValue.toInt + 2 ≤ exponent.toInt)
    (fixed : ∀ (id base exponent j : Nat), t.nodes[id]? = some (.binary .pow base exponent : Node F) →
      ¬t.DependsOn exponent j) :
    ((∃ u, t.hessian = some u) ↔ t.inputCount * t.inputCount < listLimit) ∧ ∀ u, t.hessian = some u →
      u.Symmetric t.inputCount t.outputs.length ∧
        ∃ r, u.optimize = some r ∧ r.Symmetric t.inputCount t.outputs.length := by
  have wellFormed := t.verify_eq_ok_iff.mp verified
  have constant : ∀ id : Nat, id ∈ t.outputs → (t.expression id).FixedExponents := by
    intro id member
    exact fixedExponents_expression wellFormed.ordered fixed (wellFormed.outputs id member)
  have lower : t.PowersFrom (Int32.minValue.toInt + 2) t.size :=
    fun id base exponent _ found => powers id base exponent found
  have above : (exponents F (Expression.Class F)).least + 1 < Int32.minValue.toInt + 2 :=
    Int.add_lt_add_left (by decide) Int32.minValue.toInt
  refine ⟨exists_hessian_iff wellFormed weightless above lower, ?_⟩
  intro u run
  have room := (hessian_eq_some_iff.mp run).1
  obtain ⟨_, same, wellFormedU, inputCount, weightCount, outputs⟩ :=
    exists_hessian (M := Expression.Class F) wellFormed weightless room above lower
  obtain rfl := Option.some.inj (run.symm.trans same)
  obtain ⟨r, optimized, preserves⟩ := exists_optimize (M := Expression.Class F) wellFormedU
  have first : u.Symmetric t.inputCount t.outputs.length :=
    Computes.symmetric ⟨wellFormedU, inputCount, weightCount, outputs⟩ constant
  have second : r.Symmetric t.inputCount t.outputs.length :=
    Computes.symmetric ⟨preserves.wellFormed, preserves.inputCount.trans inputCount,
      preserves.weightCount.trans weightCount, preserves.outputs.trans outputs⟩ constant
  exact ⟨first, r, optimized, second⟩

def cubeByInput : Trace ℚ where
  nodes := #[.input 0, .input 1, .const 3, .binary .pow 0 2, .binary .div 3 1]
  inputCount := 2
  weightCount := 0
  outputs := [4]

theorem hessian_symmetric_cubeByInput : cubeByInput.verify = .ok () ∧
    ∃ u r, cubeByInput.hessian = some u ∧ u.optimize = some r ∧ u.Symmetric 2 1 ∧ r.Symmetric 2 1 ∧
      r.evaluate #[2, 3] #[1] = some (.ok #[4, -4 / 3, -4 / 3, 16 / 27]) := by
  have verified : cubeByInput.verify = .ok () := by decide +kernel
  have absent {node : Node ℚ} {id : Nat} (found : cubeByInput.nodes[id]? = some node) :
      node ∈ [.input 0, .input 1, .const 3, .binary .pow 0 2, .binary .div 3 1] := by
    simpa [cubeByInput] using Array.mem_of_getElem? found
  have fixed : ∀ (id base exponent j : Nat), cubeByInput.nodes[id]? = some (.binary .pow base exponent : Node ℚ) →
      ¬cubeByInput.DependsOn exponent j := by
    intro id base exponent j found
    obtain ⟨rfl, rfl⟩ : base = 0 ∧ exponent = 2 := by simpa using absent found
    have constant : cubeByInput.nodes[2]? = some (.const 3) := rfl
    rw [dependsOn_iff constant]
    simp [Node.operands]
  obtain ⟨made, each⟩ := hessian_symmetric verified rfl (exponents_of_all (by decide +kernel)) fixed
  obtain ⟨u, run⟩ := made.mpr (by decide)
  obtain ⟨first, r, optimized, second⟩ := each u run
  refine ⟨verified, u, r, run, optimized, first, second, ?_⟩
  have evaluation : (cubeByInput.hessian.bind fun u => u.optimize.bind fun r => r.evaluate #[2, 3] #[1]) =
      some (.ok #[4, -4 / 3, -4 / 3, 16 / 27]) := by decide +kernel
  rwa [run, Option.bind_some, optimized] at evaluation

end Trace

end AutoDiff
