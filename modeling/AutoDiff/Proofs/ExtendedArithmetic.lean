import AutoDiff.Proofs.Unfolding
import AutoDiff.Proofs.Interpretation

/-!
Arithmetic with infinities and other numbers that are not finite. Finite numbers are calculated with as their
values in a field, but a zero may have a sign; nothing is said of the others. As long as everything is finite
an expression has the value that it has in the field.
-/

namespace AutoDiff

/-- Numbers that are equal but for the sign of a zero have one value. -/
class ExtendedArithmetic (E : Type) (F : outParam Type) [Field F] [FieldArithmetic F] extends Arithmetic E where
  isFinite : E → Bool
  value : E → F
  number : F → E
  isFinite_number (a : F) : isFinite (number a) = true
  value_number (a : F) : value (number a) = a
  isFinite_ofInt (n : Int) : isFinite (ofInt n) = true
  value_ofInt (n : Int) : value (ofInt n) = n
  value_of_equal (c : E) (n : Int) : equal c (ofInt n) = true → value c = n
  value_unary (op : UnaryOp) (c : E) :
    isFinite c = true → isFinite (unary op c) = true → value (unary op c) = Arithmetic.unary op (value c)
  value_binary (op : BinaryOp) (c d : E) :
    isFinite c = true → isFinite d = true → isFinite (binary op c d) = true →
      value (binary op c d) = Arithmetic.binary op (value c) (value d)
  value_power (c : E) (n : Int32) :
    isFinite c = true → isFinite (power c n) = true → value (power c n) = Arithmetic.power (value c) n
  isFinite_unary (op : UnaryOp) {c d : E} :
    isFinite c = true → isFinite d = true → value c = value d → isFinite (unary op c) = true →
      isFinite (unary op d) = true
  isFinite_binary (op : BinaryOp) {b c d e : E} :
    isFinite b = true → isFinite c = true → isFinite d = true → isFinite e = true →
      value b = value d → value c = value e → isFinite (binary op b c) = true → isFinite (binary op d e) = true
  isFinite_power (n : Int32) {c d : E} :
    isFinite c = true → isFinite d = true → value c = value d → isFinite (power c n) = true →
      isFinite (power d n) = true
  isFinite_neg (c : E) : isFinite c = true → isFinite (unary .neg c) = true
  isFinite_add (c d : E) : isFinite c = true → isFinite d = true → isFinite (binary .add c d) = true
  isFinite_mul (c d : E) : isFinite c = true → isFinite d = true → isFinite (binary .mul c d) = true

namespace ExtendedArithmetic

variable {E F : Type} [Field F] [FieldArithmetic F] [ExtendedArithmetic E F]

/-- A result, or the number of its exact value if the result or an operand is not finite. -/
def settle (operands : Bool) (result : E) (exact : F) : E :=
  if operands && isFinite result then result else number exact

theorem settle_of_isFinite {operands : Bool} {result : E} (exact : F) (finite : operands = true)
    (also : isFinite result = true) : settle operands result exact = result := by
  rw [settle, finite, also]
  rfl

theorem value_settle {operands : Bool} {result : E} {exact : F}
    (same : operands = true → isFinite result = true → value result = exact) :
    value (settle operands result exact) = exact := by
  unfold settle
  split
  · next both =>
      rw [Bool.and_eq_true] at both
      exact same both.1 both.2
  · exact value_number exact

variable (E) in
/-- The same arithmetic where it stays finite, and exact arithmetic everywhere else. -/
@[reducible]
def total : Arithmetic E where
  ofInt := Arithmetic.ofInt
  unary op c := settle (isFinite c) (Arithmetic.unary op c) (Arithmetic.unary op (value c))
  binary op c d :=
    settle (isFinite c && isFinite d) (Arithmetic.binary op c d) (Arithmetic.binary op (value c) (value d))
  power c n := settle (isFinite c) (Arithmetic.power c n) (Arithmetic.power (value c) n)
  equal := Arithmetic.equal
  isPositive := Arithmetic.isPositive

instance reading : @Reading E F (total E) _ _ :=
  letI := total E
  { value := value
    value_ofInt := value_ofInt
    value_of_equal := value_of_equal
    value_unary := fun op c => value_settle (value_unary op c)
    value_binary := fun op c d => value_settle fun finite also =>
      value_binary op c d (Bool.and_eq_true_iff.mp finite).1 (Bool.and_eq_true_iff.mp finite).2 also
    value_power := fun c n => value_settle (value_power c n) }

end ExtendedArithmetic

open ExtendedArithmetic

variable {E F : Type} [Field F] [FieldArithmetic F] [ExtendedArithmetic E F]

namespace Expression

/-- An expression has the value `v` at inputs `x` and weights `w`, and what is calculated for it is finite. -/
inductive Gives (x w : Array E) : Expression E → E → Prop
  | input {index : Nat} {v : E} : x[index]? = some v → isFinite v = true → Gives x w (.input index) v
  | weight {index : Nat} {v : E} : w[index]? = some v → isFinite v = true → Gives x w (.weight index) v
  | const {c : E} : isFinite c = true → Gives x w (.const c) c
  | unary {op : UnaryOp} {a : Expression E} {u : E} : Gives x w a u →
      isFinite (Arithmetic.unary op u) = true → Gives x w (.unary op a) (Arithmetic.unary op u)
  | binary {op : BinaryOp} {a b : Expression E} {u v : E} : Gives x w a u → Gives x w b v →
      isFinite (Arithmetic.binary op u v) = true → Gives x w (.binary op a b) (Arithmetic.binary op u v)
  | power {a : Expression E} {u : E} {exponent : Int} {n : Int32} : Gives x w a u → n.toInt = exponent →
      isFinite (Arithmetic.power u n) = true → Gives x w (.power a exponent) (Arithmetic.power u n)

variable {x w : Array E}

theorem Gives.isFinite {a : Expression E} {v : E} (gives : a.Gives x w v) : isFinite v = true := by
  cases gives <;> assumption

theorem Gives.value_eq {a : Expression E} {v : E} (gives : a.Gives x w v) :
    value v = (a.map value).eval (x.map value) (w.map value) := by
  induction gives with
  | input found _ => simp [map, eval, found]
  | weight found _ => simp [map, eval, found]
  | const _ => rfl
  | unary given finite ih => rw [value_unary _ _ given.isFinite finite, ih, map, eval]
  | binary left right finite first second =>
      rw [value_binary _ _ _ left.isFinite right.isFinite finite, first, second, map, eval]
  | power given same finite ih =>
      rw [value_power _ _ given.isFinite finite, ih, map, eval, FieldArithmetic.power_eq, same]

end Expression

namespace Trace

/-- A node is calculated with finite numbers alone. -/
def FiniteAt (t : Trace E) (x w : Array E) (id : Nat) : Prop := ∃ v, (t.expression id).Gives x w v

variable {t : Trace E} {x w : Array E}

theorem expression_total (t : Trace E) (id : Nat) : @expression E (total E) t id = t.expression id := by
  induction id using Nat.strongRecOn with
  | ind id ih =>
      unfold expression
      cases t.nodes[id]? with
      | none => rfl
      | some node =>
          refine Node.unfold_congr fun operand _ => ?_
          by_cases early : operand < id
          · simp only [early, if_true]
            exact ih operand early
          · simp only [early, if_false]
            rfl

theorem Valued.eq_of_gives (ordered : t.Ordered) {values : Array E} (valued : t.Valued x w values) {id : Nat}
    (less : id < t.size) {v : E} (gives : (t.expression id).Gives x w v) : values[id]? = some v := by
  induction id using Nat.strongRecOn generalizing v with
  | ind id ih =>
      have found : t.nodes[id]? = some t.nodes[id] := Array.getElem?_eq_getElem less
      have operand {o : Nat} (member : o ∈ (t.nodes[id]).operands) {u : E}
          (given : (t.expression o).Gives x w u) : values[o]? = some u := by
        have early := ordered id _ found o member
        exact ih o early (Nat.lt_trans early less) given
      rw [expression_eq ordered found] at gives
      rw [valued.2 id _ found]
      cases node : t.nodes[id] with
      | input | weight | const =>
          rw [node] at gives
          cases gives
          first | assumption | rfl
      | unary op arg =>
          rw [node] at gives operand
          cases gives with
          | unary given _ => simp [Node.value?, operand (by simp [Node.operands]) given]
      | binary op lhs rhs =>
          rw [node] at gives operand
          cases gives with
          | binary left right _ =>
              simp [Node.value?, operand (by simp [Node.operands]) left, operand (by simp [Node.operands]) right]
      | power base exponent =>
          rw [node] at gives operand
          cases gives with
          | power given same _ =>
              rw [Int32.toInt_inj.mp same]
              simp [Node.value?, operand (by simp [Node.operands]) given]

end Trace

end AutoDiff
