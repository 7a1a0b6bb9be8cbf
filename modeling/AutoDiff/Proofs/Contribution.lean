import AutoDiff.Trace.Gradient
import AutoDiff.Proofs.Building

/-!
What a node passes on to its operands in a reverse sweep. By the chain rule it is the derivative of the
node with respect to the operand, times the adjoint of the node.
-/

namespace AutoDiff

namespace Interpretation

variable (α : Type) {M : Type} [Arithmetic α] [CommRing M] [Interpretation α M]

def leftSlope (x y : M) : BinaryOp → M
  | .add | .sub => 1
  | .mul => y
  | .div => inv α y
  | .pow => y * pow α x (y - 1)

def rightSlope (x y : M) : BinaryOp → M
  | .add => 1
  | .sub => -1
  | .mul => x
  | .div => -(x * inv α y * inv α y)
  | .pow => pow α x y * unary α .ln x

end Interpretation

open Interpretation

theorem Differential.deriv_binary (α : Type) {M : Type} [Arithmetic α] [CommRing M] [Differential α M]
    (j : Nat) (op : BinaryOp) (x y : M) :
    deriv α j (binary α op x y) =
      leftSlope α x y op * deriv α j x + rightSlope α x y op * deriv α j y := by
  cases op with
  | add => simpa [binary, leftSlope, rightSlope] using deriv_add j x y
  | sub => simpa [binary, leftSlope, rightSlope, sub_eq_add_neg] using deriv_sub j x y
  | mul =>
      simp only [binary, leftSlope, rightSlope, deriv_mul]
      ring
  | div =>
      simp only [binary, leftSlope, rightSlope, deriv_mul, deriv_inv]
      ring
  | pow => exact deriv_pow j x y

namespace Gradient

variable {α M : Type} [Arithmetic α] [CommRing M] [Interpretation α M] {P : Node α → Prop} {s : Trace α}

section

variable (ordered : s.Ordered) (plain : ∀ node : Node α, node.IsPlain → P node)
include ordered plain

theorem meets_unaryContribution (op : UnaryOp) {id arg adjoint : Nat} {x g : M}
    (node : s.Denotes id (unary α op x)) (operand : s.Denotes arg x) (given : s.Denotes adjoint g) :
    Build.Meets P (unaryContribution op id arg adjoint) s fun made t =>
      t.Denotes made (g * Interpretation.slope α x op) := by
  cases op with
  | neg =>
      refine (Build.meets_neg ordered plain given).mono fun made t _ denotes => ?_
      simpa [Interpretation.slope] using denotes
  | sin =>
      refine (Build.meets_unary ordered plain .cos operand).bind fun cosine t grows isCosine => ?_
      exact Build.meets_mul (grows.ordered ordered) plain (given.extend grows.toExtends) isCosine
  | cos =>
      refine (Build.meets_unary ordered plain .sin operand).bind fun sine t grows isSine => ?_
      refine (Build.meets_neg (grows.ordered ordered) plain isSine).bind fun negated u more isNegated => ?_
      have all := grows.trans more
      exact Build.meets_mul (all.ordered ordered) plain (given.extend all.toExtends) isNegated
  | tan =>
      refine (Build.meets_mul ordered plain node node).bind fun square t grows isSquare => ?_
      refine (Build.meets_constant (M := M) (grows.ordered ordered) plain 1).bind fun one u more isOne => ?_
      refine (Build.meets_add (more.ordered (grows.ordered ordered)) plain isOne
        (isSquare.extend more.toExtends)).bind fun sum v last isSum => ?_
      have all := (grows.trans more).trans last
      rw [Int.cast_one] at isSum
      exact Build.meets_mul (all.ordered ordered) plain (given.extend all.toExtends) isSum
  | exp => exact Build.meets_mul ordered plain given node
  | ln => exact Build.meets_div ordered plain given operand
  | sqrt =>
      refine (Build.meets_constant (M := M) ordered plain 2).bind fun two t grows isTwo => ?_
      refine (Build.meets_mul (grows.ordered ordered) plain isTwo (node.extend grows.toExtends)).bind
        fun double u more isDouble => ?_
      have all := grows.trans more
      rw [Int.cast_ofNat] at isDouble
      exact Build.meets_div (all.ordered ordered) plain (given.extend all.toExtends) isDouble
  | tanh =>
      refine (Build.meets_mul ordered plain node node).bind fun square t grows isSquare => ?_
      refine (Build.meets_constant (M := M) (grows.ordered ordered) plain 1).bind fun one u more isOne => ?_
      refine (Build.meets_sub (more.ordered (grows.ordered ordered)) plain isOne
        (isSquare.extend more.toExtends)).bind fun rest v last isRest => ?_
      have all := (grows.trans more).trans last
      rw [Int.cast_one] at isRest
      exact Build.meets_mul (all.ordered ordered) plain (given.extend all.toExtends) isRest

theorem meets_leftContribution (op : BinaryOp) {lhs rhs adjoint : Nat} {x y g : M}
    (left : s.Denotes lhs x) (right : s.Denotes rhs y) (given : s.Denotes adjoint g) :
    Build.Meets P (leftContribution op lhs rhs adjoint) s fun made t =>
      t.Denotes made (g * leftSlope α x y op) := by
  cases op with
  | add | sub => exact .pure (by simpa [leftSlope] using given)
  | mul => exact Build.meets_mul ordered plain given right
  | div => exact Build.meets_div ordered plain given right
  | pow =>
      refine (Build.meets_constant (M := M) ordered plain 1).bind fun one t grows isOne => ?_
      rw [Int.cast_one] at isOne
      refine (Build.meets_sub (grows.ordered ordered) plain (right.extend grows.toExtends) isOne).bind
        fun less u more isLess => ?_
      have two := grows.trans more
      refine (Build.meets_pow (two.ordered ordered) plain (left.extend two.toExtends) isLess).bind
        fun power v next isPower => ?_
      have three := two.trans next
      refine (Build.meets_mul (three.ordered ordered) plain (right.extend three.toExtends) isPower).bind
        fun product w last isProduct => ?_
      have all := three.trans last
      exact Build.meets_mul (all.ordered ordered) plain (given.extend all.toExtends) isProduct

theorem meets_rightContribution (op : BinaryOp) {id lhs rhs adjoint : Nat} {x y g : M}
    (node : s.Denotes id (binary α op x y)) (left : s.Denotes lhs x) (right : s.Denotes rhs y)
    (given : s.Denotes adjoint g) :
    Build.Meets P (rightContribution op id lhs rhs adjoint) s fun made t =>
      t.Denotes made (g * rightSlope α x y op) := by
  cases op with
  | add => exact .pure (by simpa [rightSlope] using given)
  | sub =>
      refine (Build.meets_neg ordered plain given).mono fun made t _ denotes => ?_
      simpa [rightSlope] using denotes
  | mul => exact Build.meets_mul ordered plain given left
  | div =>
      refine (Build.meets_div ordered plain node right).bind fun quotient t grows isQuotient => ?_
      refine (Build.meets_mul (grows.ordered ordered) plain (given.extend grows.toExtends)
        isQuotient).bind fun product u more isProduct => ?_
      have both := grows.trans more
      refine (Build.meets_neg (both.ordered ordered) plain isProduct).mono fun made v _ denotes => ?_
      simpa [rightSlope, binary] using denotes
  | pow =>
      refine (Build.meets_unary ordered plain .ln left).bind fun log t grows isLog => ?_
      refine (Build.meets_mul (grows.ordered ordered) plain (node.extend grows.toExtends) isLog).bind
        fun product u more isProduct => ?_
      have all := grows.trans more
      exact Build.meets_mul (all.ordered ordered) plain (given.extend all.toExtends) isProduct

theorem meets_powerContribution {M : Type} [CommRing M] [Differential α M] {base adjoint : Nat} {exponent : Int32}
    {x g : M} (above : (Differential.exponents α M).least < exponent.toInt) (operand : s.Denotes base x)
    (given : s.Denotes adjoint g) (allowed : P (.power base (exponent - 1))) :
    Build.Meets P (powerContribution base adjoint exponent) s fun made t =>
      t.Denotes made (g * (exponent.toInt *
        Interpretation.power α ((Differential.exponents α M).before exponent.toInt) x)) := by
  refine (Build.meets_power ordered plain (exponent - 1) operand allowed).bind
    fun power t grows isPower => ?_
  rw [← (Differential.exponents α M).before_toInt exponent above] at isPower
  refine (Build.meets_constant (M := M) (grows.ordered ordered) plain exponent.toInt).bind
    fun factor u more isFactor => ?_
  refine (Build.meets_mul (more.ordered (grows.ordered ordered)) plain isFactor
    (isPower.extend more.toExtends)).bind fun product v last isProduct => ?_
  have all := (grows.trans more).trans last
  exact Build.meets_mul (all.ordered ordered) plain (given.extend all.toExtends) isProduct

end

end Gradient

end AutoDiff
