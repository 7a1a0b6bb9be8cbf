import AutoDiff.Trace.Simplify
import Mathlib.Tactic.SplitIfs

namespace AutoDiff

namespace Trace

theorem const?_eq_some_iff {α : Type} {t : Trace α} {id : Nat} {c : α} :
    t.const? id = some c ↔ t.nodes[id]? = some (.const c : Node α) := by
  unfold const?
  split
  · next value found => simp [found]
  · next other => exact ⟨fun no => by simp at no, fun found => (other c found).elim⟩

variable {α : Type} [Arithmetic α] {t : Trace α}

theorem isConst_eq_true_iff {id : NodeId} {n : Int} :
    t.isConst id n = true ↔ ∃ c, t.const? id = some c ∧ Arithmetic.equal c (Arithmetic.ofInt n) = true := by
  simp [isConst, Option.any_eq_true]

/-- No constant among the operands takes part in an identity. -/
def Unreducible (t : Trace α) : BinaryOp → NodeId → NodeId → Prop
  | .add, lhs, rhs | .sub, lhs, rhs => ¬t.isConst lhs 0 ∧ ¬t.isConst rhs 0
  | .mul, lhs, rhs => ∀ n ∈ [0, 1, -1], ¬t.isConst lhs n ∧ ¬t.isConst rhs n
  | .div, lhs, rhs => ¬t.isConst lhs 0 ∧ ¬t.isConst rhs 1
  | .pow, _, rhs => ¬t.isConst rhs 1 ∧ ¬t.isConst rhs 0

/-- What simplification makes of a node, rule by rule. -/
inductive Rewrites (t : Trace α) : Node α → Simplified α → Prop
  | leaf {node : Node α} : node.operands = [] → t.Rewrites node (.fresh node)
  | foldUnary (op : UnaryOp) {arg : NodeId} {c : α} : t.const? arg = some c →
      t.Rewrites (.unary op arg) (.fresh (.const (Arithmetic.unary op c)))
  | negNeg {arg inner : NodeId} : t.nodes[arg]? = some (.unary .neg inner) →
      t.Rewrites (.unary .neg arg) (.existing inner)
  | keepUnary {op : UnaryOp} {arg : NodeId} : t.const? arg = none →
      (op = .neg → ∃ node, t.nodes[arg]? = some node ∧ ∀ inner, node ≠ .unary .neg inner) →
      t.Rewrites (.unary op arg) (.fresh (.unary op arg))
  | foldBinary (op : BinaryOp) {lhs rhs : NodeId} {c d : α} : t.const? lhs = some c → t.const? rhs = some d →
      t.Rewrites (.binary op lhs rhs) (.fresh (.const (Arithmetic.binary op c d)))
  | zeroAdd {lhs rhs : NodeId} : t.isConst lhs 0 → t.const? rhs = none →
      t.Rewrites (.binary .add lhs rhs) (.existing rhs)
  | addZero {lhs rhs : NodeId} : t.isConst rhs 0 → t.const? lhs = none →
      t.Rewrites (.binary .add lhs rhs) (.existing lhs)
  | subZero {lhs rhs : NodeId} : t.isConst rhs 0 → t.const? lhs = none →
      t.Rewrites (.binary .sub lhs rhs) (.existing lhs)
  | zeroSub {lhs rhs : NodeId} {made : Simplified α} : t.isConst lhs 0 → t.const? rhs = none →
      t.Rewrites (.unary .neg rhs) made → t.Rewrites (.binary .sub lhs rhs) made
  | zeroMul {lhs rhs : NodeId} : t.isConst lhs 0 → t.const? rhs = none →
      t.Rewrites (.binary .mul lhs rhs) (.existing lhs)
  | mulZero {lhs rhs : NodeId} : t.isConst rhs 0 → t.const? lhs = none →
      t.Rewrites (.binary .mul lhs rhs) (.existing rhs)
  | oneMul {lhs rhs : NodeId} : t.isConst lhs 1 → t.const? rhs = none →
      t.Rewrites (.binary .mul lhs rhs) (.existing rhs)
  | mulOne {lhs rhs : NodeId} : t.isConst rhs 1 → t.const? lhs = none →
      t.Rewrites (.binary .mul lhs rhs) (.existing lhs)
  | minusMul {lhs rhs : NodeId} {made : Simplified α} : t.isConst lhs (-1) → t.const? rhs = none →
      t.Rewrites (.unary .neg rhs) made → t.Rewrites (.binary .mul lhs rhs) made
  | mulMinus {lhs rhs : NodeId} {made : Simplified α} : t.isConst rhs (-1) → t.const? lhs = none →
      t.Rewrites (.unary .neg lhs) made → t.Rewrites (.binary .mul lhs rhs) made
  | zeroDiv {lhs rhs : NodeId} : t.isConst lhs 0 → t.const? rhs = none →
      t.Rewrites (.binary .div lhs rhs) (.existing lhs)
  | divOne {lhs rhs : NodeId} : t.isConst rhs 1 → t.const? lhs = none →
      t.Rewrites (.binary .div lhs rhs) (.existing lhs)
  | powOne {lhs rhs : NodeId} : t.isConst rhs 1 → t.const? lhs = none →
      t.Rewrites (.binary .pow lhs rhs) (.existing lhs)
  | powZero {lhs rhs : NodeId} : t.isConst rhs 0 → t.const? lhs = none →
      t.Rewrites (.binary .pow lhs rhs) (.fresh (.const (Arithmetic.ofInt 1)))
  | keepBinary {op : BinaryOp} {lhs rhs : NodeId} : t.const? lhs = none ∨ t.const? rhs = none →
      t.Unreducible op lhs rhs → t.Rewrites (.binary op lhs rhs) (.fresh (ordered op lhs rhs))
  | powerZero (base : NodeId) : t.Rewrites (.power base 0) (.fresh (.const (Arithmetic.ofInt 1)))
  | powerOne (base : NodeId) : t.Rewrites (.power base 1) (.existing base)
  | foldPower {base : NodeId} {exponent : Int32} {c : α} : exponent ≠ 0 → exponent ≠ 1 → t.const? base = some c →
      t.Rewrites (.power base exponent) (.fresh (.const (Arithmetic.power c exponent)))
  | keepPower {base : NodeId} {exponent : Int32} : exponent ≠ 0 → exponent ≠ 1 → t.const? base = none →
      t.Rewrites (.power base exponent) (.fresh (.power base exponent))

theorem rewrites_unary {op : UnaryOp} {arg : NodeId} {made : Simplified α}
    (run : t.simplifyUnary op arg = some made) : t.Rewrites (.unary op arg) made := by
  unfold simplifyUnary at run
  split at run
  · next c found =>
      cases run
      exact .foldUnary op found
  · next unknown =>
      split at run
      · next negated =>
          subst negated
          split at run
          · cases run
          · next inner double =>
              cases run
              exact .negNeg double
          · next node other there =>
              cases run
              exact .keepUnary unknown fun _ => ⟨node, there, other⟩
      · next other =>
          cases run
          exact .keepUnary unknown fun negated => absurd negated other

theorem const?_eq_none_of_isConst {known other : NodeId} {n : Int} (found : t.isConst known n = true)
    (notBoth : ∀ c d, t.const? known = some c → t.const? other = some d → False) : t.const? other = none := by
  obtain ⟨c, same, _⟩ := isConst_eq_true_iff.mp found
  cases there : t.const? other with
  | none => rfl
  | some d => exact (notBoth c d same there).elim

theorem rewrites_binary {op : BinaryOp} {lhs rhs : NodeId} {made : Simplified α}
    (run : t.simplifyBinary op lhs rhs = some made) : t.Rewrites (.binary op lhs rhs) made := by
  unfold simplifyBinary at run
  split at run
  · next c d first second =>
      cases run
      exact .foldBinary op first second
  · next notBoth =>
      have right {n : Int} (found : t.isConst lhs n = true) : t.const? rhs = none :=
        const?_eq_none_of_isConst found notBoth
      have left {n : Int} (found : t.isConst rhs n = true) : t.const? lhs = none :=
        const?_eq_none_of_isConst found fun d c second first => notBoth c d first second
      have either : t.const? lhs = none ∨ t.const? rhs = none := by
        cases first : t.const? lhs with
        | none => exact .inl rfl
        | some c =>
            cases second : t.const? rhs with
            | none => exact .inr rfl
            | some d => exact (notBoth c d first second).elim
      cases op with
      | add =>
          simp only at run
          split_ifs at run with zeroLeft zeroRight
          · cases run
            exact .zeroAdd zeroLeft (right zeroLeft)
          · cases run
            exact .addZero zeroRight (left zeroRight)
          · cases run
            exact .keepBinary either ⟨zeroLeft, zeroRight⟩
      | sub =>
          simp only at run
          split_ifs at run with zeroRight zeroLeft
          · cases run
            exact .subZero zeroRight (left zeroRight)
          · exact .zeroSub zeroLeft (right zeroLeft) (rewrites_unary run)
          · cases run
            exact .keepBinary either ⟨zeroLeft, zeroRight⟩
      | mul =>
          simp only at run
          split_ifs at run with zeroLeft zeroRight oneLeft oneRight minusLeft minusRight
          · cases run
            exact .zeroMul zeroLeft (right zeroLeft)
          · cases run
            exact .mulZero zeroRight (left zeroRight)
          · cases run
            exact .oneMul oneLeft (right oneLeft)
          · cases run
            exact .mulOne oneRight (left oneRight)
          · exact .minusMul minusLeft (right minusLeft) (rewrites_unary run)
          · exact .mulMinus minusRight (left minusRight) (rewrites_unary run)
          · cases run
            exact .keepBinary either
              (by simp [Unreducible, zeroLeft, zeroRight, oneLeft, oneRight, minusLeft, minusRight])
      | div =>
          simp only at run
          split_ifs at run with zeroLeft oneRight
          · cases run
            exact .zeroDiv zeroLeft (right zeroLeft)
          · cases run
            exact .divOne oneRight (left oneRight)
          · cases run
            exact .keepBinary either ⟨zeroLeft, oneRight⟩
      | pow =>
          simp only at run
          split_ifs at run with oneRight zeroRight
          · cases run
            exact .powOne oneRight (left oneRight)
          · cases run
            exact .powZero zeroRight (left zeroRight)
          · cases run
            exact .keepBinary either ⟨oneRight, zeroRight⟩

theorem rewrites_power (base : NodeId) (exponent : Int32) :
    t.Rewrites (.power base exponent) (t.simplifyPower base exponent) := by
  unfold simplifyPower
  split_ifs with zero one
  · exact zero ▸ .powerZero base
  · exact one ▸ .powerOne base
  · split
    · next c found => exact .foldPower zero one found
    · next unknown => exact .keepPower zero one unknown

/-- Simplification applies one of the rules. -/
theorem rewrites_of_simplify {node : Node α} {made : Simplified α} (run : t.simplify node = some made) :
    t.Rewrites node made := by
  cases node with
  | input | weight | const =>
      cases run
      exact .leaf rfl
  | unary op arg => exact rewrites_unary run
  | binary op lhs rhs => exact rewrites_binary run
  | power base exponent =>
      cases run
      exact rewrites_power base exponent

section Fresh

theorem simplify_of_operands_eq_nil {node : Node α} (leaf : node.operands = []) :
    t.simplify node = some (.fresh node) := by
  cases node <;> first | rfl | cases leaf

theorem simplifyUnary_keep {op : UnaryOp} {arg : NodeId} (unknown : t.const? arg = none)
    (single : op = .neg → ∃ node, t.nodes[arg]? = some node ∧ ∀ inner, node ≠ .unary .neg inner) :
    t.simplifyUnary op arg = some (.fresh (.unary op arg)) := by
  unfold simplifyUnary
  rw [unknown]
  by_cases negated : op = .neg
  · obtain ⟨node, there, other⟩ := single negated
    subst negated
    simp only [there, if_true]
  · simp [negated]

theorem Unreducible.swap {op : BinaryOp} {lhs rhs : NodeId} (commutes : op.isCommutative = true)
    (unreducible : t.Unreducible op lhs rhs) : t.Unreducible op rhs lhs := by
  cases op with
  | add => exact unreducible.symm
  | mul => exact fun n member => (unreducible n member).symm
  | sub | div | pow => cases commutes

theorem simplifyBinary_keep {op : BinaryOp} {lhs rhs : NodeId}
    (either : t.const? lhs = none ∨ t.const? rhs = none) (unreducible : t.Unreducible op lhs rhs) :
    t.simplifyBinary op lhs rhs = some (.fresh (ordered op lhs rhs)) := by
  unfold simplifyBinary
  split
  · next c d first second => rcases either with none | none <;> simp_all
  · cases op <;> simp_all [Unreducible]

theorem simplify_ordered {op : BinaryOp} {lhs rhs : NodeId} (either : t.const? lhs = none ∨ t.const? rhs = none)
    (unreducible : t.Unreducible op lhs rhs) :
    t.simplify (ordered op lhs rhs) = some (.fresh (ordered op lhs rhs)) := by
  by_cases swapped : op.isCommutative = true ∧ rhs < lhs
  · have late : ¬lhs < rhs := Nat.lt_asymm swapped.2
    have kept := simplifyBinary_keep either.symm (unreducible.swap swapped.1)
    simpa [ordered, swapped, late, simplify] using kept
  · have kept := simplifyBinary_keep either unreducible
    simpa [ordered, swapped, simplify] using kept

theorem Rewrites.simplify_fresh {node made : Node α} (rewrites : t.Rewrites node (.fresh made)) :
    t.simplify made = some (.fresh made) := by
  generalize same : Simplified.fresh made = outcome at rewrites
  induction rewrites with
  | leaf leaf =>
      cases same
      exact simplify_of_operands_eq_nil leaf
  | foldUnary | foldBinary | powZero | powerZero | foldPower =>
      cases same
      rfl
  | keepUnary unknown single =>
      cases same
      exact simplifyUnary_keep unknown single
  | keepBinary either unreducible =>
      cases same
      exact simplify_ordered either unreducible
  | keepPower zero one unknown =>
      cases same
      simp [simplify, simplifyPower, zero, one, unknown]
  | zeroSub _ _ _ ih | minusMul _ _ _ ih | mulMinus _ _ _ ih => exact ih same
  | negNeg | zeroAdd | addZero | subZero | zeroMul | mulZero | oneMul | mulOne | zeroDiv | divOne | powOne
  | powerOne => cases same

end Fresh

end Trace

end AutoDiff
