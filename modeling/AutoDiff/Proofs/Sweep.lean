import AutoDiff.Proofs.Contribution
import Mathlib.Algebra.BigOperators.Ring.Finset

/-!
The reverse sweep. The derivative of the output is the sum, over the nodes that are still to be visited,
of their adjoints times their own derivatives; visiting a node moves its share to its operands.
-/

namespace AutoDiff

open Finset AutoDiff.Differential

def Node.reads {α : Type} (M : Type) [CommRing M] (j : Nat) : Node α → M
  | .input i => if i = j then 1 else 0
  | .weight _ | .const _ | .unary _ _ | .binary _ _ _ | .power _ _ => 0

namespace Adjoints

theorem grad?_set {a : Adjoints} {target : Nat} (bound : target < a.grads.size) (grad id : Nat) :
    (a.set target grad).grad? id = if id = target then some grad else a.grad? id := by
  unfold grad? set
  by_cases same : id = target
  · subst same
    simp [bound]
  · simp [same, Array.getElem?_setIfInBounds_ne (Ne.symm same)]

theorem grad?_set_of_ne (a : Adjoints) {target id : Nat} (other : id ≠ target) (grad : Nat) :
    (a.set target grad).grad? id = a.grad? id := by
  unfold grad? set
  rw [Array.getElem?_setIfInBounds_ne (Ne.symm other)]

theorem of_grad?_set {a : Adjoints} {target grad id known : Nat} (found : (a.set target grad).grad? id = some known) :
    id = target ∧ known = grad ∨ a.grad? id = some known := by
  by_cases same : id = target
  · subst same
    by_cases inside : id < a.grads.size
    · rw [grad?_set inside, if_pos rfl, Option.some.injEq] at found
      exact .inl ⟨rfl, found.symm⟩
    · refine .inr ?_
      rwa [show a.set id grad = a by simp [set, Array.setIfInBounds, inside]] at found
  · exact .inr (a.grad?_set_of_ne same grad ▸ found)

theorem grad?_replicate (active : Array Bool) (count id : Nat) :
    grad? ⟨active, Array.replicate count none⟩ id = none := by
  rw [grad?, Array.getElem?_replicate]
  split <;> rfl

variable {α : Type} (M : Type) [Arithmetic α] [CommRing M] [Differential α M]

def value (a : Adjoints) (t : Trace α) (id : Nat) : M :=
  match a.grad? id with
  | some grad => t.interpret M grad
  | none => 0

/-- What the nodes below `limit` have received, in terms of input `j`. -/
def pending (a : Adjoints) (t : Trace α) (j limit : Nat) : M :=
  ∑ id ∈ range limit, a.value M t id * deriv α j (t.interpret M id)

/-- The adjoints found are nodes of the trace, and inactive nodes below `bound` depend on no input. -/
structure Sound (a : Adjoints) (t : Trace α) (bound : Nat) : Prop where
  size : bound ≤ a.grads.size
  nodes : bound ≤ t.size
  defined : ∀ id grad : Nat, a.grad? id = some grad → grad < t.size
  inactive : ∀ id j : Nat, id < bound → a.isActive id = false →
    deriv α j (t.interpret M id) = 0

/-- A step that leaves the adjoints from `limit` on alone and adds `gain` to those below. -/
structure Gains (bound limit : Nat) (gain : Nat → M) (a : Adjoints) (s : Trace α) (b : Adjoints)
    (t : Trace α) : Prop where
  sound : b.Sound M t bound
  above : ∀ id : Nat, limit ≤ id → b.grad? id = a.grad? id
  pending : ∀ j : Nat, b.pending M t j limit = a.pending M s j limit + gain j

variable {M} {a : Adjoints} {s t : Trace α} {bound limit : Nat}

theorem Sound.extend (sound : a.Sound M s bound) (more : Trace.Extends s t) : a.Sound M t bound where
  size := sound.size
  nodes := Nat.le_trans sound.nodes more.size_le
  defined id grad found := Nat.lt_of_lt_of_le (sound.defined id grad found) more.size_le
  inactive id j less dead := by
    rw [more.interpret (Nat.lt_of_lt_of_le less sound.nodes)]
    exact sound.inactive id j less dead

theorem Sound.set (sound : a.Sound M s bound) (target : Nat) {grad : Nat} (there : grad < s.size) :
    (a.set target grad).Sound M s bound where
  size := by simpa [Adjoints.set] using sound.size
  nodes := sound.nodes
  defined id other found := by
    rcases of_grad?_set found with ⟨_, rfl⟩ | old
    · exact there
    · exact sound.defined id other old
  inactive := sound.inactive

theorem value_extend (sound : a.Sound M s bound) (more : Trace.Extends s t) (id : Nat) :
    a.value M t id = a.value M s id := by
  unfold value
  split
  · next grad found => exact more.interpret (sound.defined id grad found)
  · rfl

theorem pending_extend (sound : a.Sound M s bound) (more : Trace.Extends s t) (within : limit ≤ bound)
    (j : Nat) : a.pending M t j limit = a.pending M s j limit := by
  refine sum_congr rfl fun id member => ?_
  have less : id < s.size := by
    have := mem_range.mp member
    have := sound.nodes
    omega
  rw [value_extend sound more, more.interpret less]

theorem pending_set {target grad : Nat} (inside : target < a.grads.size) (below : target < limit)
    (j : Nat) :
    (a.set target grad).pending M s j limit = a.pending M s j limit +
      (s.interpret M grad - a.value M s target) * deriv α j (s.interpret M target) := by
  have each (id : Nat) : (a.set target grad).value M s id * deriv α j (s.interpret M id) =
      a.value M s id * deriv α j (s.interpret M id) + if id = target then
        (s.interpret M grad - a.value M s target) * deriv α j (s.interpret M target)
      else 0 := by
    unfold value
    rw [grad?_set inside]
    split_ifs with same
    · subst same
      ring
    · rw [add_zero]
  simp only [pending, each, sum_add_distrib, sum_ite_eq', mem_range, below, if_true]

theorem Gains.trans {b c : Adjoints} {u : Trace α} {first second : Nat → M}
    (one : Gains M bound limit first a s b t) (two : Gains M bound limit second b t c u) :
    Gains M bound limit (fun j => first j + second j) a s c u where
  sound := two.sound
  above id more := (two.above id more).trans (one.above id more)
  pending j := by rw [two.pending, one.pending, add_assoc]

variable {P : Node α → Prop}

section

variable (ordered : s.Ordered) (plain : ∀ node : Node α, node.IsPlain → P node)
  (sound : a.Sound M s bound) (within : limit ≤ bound)
include ordered plain sound within

theorem meets_accumulate {target contribution : Nat} {x : M} (below : target < limit)
    (given : s.Denotes contribution x) :
    Build.Meets P (a.accumulate target contribution) s
      (Gains M bound limit (fun j => x * deriv α j (s.interpret M target)) a s) := by
  have inside : target < a.grads.size := Nat.lt_of_lt_of_le below (Nat.le_trans within sound.size)
  obtain ⟨there, rfl⟩ := given
  refine .get ?_
  split
  · next drop =>
      refine .pure ⟨sound, fun _ _ => rfl, fun j => ?_⟩
      rcases Bool.or_eq_true_iff.mp drop with dead | zero
      · rw [sound.inactive target j (Nat.lt_of_lt_of_le below within) (by simpa using dead)]
        simp
      · rw [Trace.interpret_isConst ordered contribution zero]
        simp
  · cases known : a.grad? target with
    | none =>
        refine .pure ⟨sound.set target there, fun id more => ?_, fun j => ?_⟩
        · rw [grad?_set inside, if_neg (by omega)]
        · rw [pending_set inside below]
          simp [value, known]
    | some existing =>
        have old := Trace.denotes_interpret (M := M) (sound.defined target existing known)
        refine (Build.meets_add ordered plain old (Trace.denotes_interpret there)).bind
          fun sum t grows isSum => .pure ⟨(sound.extend grows.toExtends).set target isSum.1,
            fun id more => ?_, fun j => ?_⟩
        · rw [grad?_set inside, if_neg (by omega)]
        · have less : target < s.size := Nat.lt_of_lt_of_le below (Nat.le_trans within sound.nodes)
          rw [pending_set inside below, pending_extend sound grows.toExtends within, isSum.2,
            value_extend sound grows.toExtends, grows.interpret less]
          simp [value, known]

theorem meets_pass {target : Nat} {contribution : Build α NodeId} {x : M} (below : target < limit)
    (made : Build.Meets P contribution s fun id t => t.Denotes id x) :
    Build.Meets P (if a.isActive target then contribution >>= a.accumulate target else pure a) s
      (Gains M bound limit (fun j => x * deriv α j (s.interpret M target)) a s) := by
  split
  · refine made.bind fun id t grows denotes => ?_
    have less : target < s.size := Nat.lt_of_lt_of_le below (Nat.le_trans within sound.nodes)
    refine (meets_accumulate (grows.ordered ordered) plain (sound.extend grows.toExtends) within below
      denotes).mono fun b u _ gains => ⟨gains.sound, gains.above, fun j => ?_⟩
    rw [gains.pending, pending_extend sound grows.toExtends within, grows.interpret less]
  · next dead =>
      refine .pure ⟨sound, fun _ _ => rfl, fun j => ?_⟩
      rw [sound.inactive target j (Nat.lt_of_lt_of_le below within) (by simpa using dead)]
      simp

end

end Adjoints

namespace Gradient

open Adjoints

/-- Powers that can be passed on: the exponent is above the least one, and the power before may be appended. -/
def Lowers {α : Type} (least : Int) (P : Node α → Prop) (node : Node α) : Prop :=
  ∀ (base : Nat) (exponent : Int32), node = .power base exponent →
    least < exponent.toInt ∧ P (.power base (exponent - 1))

theorem propagate_binary {α : Type} [Arithmetic α] (a : Adjoints) (id lhs rhs adjoint : Nat) (op : BinaryOp) :
    propagate a id (.binary op lhs rhs : Node α) adjoint =
      (if a.isActive lhs then leftContribution op lhs rhs adjoint >>= a.accumulate lhs
        else Pure.pure a) >>= fun b =>
      if b.isActive rhs then rightContribution op id lhs rhs adjoint >>= b.accumulate rhs
        else Pure.pure b := by
  by_cases active : a.isActive lhs = true
  · simp [propagate, active]
  · simp [propagate, active]

variable {α M : Type} [Arithmetic α] [CommRing M] [Differential α M] {P : Node α → Prop}
  {a : Adjoints} {s : Trace α} {bound : Nat}

section

variable (ordered : s.Ordered) (plain : ∀ node : Node α, node.IsPlain → P node)
  (sound : a.Sound M s bound)
include ordered plain sound

theorem meets_propagate {id : Nat} {node : Node α} (less : id < bound) (found : s.nodes[id]? = some node)
    (lowers : Lowers (exponents α M).least P node) {adjoint : Nat} {g : M} (given : s.Denotes adjoint g) :
    Build.Meets P (propagate a id node adjoint) s
      (Gains M bound id (fun j => g * (deriv α j (s.interpret M id) - node.reads M j)) a s) := by
  have own : s.Denotes id (node.interpret M (s.interpret M)) :=
    ⟨Nat.lt_of_lt_of_le less sound.nodes, Trace.interpret_eq ordered found⟩
  have early := ordered id node found
  have there (operand : Nat) (member : operand ∈ node.operands) :
      s.Denotes operand (s.interpret M operand) :=
    Trace.denotes_interpret (Nat.lt_trans (early operand member) own.1)
  have within : id ≤ bound := Nat.le_of_lt less
  rw [own.2]
  cases node with
  | input i =>
      refine .pure ⟨sound, fun _ _ => rfl, fun j => ?_⟩
      simp [Node.interpret, Node.reads, Differential.deriv_input]
  | weight i =>
      refine .pure ⟨sound, fun _ _ => rfl, fun j => ?_⟩
      simp [Node.interpret, Node.reads, Differential.deriv_weight]
  | const c =>
      refine .pure ⟨sound, fun _ _ => rfl, fun j => ?_⟩
      simp [Node.interpret, Node.reads, Differential.deriv_const]
  | unary op arg =>
      have operand := there arg (by simp [Node.operands])
      have made := meets_unaryContribution ordered plain op own operand given
      refine (meets_pass ordered plain sound within (early arg (by simp [Node.operands])) made).mono
        fun b t _ gains => ⟨gains.sound, gains.above, fun j => ?_⟩
      rw [gains.pending, Node.interpret, deriv_unary, Node.reads]
      ring
  | power base exponent =>
      obtain ⟨above, allowed⟩ := lowers base exponent rfl
      have operand := there base (by simp [Node.operands])
      have made := meets_powerContribution ordered plain above operand given allowed
      refine (meets_pass ordered plain sound within (early base (by simp [Node.operands])) made).mono
        fun b t _ gains => ⟨gains.sound, gains.above, fun j => ?_⟩
      rw [gains.pending, Node.interpret, deriv_power, Node.reads]
      ring
  | binary op lhs rhs =>
      have left := there lhs (by simp [Node.operands])
      have right := there rhs (by simp [Node.operands])
      have first := meets_leftContribution ordered plain op left right given
      rw [propagate_binary]
      refine (meets_pass ordered plain sound within (early lhs (by simp [Node.operands])) first).bind
        fun b t grows passed => ?_
      have second := meets_rightContribution (grows.ordered ordered) plain op
        (own.extend grows.toExtends) (left.extend grows.toExtends) (right.extend grows.toExtends)
        (given.extend grows.toExtends)
      refine (meets_pass (grows.ordered ordered) plain passed.sound within
        (early rhs (by simp [Node.operands])) second).mono fun c u _ rest => ?_
      refine ⟨rest.sound, (passed.trans rest).above, fun j => ?_⟩
      rw [(passed.trans rest).pending, Node.interpret, deriv_binary, grows.interpret right.1, Node.reads]
      ring

end

/-- Sweeping over the nodes below `limit` leaves each input with its derivative of the output. -/
theorem meets_sweep (plain : ∀ node : Node α, node.IsPlain → P node) (limit : Nat) (ordered : s.Ordered)
    (sound : a.Sound M s bound) (within : limit ≤ bound)
    (lowers : ∀ (id : Nat) (node : Node α), id < bound → s.nodes[id]? = some node → Lowers (exponents α M).least P node) :
    Build.Meets P (sweep limit a) s fun b t => b.Sound M t bound ∧
      (∀ id : Nat, limit ≤ id → b.grad? id = a.grad? id) ∧
      ∀ j, ∑ id ∈ range limit, b.value M t id * (s.nodes[id]?.elim 0 (·.reads M j)) =
        a.pending M s j limit := by
  induction limit generalizing a s with
  | zero => exact .pure ⟨sound, fun _ _ => rfl, fun j => rfl⟩
  | succ limit ih =>
      have less : limit < s.size := Nat.lt_of_lt_of_le within sound.nodes
      have found : s.nodes[limit]? = some s.nodes[limit] := Array.getElem?_eq_getElem less
      unfold sweep
      cases known : a.grad? limit with
      | none =>
          refine (ih ordered sound (by omega) lowers).mono fun b t _ ⟨done, above, each⟩ =>
            ⟨done, fun id more => above id (by omega), fun j => ?_⟩
          have same : b.value M t limit = 0 := by
            rw [value, above limit (Nat.le_refl limit), known]
          rw [sum_range_succ, each, same, zero_mul, add_zero, Adjoints.pending, Adjoints.pending,
            sum_range_succ]
          simp [value, known]
      | some adjoint =>
          have given := Trace.denotes_interpret (M := M) (sound.defined limit adjoint known)
          refine .get ?_
          simp only [found]
          refine (meets_propagate ordered plain sound within found
            (lowers limit _ within found) given).bind fun b t grows gains => ?_
          have kept (id : Nat) (inside : id < bound) : t.nodes[id]? = s.nodes[id]? :=
            grows.nodes id (Nat.lt_of_lt_of_le inside sound.nodes)
          refine (ih (grows.ordered ordered) gains.sound (by omega) fun id node inside there =>
            lowers id node inside (kept id inside ▸ there)).mono fun c u more ⟨done, above, each⟩ =>
              ⟨done, fun id beyond => ?_, fun j => ?_⟩
          · rw [above id (by omega), gains.above id (by omega)]
          have last : c.value M u limit = s.interpret M adjoint := by
            rw [value, above limit (Nat.le_refl limit), gains.above limit (Nat.le_refl limit), known]
            exact (grows.trans more).interpret given.1
          have earlier : ∑ id ∈ range limit, c.value M u id * (s.nodes[id]?.elim 0 (·.reads M j)) =
              b.pending M t j limit := by
            rw [← each j]
            refine sum_congr rfl fun id member => ?_
            have before := mem_range.mp member
            rw [kept id (by omega)]
          have mine : a.value M s limit = s.interpret M adjoint := by
            rw [value, known]
          rw [sum_range_succ, earlier, last, gains.pending, found, Option.elim_some, Adjoints.pending,
            Adjoints.pending, sum_range_succ, mine]
          ring

end Gradient

end AutoDiff
