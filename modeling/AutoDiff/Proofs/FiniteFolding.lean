import AutoDiff.Trace.Gradient
import AutoDiff.Proofs.ExtendedArithmetic
import AutoDiff.Proofs.Building

namespace AutoDiff

theorem ite_eq_of_imp {β : Type} {p : Prop} [Decidable p] {a b c d result : β} (yes : a = result → c = result)
    (no : b = result → d = result) (same : (if p then a else b) = result) : (if p then c else d) = result := by
  split_ifs at same ⊢ with holds
  · exact yes same
  · exact no same

open ExtendedArithmetic

variable {E F : Type} [Field F] [FieldArithmetic F] [ExtendedArithmetic E F]

namespace Trace

variable {s t : Trace E}

def ConstantsFinite (t : Trace E) : Prop :=
  ∀ (id : Nat) (c : E), t.nodes[id]? = some (.const c : Node E) → isFinite c = true

theorem Extends.constantsFinite (more : Extends s t) (finite : t.ConstantsFinite) : s.ConstantsFinite :=
  fun id c found => finite id c ((more.nodes id (lt_size found)).trans found)

theorem simplifyUnary_total {op : UnaryOp} {arg : Nat} {made : Simplified E}
    (operand : ∀ c, t.const? arg = some c → isFinite c = true) (run : t.simplifyUnary op arg = some made)
    (folded : ∀ c, made = .fresh (.const c) → isFinite c = true) :
    @simplifyUnary E (total E) t op arg = some made := by
  unfold simplifyUnary at run ⊢
  cases known : t.const? arg with
  | none =>
      rw [known] at run
      exact run
  | some c =>
      rw [known] at run
      obtain rfl := Option.some.inj run
      have same := settle_of_isFinite (Arithmetic.unary op (value c)) (operand c known) (folded _ rfl)
      exact congrArg (fun c => some (Simplified.fresh (.const c))) same

theorem simplifyBinary_total {op : BinaryOp} {lhs rhs : Nat} {made : Simplified E}
    (left : ∀ c, t.const? lhs = some c → isFinite c = true)
    (right : ∀ c, t.const? rhs = some c → isFinite c = true) (run : t.simplifyBinary op lhs rhs = some made)
    (folded : ∀ c, made = .fresh (.const c) → isFinite c = true) :
    @simplifyBinary E (total E) t op lhs rhs = some made := by
  have negLeft (run : t.simplifyUnary .neg lhs = some made) := simplifyUnary_total left run folded
  have negRight (run : t.simplifyUnary .neg rhs = some made) := simplifyUnary_total right run folded
  unfold simplifyBinary at run ⊢
  split at run
  · next c d first second =>
      obtain rfl := Option.some.inj run
      have both : (isFinite c && isFinite d) = true := by rw [left c first, right d second]; rfl
      have same := settle_of_isFinite (Arithmetic.binary op (value c) (value d)) both (folded _ rfl)
      exact congrArg (fun c => some (Simplified.fresh (.const c))) same
  · cases op with
    | add | div | pow => exact run
    | sub => exact ite_eq_of_imp id (ite_eq_of_imp negRight id) run
    | mul =>
        exact ite_eq_of_imp id (ite_eq_of_imp id (ite_eq_of_imp id (ite_eq_of_imp id
          (ite_eq_of_imp negRight (ite_eq_of_imp negLeft id))))) run

theorem simplifyPower_total {base : Nat} {exponent : Int32}
    (operand : ∀ c, t.const? base = some c → isFinite c = true)
    (folded : ∀ c, t.simplifyPower base exponent = .fresh (.const c) → isFinite c = true) :
    @simplifyPower E (total E) t base exponent = t.simplifyPower base exponent := by
  unfold simplifyPower at folded ⊢
  split_ifs with zero one
  · rfl
  · rfl
  · rw [if_neg zero, if_neg one] at folded
    cases known : t.const? base with
    | none => rfl
    | some c =>
        simp only [known] at folded
        have same := settle_of_isFinite (Arithmetic.power (value c) exponent) (operand c known) (folded _ rfl)
        exact congrArg (fun c => Simplified.fresh (.const c)) same

theorem simplify_total {node : Node E} {made : Simplified E}
    (operands : ∀ operand : Nat, operand ∈ node.operands → ∀ c, t.const? operand = some c → isFinite c = true)
    (run : t.simplify node = some made) (folded : ∀ c, made = .fresh (.const c) → isFinite c = true) :
    @simplify E (total E) t node = some made := by
  cases node with
  | input | weight | const => exact run
  | unary op arg => exact simplifyUnary_total (operands arg (by simp [Node.operands])) run folded
  | binary op lhs rhs =>
      exact simplifyBinary_total (operands lhs (by simp [Node.operands])) (operands rhs (by simp [Node.operands]))
        run folded
  | power base exponent =>
      obtain rfl := Option.some.inj run
      exact congrArg some (simplifyPower_total (operands base (by simp [Node.operands])) folded)

end Trace

namespace Build

variable {β γ : Type}

/-- The first action only appends nodes, and the second one does the same as long as the constants of the
trace are finite. -/
def Follows (first second : Build E β) : Prop :=
  ∀ (s : Trace E) (result : β) (t : Trace E), first s = some (result, t) →
    Trace.Extends s t ∧ (t.ConstantsFinite → second s = some (result, t))

theorem Follows.pure (result : β) : Follows (E := E) (Pure.pure result) (Pure.pure result) := by
  intro s other t run
  cases (run : some (result, s) = some (other, t))
  exact ⟨.refl _, fun _ => rfl⟩

theorem Follows.bind {first second : Build E β} {next after : β → Build E γ} (leads : Follows first second)
    (rest : ∀ result, Follows (next result) (after result)) : Follows (first >>= next) (second >>= after) := by
  intro s result u run
  rw [bind_apply] at run
  obtain ⟨⟨middle, t⟩, start, finish⟩ := Option.bind_eq_some_iff.mp run
  obtain ⟨grows, same⟩ := leads s middle t start
  obtain ⟨more, again⟩ := rest middle t result u finish
  refine ⟨grows.trans more, fun finite => ?_⟩
  rw [bind_apply, same (more.constantsFinite finite)]
  exact again finite

theorem Follows.get : Follows (E := E) MonadState.get MonadState.get := by
  intro s other t run
  cases (run : some (s, s) = some (other, t))
  exact ⟨.refl _, fun _ => rfl⟩

theorem Follows.failure : Follows (E := E) (β := β) Alternative.failure Alternative.failure := by
  intro s other t run
  cases run

theorem Follows.lift (option : Option β) : Follows (E := E) (liftM option) (liftM option) := by
  cases option with
  | none => exact .failure
  | some result => exact .pure result

theorem Follows.guarded (p : Prop) [Decidable p] : Follows (E := E) (guard p) (guard p) := by
  unfold guard
  split
  · exact .pure ()
  · exact .failure

theorem Follows.ite {p : Prop} [Decidable p] {a b c d : Build E β} (yes : Follows a c) (no : Follows b d) :
    Follows (if p then a else b) (if p then c else d) := by
  split
  · exact yes
  · exact no

theorem Follows.push (node : Node E) : Follows (Build.push node) (Build.push node) := by
  intro s result t run
  cases run
  exact ⟨s.extends_push node, fun _ => rfl⟩

theorem Follows.insert (node : Node E) : Follows (Build.insert node) (@Build.insert E (total E) node) := by
  intro s result t run
  unfold Build.insert at run ⊢
  cases simplified : s.simplify node with
  | none => simp [simplified] at run
  | some made =>
      rw [simplified] at run
      have grows : Trace.Extends s t := by
        cases made with
        | existing id =>
            cases run
            exact .refl _
        | fresh node =>
            cases run
            exact s.extends_push node
      refine ⟨grows, fun finite => ?_⟩
      have same : @Trace.simplify E (total E) s node = some made := by
        refine Trace.simplify_total (fun operand _ c found => ?_) simplified fun c folded => ?_
        · exact grows.constantsFinite finite operand c (Trace.const?_eq_some_iff.mp found)
        · subst folded
          cases run
          exact finite s.size c (s.push_nodes_size _)
      rw [same]
      exact run

theorem Follows.foldlM {first second : γ → β → Build E γ} (each : ∀ result item,
    Follows (first result item) (second result item)) (items : List β) (start : γ) :
    Follows (items.foldlM first start) (items.foldlM second start) := by
  induction items generalizing start with
  | nil => exact .pure start
  | cons item items ih =>
      rw [List.foldlM_cons, List.foldlM_cons]
      exact (each start item).bind ih

theorem Follows.mapM {first second : β → Build E γ} (each : ∀ item, Follows (first item) (second item))
    (items : List β) : Follows (items.mapM first) (items.mapM second) := by
  induction items with
  | nil => exact .pure []
  | cons item items ih =>
      rw [List.mapM_cons, List.mapM_cons]
      exact (each item).bind fun result => ih.bind fun results => .pure (result :: results)

end Build

open Build

namespace Gradient

theorem follows_unaryContribution (op : UnaryOp) (id arg adjoint : NodeId) :
    Follows (unaryContribution op id arg adjoint) (@unaryContribution E (total E) op id arg adjoint) := by
  cases op with
  | neg | exp | ln => exact .insert _
  | sin => exact (Follows.insert _).bind fun _ => .insert _
  | cos => exact (Follows.insert _).bind fun _ => (Follows.insert _).bind fun _ => .insert _
  | sqrt => exact (Follows.push _).bind fun _ => (Follows.insert _).bind fun _ => .insert _
  | tan | tanh =>
      exact (Follows.insert _).bind fun _ => (Follows.push _).bind fun _ =>
        (Follows.insert _).bind fun _ => .insert _

theorem follows_leftContribution (op : BinaryOp) (lhs rhs adjoint : NodeId) :
    Follows (leftContribution op lhs rhs adjoint) (@leftContribution E (total E) op lhs rhs adjoint) := by
  cases op with
  | add | sub => exact .pure _
  | mul | div => exact .insert _
  | pow =>
      exact (Follows.push _).bind fun _ => (Follows.insert _).bind fun _ => (Follows.insert _).bind fun _ =>
        (Follows.insert _).bind fun _ => .insert _

theorem follows_rightContribution (op : BinaryOp) (id lhs rhs adjoint : NodeId) :
    Follows (rightContribution op id lhs rhs adjoint)
      (@rightContribution E (total E) op id lhs rhs adjoint) := by
  cases op with
  | add => exact .pure _
  | sub | mul => exact .insert _
  | div | pow => exact (Follows.insert _).bind fun _ => (Follows.insert _).bind fun _ => .insert _

theorem follows_powerContribution (base adjoint : NodeId) (exponent : Int32) :
    Follows (powerContribution base adjoint exponent) (@powerContribution E (total E) base adjoint exponent) :=
  (Follows.insert _).bind fun _ => (Follows.push _).bind fun _ => (Follows.insert _).bind fun _ => .insert _

theorem follows_accumulate (a : Adjoints) (target contribution : NodeId) :
    Follows (a.accumulate target contribution) (@Adjoints.accumulate E (total E) a target contribution) := by
  refine Follows.get.bind fun t => .ite (.pure a) ?_
  cases a.grad? target with
  | none => exact .pure _
  | some existing => exact (Follows.insert _).bind fun sum => .pure (a.set target sum)

theorem follows_propagate (a : Adjoints) (id : NodeId) (node : Node E) (adjoint : NodeId) :
    Follows (propagate a id node adjoint) (@propagate E (total E) a id node adjoint) := by
  cases node with
  | input | weight | const => exact .pure a
  | unary op arg =>
      exact .ite ((follows_unaryContribution op id arg adjoint).bind (follows_accumulate a arg)) (.pure a)
  | binary op lhs rhs =>
      have rest (b : Adjoints) := Follows.ite (p := b.isActive rhs = true)
        ((follows_rightContribution (E := E) op id lhs rhs adjoint).bind (follows_accumulate b rhs)) (.pure b)
      exact .ite ((follows_leftContribution op lhs rhs adjoint).bind fun made =>
        (follows_accumulate a lhs made).bind rest) ((Follows.pure a).bind rest)
  | power base exponent =>
      exact .ite ((follows_powerContribution base adjoint exponent).bind (follows_accumulate a base)) (.pure a)

theorem follows_sweep (limit : Nat) (a : Adjoints) : Follows (sweep limit a) (@sweep E (total E) limit a) := by
  induction limit generalizing a with
  | zero => exact .pure a
  | succ id ih =>
      unfold sweep
      cases a.grad? id with
      | none => exact ih a
      | some adjoint =>
          refine Follows.get.bind fun t => ?_
          cases t.nodes[id]? with
          | none => exact .failure
          | some node => exact (follows_propagate a id node adjoint).bind ih

end Gradient

theorem follows_gradient (output : NodeId) : Follows (gradient output) (@gradient E (total E) output) := by
  refine Follows.get.bind fun t => (Follows.guarded _).bind fun _ => (Follows.lift _).bind fun active => ?_
  have rest (a : Adjoints) := (Gradient.follows_sweep (E := E) (output + 1) a).bind fun b =>
    (Follows.guarded (t.inputCount < listLimit)).bind fun _ =>
      (Follows.push (.const (Arithmetic.ofInt 0))).bind fun zeroNode =>
        .pure (Gradient.collect b (t.nodes.toList.take (output + 1)) t.inputCount zeroNode)
  exact .ite ((Follows.push _).bind fun _ => (Follows.pure _).bind rest) ((Follows.pure _).bind rest)

theorem Trace.follows_weightedSum (outputs : List NodeId) :
    Follows (weightedSum outputs) (@weightedSum E (total E) outputs) :=
  (Follows.push _).bind fun zeroNode => .foldlM (fun _ _ => (Follows.push _).bind fun _ =>
    (Follows.insert _).bind fun _ => .insert _) _ zeroNode

/-- Traces of second derivatives whose constants are finite are those that total arithmetic makes. -/
theorem Trace.hessian_total {t u : Trace E} (made : t.hessian = some u) (finite : u.ConstantsFinite) :
    @hessian E (total E) t = some u := by
  unfold hessian at made ⊢
  obtain ⟨_, room, derived⟩ := Option.bind_eq_some_iff.mp made
  obtain ⟨⟨rows, v⟩, run, same⟩ := Option.bind_eq_some_iff.mp derived
  obtain rfl := Option.some.inj same
  have follows : Follows
      (do
        let first ← gradient (← weightedSum t.outputs)
        first.mapM gradient)
      (do
        let first ← @gradient E (total E) (← @weightedSum E (total E) t.outputs)
        first.mapM (@gradient E (total E))) :=
    (follows_weightedSum t.outputs).bind fun sum => (follows_gradient sum).bind fun first =>
      .mapM follows_gradient first
  have again := (follows _ rows v run).2 finite
  exact Option.bind_eq_some_iff.mpr ⟨(), room, Option.bind_eq_some_iff.mpr ⟨(rows, v), again, rfl⟩⟩

end AutoDiff
