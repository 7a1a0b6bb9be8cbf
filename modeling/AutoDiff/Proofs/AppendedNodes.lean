import AutoDiff.Proofs.DerivativeTraces
import AutoDiff.Proofs.Regions

namespace AutoDiff

namespace Build

variable {α β γ : Type} {m n : Nat}

def Appends (most : Nat) (action : Build α β) : Prop :=
  ∀ (s : Trace α) (result : β) (t : Trace α), action s = some (result, t) → t.size ≤ s.size + most

theorem Appends.pure (result : β) : Appends 0 (Pure.pure result : Build α β) := by
  intro s other t run
  cases run
  exact Nat.le_refl _

theorem Appends.bind {action : Build α β} {next : β → Build α γ} (first : Appends m action)
    (second : ∀ result, Appends n (next result)) : Appends (m + n) (action >>= next) := by
  intro s result t run
  obtain ⟨middle, u, one, two⟩ := bind_eq_some_iff.mp run
  have before := first s middle u one
  have after := second middle u result t two
  omega

theorem Appends.mono {action : Build α β} (appends : Appends m action) (less : m ≤ n) : Appends n action := by
  intro s result t run
  exact Nat.le_trans (appends s result t run) (Nat.add_le_add_left less _)

theorem Appends.get {next : Trace α → Build α β} (appends : ∀ t, Appends n (next t)) :
    Appends n (MonadState.get >>= next) := by
  intro s result t run
  exact appends s s result t run

theorem Stays.appends {action : Build α NodeId} (stays : Stays (fun _ => True) (fun _ => True) n action) :
    Appends n action := by
  intro s id t run
  exact (stays s id t s.region_everything run).2.2

end Build

open Build AutoDiff.Gradient

variable {α : Type} [Arithmetic α]

namespace Adjoints

theorem appends_accumulate (a : Adjoints) (target contribution : NodeId) :
    Appends 1 (a.accumulate target contribution : Build α Adjoints) := by
  apply Appends.get
  intro t
  split
  · exact (Appends.pure a).mono (Nat.zero_le 1)
  · cases a.grad? target with
    | none => exact (Appends.pure _).mono (Nat.zero_le 1)
    | some existing => exact (stays_binary .add trivial trivial).appends.bind fun sum => .pure _

theorem appends_pass (a : Adjoints) (target : NodeId) {contribution : Build α NodeId} {n : Nat}
    (stays : Stays (fun _ => True) (fun _ => True) n contribution) :
    Appends (n + 1) (if a.isActive target then contribution >>= a.accumulate target else pure a) := by
  split
  · exact stays.appends.bind (a.appends_accumulate target)
  · exact (Appends.pure a).mono (Nat.zero_le _)

end Adjoints

namespace Gradient

open Adjoints

/-- A visited node appends at most ten nodes; a power with a variable base and exponent may append all ten. -/
theorem appends_propagate (a : Adjoints) (id : NodeId) (node : Node α) (adjoint : NodeId) :
    Appends 10 (propagate a id node adjoint) := by
  cases node with
  | input | weight | const => exact (Appends.pure a).mono (Nat.zero_le 10)
  | unary op arg => exact (a.appends_pass arg (stays_unaryContribution op trivial trivial trivial)).mono (by decide)
  | power base exponent =>
      exact (a.appends_pass base (stays_powerContribution exponent trivial trivial)).mono (by decide)
  | binary op lhs rhs =>
      rw [propagate_binary]
      apply (a.appends_pass lhs (stays_leftContribution op trivial trivial trivial)).bind (n := 4)
      intro b
      exact b.appends_pass rhs (stays_rightContribution op trivial trivial trivial trivial)

theorem appends_sweep (limit : Nat) (a : Adjoints) : Appends (10 * limit) (sweep limit a : Build α Adjoints) := by
  induction limit generalizing a with
  | zero => exact Appends.pure a
  | succ limit ih =>
      unfold sweep
      cases a.grad? limit with
      | none => exact (ih a).mono (by omega)
      | some adjoint =>
          apply Appends.get
          intro t
          cases t.nodes[limit]? with
          | none =>
              intro s result u run
              cases run
          | some node =>
              apply ((appends_propagate a limit node adjoint).bind ih).mono
              omega

end Gradient

/-- The start of a sweep for an output: no adjoint is known but that of the output itself, which is one. -/
structure Adjoints.Seeded (a : Adjoints) (output : NodeId) (s t : Trace α) : Prop where
  size : a.grads.size = output + 1
  grows : t = s ∨ t = s.push (.const (Arithmetic.ofInt 1))
  known : ∀ id grad : Nat, a.grad? id = some grad → id = output ∧ t.nodes[grad]? = some (.const (Arithmetic.ofInt 1))

namespace Gradient

def Collected (output : NodeId) (s : Trace α) (ids : List NodeId) (u : Trace α) : Prop :=
  ∃ a r b t, Adjoints.Seeded a output s r ∧ sweep (output + 1) a r = some (b, t) ∧
    u = t.push (.const (Arithmetic.ofInt 0)) ∧
    ids = collect b (s.nodes.toList.take (output + 1)) s.inputCount t.size

theorem collected_of_seeded {output : NodeId} {s r u : Trace α} {ids : List NodeId} {a : Adjoints}
    (seeded : a.Seeded output s r) (run : (do
        let a ← sweep (output + 1) a
        guard (s.inputCount < listLimit)
        let zeroNode ← Build.constant (Arithmetic.ofInt 0)
        return collect a (s.nodes.toList.take (output + 1)) s.inputCount zeroNode) r = some (ids, u)) :
    Collected output s ids u := by
  obtain ⟨b, t, swept, rest⟩ := bind_eq_some_iff.mp run
  obtain ⟨_, rest⟩ := guard_bind_eq_some_iff.mp rest
  cases rest
  exact ⟨a, r, b, t, seeded, swept, rfl, rfl⟩

theorem collected_of_gradient {output : NodeId} {s u : Trace α} {ids : List NodeId}
    (run : gradient output s = some (ids, u)) : Collected output s ids u := by
  unfold gradient at run
  rw [get_bind, guard_bind_eq_some_iff, lift_bind_eq_some_iff] at run
  obtain ⟨_, active, _, run⟩ := run
  obtain ⟨blank, isBlank⟩ : ∃ blank : Adjoints, blank = ⟨active, Array.replicate (output + 1) none⟩ := ⟨_, rfl⟩
  have size : blank.grads.size = output + 1 := by
    simp [isBlank]
  have unknown (id : Nat) : blank.grad? id = none := by
    rw [isBlank, Adjoints.grad?_replicate]
  rw [← isBlank] at run
  by_cases active : blank.isActive output = true
  · rw [if_pos active] at run
    obtain ⟨one, r, pushed, rest⟩ := bind_eq_some_iff.mp run
    cases pushed
    apply collected_of_seeded ⟨by simpa [Adjoints.set] using size, .inr rfl, ?_⟩ rest
    intro id grad found
    rcases Adjoints.of_grad?_set found with ⟨rfl, rfl⟩ | old
    · exact ⟨rfl, s.push_nodes_size _⟩
    · simp [unknown] at old
  · rw [if_neg active] at run
    apply collected_of_seeded ⟨size, .inl rfl, ?_⟩ run
    intro id grad found
    simp [unknown] at found

theorem appends_gradient (output : NodeId) : Appends (10 * (output + 1) + 2) (gradient output : Build α (List NodeId)) := by
  intro s ids u run
  obtain ⟨a, r, b, t, seeded, swept, rfl, _⟩ := collected_of_gradient run
  have sweeps := appends_sweep (output + 1) a r b t swept
  have started : r.size ≤ s.size + 1 := by
    rcases seeded.grows with rfl | rfl
    · exact Nat.le_succ _
    · simp [Trace.size, Trace.push]
  calc
    (t.push (.const (Arithmetic.ofInt 0))).size = t.size + 1 := by simp [Trace.size, Trace.push]
    _ ≤ r.size + 10 * (output + 1) + 1 := by omega
    _ ≤ s.size + (10 * (output + 1) + 2) := by omega

end Gradient

namespace Trace

/-- A gradient leaves all that was there as it is, and appends few nodes, none of which reads an input or a weight. Its
own nodes may be outputs of the trace that comes out of it. -/
structure GainsGradient (t : Trace α) (output : NodeId) (ids : List NodeId) (u : Trace α) : Prop where
  kept : t.Extends u
  verified : u.verify = .ok ()
  verifiedWith : ({ u with outputs := u.outputs ++ ids } : Trace α).verify = .ok ()
  leaves : ∀ (id index : Nat), t.size ≤ id →
    u.nodes[id]? ≠ some (.input index : Node α) ∧ u.nodes[id]? ≠ some (.weight index : Node α)
  length : ids.length = t.inputCount
  defined : ∀ id : Nat, id ∈ ids → id < u.size
  size_le : u.size ≤ t.size + (10 * (output + 1) + 2)

/-- A gradient is made unless the list of its nodes is too long, and it only appends to the trace. -/
theorem gradient_appends {t : Trace α} (verified : t.verify = .ok ())
    (exponents : ∀ (id base : Nat) (exponent : Int32), t.nodes[id]? = some (.power base exponent : Node α) →
      Int32.minValue < exponent) {output : NodeId} (inside : output < t.size) :
    ((∃ ids u, gradient output t = some (ids, u)) ↔ t.inputCount < listLimit) ∧
      ∀ ids u, gradient output t = some (ids, u) → t.GainsGradient output ids u := by
  have wellFormed := t.verify_eq_ok_iff.mp verified
  have powers : t.PowersFrom (Int32.minValue.toInt + 1) t.size := by
    intro id base exponent _ found
    exact Int32.lt_iff_toInt_lt.mp (exponents id base exponent found)
  have above : (Differential.exponents α PUnit).least < Int32.minValue.toInt + 1 := Int.lt_succ Int32.minValue.toInt
  have made (few : t.inputCount < listLimit) :=
    meets_gradient (M := PUnit) above few (Nat.le_refl _) powers wellFormed.toConsistent inside
  constructor
  · constructor
    · rintro ⟨ids, u, run⟩
      exact lt_listLimit_of_gradient run
    · intro few
      obtain ⟨ids, u, run, _⟩ := made few
      exact ⟨ids, u, run⟩
  · intro ids u run
    obtain ⟨_, _, same, grows, denotes⟩ := made (lt_listLimit_of_gradient run)
    cases run.symm.trans same
    have consistent := grows.derived_consistent wellFormed.toConsistent
    have defined := (denotes_outputs denotes).1
    have old : ∀ id : Nat, id ∈ u.outputs → id < u.size := by
      intro id member
      rw [grows.outputs] at member
      exact Nat.lt_of_lt_of_le (wellFormed.outputs id member) grows.size_le
    refine {
      kept := grows.toExtends
      verified := u.verify_eq_ok_iff.mpr ⟨consistent, old⟩
      verifiedWith := ?_
      leaves := ?_
      length := by simpa using denotes.length_eq
      defined := defined
      size_le := Gradient.appends_gradient output t ids u run }
    · rw [verify_eq_ok_iff]
      apply consistent.wellFormed
      intro id member
      rcases List.mem_append.mp member with before | new
      · exact old id before
      · exact defined id new
    · intro id index new
      constructor
      · intro found
        simpa [Gradient.Derived, Node.IsPlain] using grows.added id _ new found
      · intro found
        simpa [Gradient.Derived, Node.IsPlain] using grows.added id _ new found

def weightedPower : Trace Binary64 where
  nodes := #[.input 0, .input 1, .weight 0, .binary .pow 0 1, .power 0 (-2147483647), .binary .mul 2 3, .binary .mul 4 5,
    .unary .sin 1]
  inputCount := 2
  weightCount := 1
  outputs := [7]

theorem gradient_appends_weightedPower : weightedPower.verify = .ok () ∧
    ∃ ids u, gradient 6 weightedPower = some (ids, u) ∧ weightedPower.GainsGradient 6 ids u ∧ ids.length = 2 ∧
      u.size ≤ 8 + 72 := by
  have verified : weightedPower.verify = .ok () := by decide +kernel
  have inside : 6 < weightedPower.size := by decide
  obtain ⟨made, gains⟩ := gradient_appends verified (exponents_of_all (by decide +kernel)) inside
  obtain ⟨ids, u, run⟩ := made.mpr (by decide)
  have gained := gains ids u run
  exact ⟨verified, ids, u, run, gained, gained.length, gained.size_le⟩

end Trace

end AutoDiff
