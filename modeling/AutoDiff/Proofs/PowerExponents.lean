import AutoDiff.Proofs.DerivativeTraces

/-!
The exponents of derivatives. A power that is appended comes from one that is there, and its exponent is one less in
32-bit arithmetic, where the least exponent follows the greatest.
-/

namespace AutoDiff

/-- The exponent before another one, as a word. -/
def wordBefore (n : Int) : Int := if n = Int32.minValue.toInt then Int32.maxValue.toInt else n - 1

theorem Int32.toInt_sub_one_eq (n : Int32) : (n - 1).toInt = wordBefore n.toInt := by
  unfold wordBefore
  split
  · next least =>
      obtain rfl := Int32.toInt_inj.mp least
      rfl
  · next other =>
      have lowest := n.minValue_le_toInt
      exact Int32.toInt_sub_one (by omega)

open AutoDiff.Gradient AutoDiff.Differential

variable {α : Type}

namespace Gradient

def Lowered (s : Trace α) (node : Node α) : Prop :=
  node.IsPlain ∨ ∃ (id base : Nat) (exponent : Int32),
    s.nodes[id]? = some (.power base exponent) ∧ node = .power base (exponent - 1)

variable [Arithmetic α] {s r : Trace α}

/-- A gradient in a longer trace visits no nodes after its output. There is no condition on exponents: all of them have
a word before them. -/
theorem meets_lowered (more : Trace.Extends s r) (ordered : r.Ordered) (few : r.inputCount < listLimit) {output : Nat}
    (inside : output < s.size) :
    Build.Meets (Lowered s) (gradient output) r fun ids u => ∀ id : Nat, id ∈ ids → id < u.size := by
  let _ : Differential α PUnit := .unit α .words
  have lowers (id : Nat) (node : Node α) (visited : id < output + 1) (found : r.nodes[id]? = some node) :
      Lowers (exponents α PUnit).least (Lowered s) node := by
    rintro base exponent rfl
    constructor
    · have lowest := exponent.minValue_le_toInt
      change Int32.minValue.toInt - 2 < exponent.toInt
      omega
    · rw [more.nodes id (by omega)] at found
      exact .inr ⟨id, base, exponent, found, rfl⟩
  have met := meets_gathered (fun _ => .inl) few ordered lowers (Nat.lt_of_lt_of_le inside more.size_le)
  exact met.mono fun ids u _ gathered => gathered.defined

theorem meets_lowered_all (more : Trace.Extends s r) (ordered : r.Ordered) (few : r.inputCount < listLimit)
    (outputs : List Nat) (inside : ∀ output : Nat, output ∈ outputs → output < s.size) :
    Build.Meets (Lowered s) (outputs.mapM gradient) r fun _ _ => True := by
  induction outputs generalizing r with
  | nil => exact .pure trivial
  | cons output outputs ih =>
      rw [List.mapM_cons]
      apply (meets_lowered more ordered few (inside output (by simp))).bind
      intro row t grows _
      have rest := ih (more.trans grows.toExtends) (grows.ordered ordered) (grows.inputCount ▸ few)
        fun other member => inside other (by simp [member])
      exact rest.bind fun rows u _ _ => .pure trivial

end Gradient

namespace Trace

/-- The powers that `u` has beyond those of `s` come from powers of `s` with the same base, and `before` gives their
exponents. -/
def PowersFollow (before : Int → Int) (s u : Trace α) : Prop :=
  ∀ (id base : Nat) (exponent : Int32), s.size ≤ id → u.nodes[id]? = some (.power base exponent : Node α) →
    ∃ (source : Nat) (n : Int32), s.nodes[source]? = some (.power base n : Node α) ∧ exponent.toInt = before n.toInt

theorem Grows.powersFollow {s u : Trace α} (grows : s.Grows (Lowered s) u) : s.PowersFollow wordBefore u := by
  intro id base exponent new found
  rcases grows.added id _ new found with plain | ⟨source, _, n, there, same⟩
  · exact plain.elim
  · cases same
    exact ⟨source, n, there, Int32.toInt_sub_one_eq n⟩

theorem Grows.of_weighting [Arithmetic α] {s one : Trace α} {count : Nat} (grows : s.Grows (Weighting count) one)
    {id base : Nat} {exponent : Int32} (found : one.nodes[id]? = some (.power base exponent : Node α)) :
    s.nodes[id]? = some (.power base exponent : Node α) := by
  rcases Nat.lt_or_ge id s.size with less | new
  · rwa [grows.nodes id less] at found
  · rcases grows.added id _ new found with plain | ⟨_, _, same⟩
    · exact plain.elim
    · cases same

theorem PowersFollow.of_weighting [Arithmetic α] {before : Int → Int} {s one u : Trace α} {count : Nat}
    (grows : s.Grows (Weighting count) one) (more : Extends one u) (follow : one.PowersFollow before u) :
    s.PowersFollow before u := by
  intro id base exponent new found
  rcases Nat.lt_or_ge id one.size with less | later
  · rw [more.nodes id less] at found
    exact absurd (lt_size (grows.of_weighting found)) (Nat.not_lt.mpr new)
  · obtain ⟨source, n, there, same⟩ := follow id base exponent later found
    exact ⟨source, n, grows.of_weighting there, same⟩

variable [Arithmetic α]

/-- Both rounds of second derivatives: the gradient of the weighted sum, and the gradients of its nodes. -/
def HessianRounds (t two u : Trace α) : Prop :=
  ∃ sum one first rows last, weightedSum t.outputs { t with weightCount := t.outputs.length } = some (sum, one) ∧
    gradient sum one = some (first, two) ∧ first.mapM gradient two = some (rows, last) ∧
    u = { last with outputs := rows.flatten }

/-- Derivatives are made whatever the exponents are, as long as one list can hold them. Their powers
follow those that are differentiated. -/
structure DerivesPowers (t : Trace α) : Prop where
  gradientMade : ∀ output : Nat, output < t.size →
    ((∃ ids u, gradient output t = some (ids, u)) ↔ t.inputCount < listLimit)
  gradientFollows : ∀ (output : Nat) (ids : List Nat) (u : Trace α), gradient output t = some (ids, u) →
    t.PowersFollow wordBefore u
  jacobianMade : (∃ u, t.jacobian = some u) ↔ t.outputs.length * t.inputCount < listLimit
  jacobianFollows : ∀ u, t.jacobian = some u → t.PowersFollow wordBefore u
  hessianMade : (∃ u, t.hessian = some u) ↔ t.inputCount * t.inputCount < listLimit
  hessianFollows : ∀ u, t.hessian = some u →
    ∃ two, t.HessianRounds two u ∧ t.PowersFollow wordBefore two ∧ two.PowersFollow wordBefore u

theorem lt_size_of_gradient {output : Nat} {ids : List Nat} {s u : Trace α} (run : gradient output s = some (ids, u)) :
    output < s.size := by
  unfold gradient at run
  rw [Build.get_bind, Build.guard_bind_eq_some_iff] at run
  exact run.1

section

variable {t : Trace α} (ordered : t.Ordered)
include ordered

theorem exists_gradient_lowered (few : t.inputCount < listLimit) {output : Nat} (inside : output < t.size) :
    ∃ ids u, gradient output t = some (ids, u) ∧ t.PowersFollow wordBefore u := by
  obtain ⟨ids, u, run, grows, _⟩ := meets_lowered (.refl t) ordered few inside
  exact ⟨ids, u, run, grows.powersFollow⟩

variable (defined : ∀ output : Nat, output ∈ t.outputs → output < t.size)
include defined

theorem exists_jacobian_lowered (room : t.outputs.length * t.inputCount < listLimit) :
    ∃ u, t.jacobian = some u ∧ t.PowersFollow wordBefore u := by
  by_cases empty : t.outputs = []
  · refine ⟨_, jacobian_nil empty, ?_⟩
    intro id base exponent new found
    exact absurd (lt_size found) (Nat.not_lt.mpr new)
  · obtain ⟨rows, u, run, grows, _⟩ := meets_lowered_all (.refl t) ordered (lt_listLimit_of_rows room empty) t.outputs
      defined
    exact ⟨{ u with outputs := rows.flatten }, jacobian_eq_some_iff.mpr ⟨room, rows, u, run, rfl⟩, grows.powersFollow⟩

theorem exists_hessian_lowered (room : t.inputCount * t.inputCount < listLimit) :
    ∃ two u, t.hessian = some u ∧ t.HessianRounds two u ∧
      t.PowersFollow wordBefore two ∧ two.PowersFollow wordBefore u := by
  obtain ⟨sum, one, summed, added, isSum⟩ := meets_weightedSum (M := PUnit)
    (s := { t with weightCount := t.outputs.length }) ordered t.outputs defined
  have after := added.ordered ordered
  have fewStill : one.inputCount < listLimit := added.inputCount ▸ lt_listLimit_of_square room
  obtain ⟨first, two, once, grown, inside⟩ := meets_lowered (.refl one) after fewStill isSum.1
  obtain ⟨rows, last, twice, grows, _⟩ := meets_lowered_all (.refl two) (grown.ordered after)
    (grown.inputCount ▸ fewStill) first inside
  refine ⟨two, { last with outputs := rows.flatten }, ?_, ?_, ?_, grows.powersFollow⟩
  · exact hessian_eq_some_iff.mpr ⟨room, sum, one, first, two, rows, last, summed, once, twice, rfl⟩
  · exact ⟨sum, one, first, rows, last, summed, once, twice, rfl⟩
  · have follows := PowersFollow.of_weighting added grown.toExtends grown.powersFollow
    exact follows

end

/-- Every exponent in a derivative is the word before that of the power it comes from. -/
theorem derives_powers {t : Trace α} (verified : t.verify = .ok ()) : t.DerivesPowers := by
  have wellFormed := t.verify_eq_ok_iff.mp verified
  have ordered := wellFormed.ordered
  refine ⟨?_, ?_, ?_, ?_, ?_, ?_⟩
  · intro output inside
    constructor
    · rintro ⟨ids, u, run⟩
      exact lt_listLimit_of_gradient run
    · intro few
      obtain ⟨ids, u, run, _⟩ := exists_gradient_lowered ordered few inside
      exact ⟨ids, u, run⟩
  · intro output ids u run
    obtain ⟨_, _, same, follows⟩ :=
      exists_gradient_lowered ordered (lt_listLimit_of_gradient run) (lt_size_of_gradient run)
    cases run.symm.trans same
    exact follows
  · constructor
    · rintro ⟨u, made⟩
      exact (jacobian_eq_some_iff.mp made).1
    · intro room
      obtain ⟨u, made, _⟩ := exists_jacobian_lowered ordered wellFormed.outputs room
      exact ⟨u, made⟩
  · intro u made
    obtain ⟨_, same, follows⟩ :=
      exists_jacobian_lowered ordered wellFormed.outputs (jacobian_eq_some_iff.mp made).1
    cases made.symm.trans same
    exact follows
  · constructor
    · rintro ⟨u, made⟩
      exact (hessian_eq_some_iff.mp made).1
    · intro room
      obtain ⟨two, u, made, _⟩ := exists_hessian_lowered ordered wellFormed.outputs room
      exact ⟨u, made⟩
  · intro u made
    obtain ⟨two, _, same, rounds, first, second⟩ :=
      exists_hessian_lowered ordered wellFormed.outputs (hessian_eq_some_iff.mp made).1
    cases made.symm.trans same
    exact ⟨two, rounds, first, second⟩

def leastPower : Trace Binary64 where
  nodes := #[.input 0, .power 0 (-2147483648)]
  inputCount := 1
  weightCount := 0
  outputs := [1]

theorem derives_powers_leastPower : leastPower.verify = .ok () ∧ leastPower.DerivesPowers := by
  have verified : leastPower.verify = .ok () := by decide +kernel
  exact ⟨verified, derives_powers verified⟩

/-- The derivative of the least power is not a multiple of the power before it, but of the greatest one. -/
theorem leastPower_wraps : leastPower.verify = .ok () ∧ ∃ ids u, gradient 1 leastPower = some (ids, u) ∧
    u.nodes[3]? = some (.power 0 2147483647) ∧ ¬leastPower.PowersFollow (· - 1) u := by
  have appended : (gradient 1 leastPower).map (fun made => made.2.nodes[3]?) =
      some (some (.power 0 2147483647)) := by decide +kernel
  obtain ⟨⟨ids, u⟩, run, found⟩ := Option.map_eq_some_iff.mp appended
  refine ⟨by decide +kernel, ids, u, run, found, ?_⟩
  intro follows
  obtain ⟨_, n, _, before⟩ := follows 3 0 2147483647 (by decide) found
  have next : 2147483647 = n.toInt - 1 := before
  have below := n.toInt_lt
  omega

end Trace

end AutoDiff
