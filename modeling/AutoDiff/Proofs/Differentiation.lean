import AutoDiff.Proofs.Sweep

namespace AutoDiff

open Finset AutoDiff.Differential

namespace Node

variable {α : Type}

theorem isActive?_isSome {node : Node α} {active : Array Bool}
    (defined : ∀ operand : Nat, operand ∈ node.operands → operand < active.size) :
    (node.isActive? active).isSome := by
  cases node with
  | input | weight | const => rfl
  | unary op arg =>
      have bound : arg < active.size := defined arg (by simp [operands])
      simp [isActive?, bound]
  | binary op lhs rhs =>
      have left : lhs < active.size := defined lhs (by simp [operands])
      have right : rhs < active.size := defined rhs (by simp [operands])
      simp only [isActive?, Array.getElem?_eq_getElem left, Array.getElem?_eq_getElem right,
        Option.bind_eq_bind, Option.bind_some]
      split <;> rfl
  | power base exponent =>
      have bound : base < active.size := defined base (by simp [operands])
      simp [isActive?, bound]

theorem inactive_operands {node : Node α} {active : Array Bool}
    (dead : node.isActive? active = some false) :
    (∀ index, node ≠ .input index) ∧
      ∀ operand : Nat, operand ∈ node.operands → active[operand]? = some false := by
  cases node with
  | input index => simp [isActive?] at dead
  | weight | const => simp [operands]
  | unary op arg => simpa [isActive?, operands] using dead
  | power base exponent => simpa [isActive?, operands] using dead
  | binary op lhs rhs =>
      simp only [isActive?, Option.bind_eq_bind, Option.bind_eq_some_iff] at dead
      obtain ⟨left, known, rest⟩ := dead
      cases left with
      | true => simp at rest
      | false => simpa [operands, known] using rest

end Node

namespace Gradient

section

variable {α : Type}

theorem of_getElem?_take {nodes : Array (Node α)} {count id : Nat} {node : Node α}
    (found : (nodes.toList.take count)[id]? = some node) : id < count ∧ nodes[id]? = some node := by
  rw [List.getElem?_take] at found
  split at found
  · next inside => exact ⟨inside, by simpa using found⟩
  · cases found

theorem collect_append_singleton (a : Adjoints) (nodes : List (Node α)) (last : Node α)
    (inputCount zeroNode : Nat) :
    collect a (nodes ++ [last]) inputCount zeroNode = match last, a.grad? nodes.length with
      | .input index, some grad => (collect a nodes inputCount zeroNode).set index grad
      | _, _ => collect a nodes inputCount zeroNode := by
  rw [collect, List.zipIdx_append, List.foldl_append]
  simp only [List.zipIdx_singleton, List.foldl_cons, List.foldl_nil, Nat.zero_add]
  rfl

theorem collect_spec (a : Adjoints) (nodes : List (Node α)) (inputCount zeroNode : Nat) :
    (collect a nodes inputCount zeroNode).length = inputCount ∧ ∀ j, j < inputCount →
      (∃ id grad : Nat, nodes[id]? = some (.input j) ∧ a.grad? id = some grad ∧
        (collect a nodes inputCount zeroNode)[j]? = some grad) ∨
      ((∀ id : Nat, nodes[id]? = some (.input j) → a.grad? id = none) ∧
        (collect a nodes inputCount zeroNode)[j]? = some zeroNode) := by
  induction nodes using List.reverseRecOn with
  | nil => exact ⟨by simp [collect], fun j less => .inr ⟨by simp, by simp [collect, less]⟩⟩
  | append_singleton nodes last ih =>
      obtain ⟨length, each⟩ := ih
      have old {id : Nat} {node : Node α} (found : nodes[id]? = some node) :
          (nodes ++ [last])[id]? = some node := by
        rw [List.getElem?_append_left (List.getElem?_eq_some_iff.mp found).1]
        exact found
      have place {id : Nat} {node : Node α} (found : (nodes ++ [last])[id]? = some node) :
          nodes[id]? = some node ∨ id = nodes.length ∧ node = last := by
        rcases Nat.lt_or_ge id nodes.length with less | more
        · exact .inl (by rwa [List.getElem?_append_left less] at found)
        · have bound := (List.getElem?_eq_some_iff.mp found).1
          rw [List.length_append, List.length_singleton] at bound
          obtain rfl : id = nodes.length := by omega
          exact .inr ⟨rfl, by simpa using found.symm⟩
      rw [collect_append_singleton]
      split
      · next index grad known =>
          refine ⟨by rw [List.length_set, length], fun j less => ?_⟩
          by_cases same : index = j
          · subst same
            exact .inl ⟨nodes.length, grad, by simp, known, by simp [length, less]⟩
          · rw [List.getElem?_set_ne same]
            rcases each j less with ⟨id, found, there, isGrad, result⟩ | ⟨none, result⟩
            · exact .inl ⟨id, found, old there, isGrad, result⟩
            · refine .inr ⟨fun id found => ?_, result⟩
              rcases place found with there | ⟨_, isLast⟩
              · exact none id there
              · exact absurd (Node.input.inj isLast).symm same
      · next no =>
          refine ⟨length, fun j less => ?_⟩
          rcases each j less with ⟨id, grad, there, known, result⟩ | ⟨none, result⟩
          · exact .inl ⟨id, grad, old there, known, result⟩
          · refine .inr ⟨fun id found => ?_, result⟩
            rcases place found with there | ⟨rfl, isLast⟩
            · exact none id there
            · cases known : a.grad? nodes.length with
              | none => rfl
              | some grad => exact absurd known (no j grad isLast.symm)

/-- Nodes that a gradient appends: the exponents of powers are at least `lowest`. -/
def Derived (lowest : Int) (node : Node α) : Prop :=
  node.IsPlain ∨ ∃ (base : Nat) (exponent : Int32), node = .power base exponent ∧ lowest ≤ exponent.toInt

theorem lowers_derived {least lowest : Int} (above : least < lowest) {node : Node α}
    (powers : ∀ (base : Nat) (exponent : Int32), node = .power base exponent → lowest ≤ exponent.toInt) :
    Lowers least (Derived (lowest - 1)) node := by
  intro base exponent same
  have large := powers base exponent same
  refine ⟨by omega, .inr ⟨base, exponent - 1, rfl, ?_⟩⟩
  have lower := Int32.le_toInt_sub_one exponent
  omega

end

variable {α M : Type} [Arithmetic α] [CommRing M] [Differential α M] {s : Trace α}

theorem deriv_interpret_eq_zero {node : Node α} {f : NodeId → M} {j : Nat}
    (noInput : ∀ index, node ≠ .input index)
    (constant : ∀ operand : Nat, operand ∈ node.operands → deriv α j (f operand) = 0) :
    deriv α j (node.interpret M f) = 0 := by
  cases node with
  | input index => exact absurd rfl (noInput index)
  | weight index => exact deriv_weight j index
  | const c => exact deriv_const j c
  | unary op arg =>
      rw [Node.interpret, deriv_unary, constant arg (by simp [Node.operands]), mul_zero]
  | binary op lhs rhs =>
      rw [Node.interpret, deriv_binary, constant lhs (by simp [Node.operands]),
        constant rhs (by simp [Node.operands]), mul_zero, mul_zero, add_zero]
  | power base exponent =>
      rw [Node.interpret, deriv_power, constant base (by simp [Node.operands]), mul_zero]

theorem exists_activity (ordered : s.Ordered) (count : Nat) :
    ∃ active, activity (s.nodes.toList.take count) = some active ∧
      ∀ id j : Nat, id < count → id < s.size → active[id]?.getD false = false →
        deriv α j (s.interpret M id) = 0 := by
  obtain ⟨active, run, size, each⟩ := exists_foldlM_push (fun active node => node.isActive? active)
    (s.nodes.toList.take count) fun done node found =>
      Node.isActive?_isSome fun operand member => ordered _ node (of_getElem?_take found).2 operand member
  refine ⟨active, run, fun id j less inside dead => ?_⟩
  induction id using Nat.strongRecOn with
  | ind id ih =>
      have found : s.nodes[id]? = some s.nodes[id] := Array.getElem?_eq_getElem inside
      have taken : (s.nodes.toList.take count)[id]? = some s.nodes[id] := by
        rw [List.getElem?_take, if_pos less]
        simpa using found
      have bound : id < active.size := size ▸ (List.getElem?_eq_some_iff.mp taken).1
      have isDead : active[id]? = some false := by
        simpa [Array.getElem?_eq_getElem bound] using dead
      obtain ⟨noInput, operands⟩ := Node.inactive_operands ((each id _ taken).symm.trans isDead)
      rw [Trace.interpret_eq ordered found]
      refine deriv_interpret_eq_zero noInput fun operand member => ?_
      have early := ordered id _ found operand member
      have known := operands operand member
      rw [Array.getElem?_extract, if_pos (by omega), Nat.zero_add] at known
      exact ih operand early (by omega) (Nat.lt_trans early inside) (by rw [known]; rfl)

theorem denotes_collect {a : Adjoints} {t : Trace α} (consistent : s.Consistent) {bound : Nat}
    (sound : a.Sound M t bound) {zeroNode : Nat} (zero : t.Denotes zeroNode (0 : M)) {j id : Nat}
    (less : j < s.inputCount)
    (found : (collect a (s.nodes.toList.take bound) s.inputCount zeroNode)[j]? = some id) :
    t.Denotes id (∑ id ∈ range bound, a.value M t id * (s.nodes[id]?.elim 0 (·.reads M j))) := by
  have other (node : Node α) (no : node ≠ .input j) : node.reads M j = 0 := by
    cases node with
    | input i => exact if_neg fun same => no (congrArg _ same)
    | weight | const | unary | binary | power => rfl
  rcases (collect_spec a (s.nodes.toList.take bound) s.inputCount zeroNode).2 j less with
    ⟨place, grad, reads, known, result⟩ | ⟨none, result⟩
  · obtain rfl : id = grad := Option.some.inj (found.symm.trans result)
    obtain ⟨inside, here⟩ := of_getElem?_take reads
    refine ⟨sound.defined place id known, ?_⟩
    rw [sum_eq_single place, Adjoints.value, known, here]
    · simp [Node.reads]
    · intro away _ different
      cases there : s.nodes[away]? with
      | none => simp
      | some node =>
          rw [Option.elim_some, other node, mul_zero]
          rintro rfl
          exact different (consistent.distinct away place j there here)
    · exact fun outside => absurd (mem_range.mpr inside) outside
  · obtain rfl : id = zeroNode := Option.some.inj (found.symm.trans result)
    rw [sum_eq_zero]
    · exact zero
    · intro place member
      cases there : s.nodes[place]? with
      | none => simp
      | some node =>
          rw [Option.elim_some]
          by_cases same : node = .input j
          · subst same
            rw [Adjoints.value, none place]
            · exact zero_mul _
            · rw [List.getElem?_take, if_pos (mem_range.mp member)]
              simpa using there
          · rw [other node same, mul_zero]

end Gradient

def Node.exponent? {α : Type} : Node α → Option Int32
  | power _ exponent => some exponent
  | input _ | weight _ | const _ | unary _ _ | binary _ _ _ => none

namespace Trace

variable {α : Type}

/-- The exponents of the powers among the first `count` nodes are at least `lowest`. -/
def PowersFrom (lowest : Int) (t : Trace α) (count : Nat) : Prop :=
  ∀ (id base : Nat) (exponent : Int32), id < count → t.nodes[id]? = some (.power base exponent : Node α) →
    lowest ≤ exponent.toInt

theorem exponents_of_all {t : Trace α} {Q : Int32 → Prop} [DecidablePred Q]
    (all : (t.nodes.toList.all fun node => node.exponent?.all fun exponent => decide (Q exponent)) = true)
    (id base : Nat) (exponent : Int32) (found : t.nodes[id]? = some (.power base exponent : Node α)) : Q exponent := by
  have member := Array.mem_toList_iff.mpr (Array.mem_of_getElem? found)
  simpa [Node.exponent?] using List.all_eq_true.mp all _ member

theorem Grows.powersFrom {lowest : Int} {s t : Trace α} (grows : Grows (Gradient.Derived lowest) s t)
    (powers : s.PowersFrom lowest s.size) (count : Nat) : t.PowersFrom lowest count := by
  intro id base exponent _ found
  rcases Nat.lt_or_ge id s.size with less | more
  · exact powers id base exponent less (grows.nodes id less ▸ found)
  · rcases grows.added id _ more found with plain | ⟨_, _, same, large⟩
    · exact plain.elim
    · cases same
      exact large

theorem PowersFrom.extend {lowest : Int} {s t : Trace α} {count : Nat} (powers : s.PowersFrom lowest count)
    (more : Extends s t) (within : count ≤ s.size) : t.PowersFrom lowest count :=
  fun id base exponent less found => powers id base exponent less
    (more.nodes id (Nat.lt_of_lt_of_le less within) ▸ found)

theorem Grows.derived_consistent {lowest : Int} {s t : Trace α}
    (grows : Grows (Gradient.Derived lowest) s t) (consistent : s.Consistent) : t.Consistent := by
  refine grows.consistent consistent (fun index => ?_) fun index => ?_
  · simp [Gradient.Derived, Node.IsPlain]
  · simp [Gradient.Derived, Node.IsPlain]

end Trace

namespace Gradient

variable {α M : Type} [Arithmetic α] [CommRing M] [Differential α M] {s u : Trace α} {output : Nat} {ids : List Nat}

/-- The nodes of a gradient are collected from the adjoints after a sweep. Those of the nodes that read an input add up
to the derivative of the output. -/
def Gathered (M : Type) [CommRing M] [Differential α M] (s : Trace α) (output : Nat) (ids : List Nat) (u : Trace α) :
    Prop :=
  ∃ (a : Adjoints) (zeroNode : Nat), a.Sound M u (output + 1) ∧ u.Denotes zeroNode (0 : M) ∧
    ids = collect a (s.nodes.toList.take (output + 1)) s.inputCount zeroNode ∧
    ∀ j, ∑ id ∈ range (output + 1), a.value M u id * (s.nodes[id]?.elim 0 (·.reads M j)) =
      deriv α j (s.interpret M output)

theorem Gathered.denotes (gathered : Gathered M s output ids u) (consistent : s.Consistent) :
    List.Forall₂ u.Denotes ids ((List.range s.inputCount).map fun j => deriv α j (s.interpret M output)) := by
  obtain ⟨a, zeroNode, sound, zero, rfl, total⟩ := gathered
  apply List.forall₂_iff_get.mpr
  refine ⟨by simp [collect_spec], fun j inside _ => ?_⟩
  have less : j < s.inputCount := (collect_spec a _ s.inputCount zeroNode).1 ▸ inside
  have denotes := denotes_collect consistent sound zero less (List.getElem?_eq_getElem inside)
  rw [total j] at denotes
  simpa using denotes

theorem Gathered.defined (gathered : Gathered M s output ids u) : ∀ id : Nat, id ∈ ids → id < u.size := by
  obtain ⟨a, zeroNode, sound, zero, rfl, _⟩ := gathered
  intro id member
  obtain ⟨length, each⟩ := collect_spec a (s.nodes.toList.take (output + 1)) s.inputCount zeroNode
  obtain ⟨j, found⟩ := List.mem_iff_getElem?.mp member
  have less : j < s.inputCount := length ▸ (List.getElem?_eq_some_iff.mp found).1
  rcases each j less with ⟨place, grad, _, known, result⟩ | ⟨_, result⟩
  · obtain rfl := Option.some.inj (found.symm.trans result)
    exact sound.defined place id known
  · obtain rfl := Option.some.inj (found.symm.trans result)
    exact zero.1

end Gradient

section

open AutoDiff.Gradient

variable {α M : Type} [Arithmetic α] [CommRing M] [Differential α M] {s : Trace α}

section

variable {P : Node α → Prop} {output : Nat} (plain : ∀ node : Node α, node.IsPlain → P node)
  (few : s.inputCount < listLimit) (ordered : s.Ordered)
  (lowers : ∀ (id : Nat) (node : Node α), id < output + 1 → s.nodes[id]? = some node →
    Lowers (exponents α M).least P node)
include plain few ordered lowers

theorem meets_sweep_collect {t : Trace α} {a : Adjoints} (grows : s.Grows P t) (inside : output < s.size)
    (sound : a.Sound M t (output + 1))
    (known : ∀ j, a.pending M t j (output + 1) = deriv α j (s.interpret M output)) :
    Build.Meets P (do
        let a ← sweep (output + 1) a
        guard (s.inputCount < listLimit)
        let zeroNode ← Build.constant (Arithmetic.ofInt 0)
        return collect a (s.nodes.toList.take (output + 1)) s.inputCount zeroNode) t (Gathered M s output) := by
  have kept (id : Nat) (less : id < output + 1) : t.nodes[id]? = s.nodes[id]? :=
    grows.nodes id (by omega)
  refine (meets_sweep plain (output + 1) (grows.ordered ordered) sound (Nat.le_refl _) fun id node less found =>
    lowers id node less (kept id less ▸ found)).bind fun b u more ⟨done, _, each⟩ => ?_
  refine .guarded few ?_
  have after := more.ordered (grows.ordered ordered)
  refine (Build.meets_constant (M := M) after plain 0).bind fun zeroNode v last zero => ?_
  rw [Int.cast_zero] at zero
  refine .pure ⟨b, zeroNode, done.extend last.toExtends, zero, rfl, fun j => ?_⟩
  rw [← known j, ← each j]
  refine sum_congr rfl fun id member => ?_
  rw [Adjoints.value_extend done last.toExtends, kept id (mem_range.mp member)]

theorem meets_gathered (inside : output < s.size) : Build.Meets P (gradient output) s (Gathered M s output) := by
  obtain ⟨active, known, dead⟩ := exists_activity (M := M) ordered (output + 1)
  obtain ⟨blank, isBlank⟩ : ∃ blank : Adjoints, blank = ⟨active, Array.replicate (output + 1) none⟩ := ⟨_, rfl⟩
  have unknown (id : Nat) : blank.grad? id = none := by
    rw [isBlank, Adjoints.grad?_replicate]
  have start : blank.Sound M s (output + 1) := by
    refine ⟨by simp [isBlank], inside, fun id grad found => ?_, fun id j less isDead => ?_⟩
    · simp [unknown] at found
    · exact dead id j less (by omega) (by simpa [isBlank, Adjoints.isActive] using isDead)
  have empty (j : Nat) : blank.pending M s j (output + 1) = 0 :=
    sum_eq_zero fun id _ => by simp [Adjoints.value, unknown]
  unfold gradient
  refine .get (.guarded inside (.lift known ?_))
  rw [← isBlank]
  by_cases active : blank.isActive output = true
  · simp only [active, if_true]
    refine (Build.meets_constant (M := M) ordered plain 1).bind fun one t grows isOne => ?_
    rw [Int.cast_one] at isOne
    have seeded := (start.extend grows.toExtends).set output isOne.1
    refine meets_sweep_collect plain few ordered lowers grows inside seeded fun j => ?_
    rw [Adjoints.pending_set (Nat.lt_of_lt_of_le (Nat.lt_succ_self output) start.size) (Nat.lt_succ_self _),
      Adjoints.pending_extend start grows.toExtends (Nat.le_refl _), empty, isOne.2,
      grows.interpret inside]
    simp [Adjoints.value, unknown]
  · simp only [active, if_false, Bool.false_eq_true]
    refine meets_sweep_collect plain few ordered lowers (.refl s) inside start fun j => ?_
    rw [empty, start.inactive output j (Nat.lt_succ_self output) (by simpa using active)]

end

variable {lowest : Int} {count : Nat} (above : (Differential.exponents α M).least < lowest)
  (few : s.inputCount < listLimit) (within : count ≤ s.size) (powers : s.PowersFrom lowest count)
include above few within powers

/-- The nodes of a gradient are the derivatives of the output, input by input. -/
theorem meets_gradient (consistent : s.Consistent) {output : Nat} (bound : output < count) :
    Build.Meets (Derived (lowest - 1)) (gradient output) s fun ids t =>
      List.Forall₂ t.Denotes ids
        ((List.range s.inputCount).map fun j => deriv α j (s.interpret M output)) := by
  refine (meets_gathered (fun _ => .inl) few consistent.ordered (fun id node less found => ?_)
    (Nat.lt_of_lt_of_le bound within)).mono fun ids t _ gathered => gathered.denotes consistent
  exact lowers_derived above fun base exponent same => powers id base exponent (by omega) (same ▸ found)

theorem meets_gradients (consistent : s.Consistent) (outputs : List Nat)
    (bound : ∀ output : Nat, output ∈ outputs → output < count) :
    Build.Meets (Derived (lowest - 1)) (outputs.mapM gradient) s fun rows t =>
      List.Forall₂ t.Denotes rows.flatten (outputs.flatMap fun output =>
        (List.range s.inputCount).map fun j => deriv α j (s.interpret M output)) := by
  induction outputs generalizing s with
  | nil => exact .pure .nil
  | cons output outputs ih =>
      rw [List.mapM_cons]
      refine (meets_gradient (M := M) above few within powers consistent (bound output (by simp))).bind
        fun row t grows first => ?_
      have rest := ih (grows.inputCount ▸ few) (Nat.le_trans within grows.size_le)
        (powers.extend grows.toExtends within) (grows.derived_consistent consistent)
        fun other member => bound other (by simp [member])
      refine rest.bind fun rows u more others => .pure ?_
      rw [List.flatten_cons, List.flatMap_cons]
      refine List.rel_append (first.imp fun _ _ denotes => denotes.extend more.toExtends) ?_
      have same (other : Nat) (member : other ∈ outputs) : t.interpret M other = s.interpret M other :=
        grows.interpret (Nat.lt_of_lt_of_le (bound other (by simp [member])) within)
      rw [grows.inputCount] at others
      convert others using 1
      refine List.flatMap_congr fun other member => ?_
      rw [same other member]

end

open AutoDiff.Gradient in
theorem gradient_eq_none {α : Type} [Arithmetic α] {s : Trace α} (many : listLimit ≤ s.inputCount)
    (output : Nat) : gradient output s = none := by
  have stops {β : Type} (next : Unit → Build α β) (t : Trace α) :
      (guard (s.inputCount < listLimit) >>= next) t = none := by
    simp [guard, Nat.not_lt.mpr many, Build.bind_apply, failure, StateT.failure]
  unfold gradient
  rw [Build.get_bind]
  refine Build.bind_eq_none fun _ _ => Build.bind_eq_none fun active _ => ?_
  by_cases reads : (⟨active, Array.replicate (output + 1) none⟩ : Adjoints).isActive output = true
  · rw [if_pos reads]
    refine Build.bind_eq_none fun _ _ => Build.bind_eq_none fun a _ => Build.bind_eq_none fun b t => ?_
    exact stops _ t
  · rw [if_neg reads]
    refine Build.bind_eq_none fun _ _ => Build.bind_eq_none fun a _ => ?_
    exact stops _ _

theorem lt_listLimit_of_gradient {α : Type} [Arithmetic α] {s u : Trace α} {output : NodeId} {ids : List NodeId}
    (run : gradient output s = some (ids, u)) : s.inputCount < listLimit := by
  by_contra many
  rw [gradient_eq_none (Nat.le_of_not_lt many) output] at run
  cases run

end AutoDiff
