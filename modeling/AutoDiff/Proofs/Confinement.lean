import AutoDiff.Proofs.AppendedNodes

/-!
Confined adjoints. A reverse sweep reaches no nodes but those that the output is calculated from. What it builds for
the nodes that depend on an input `j` depends on few inputs itself: on those of `K`, if the nodes on the way depend on
no others, or pass their adjoints on as they are, negated, or times something without inputs.
-/

namespace AutoDiff

namespace Trace

section

variable {α : Type} {t : Trace α} {K : Nat → Prop} {id : NodeId}

def Free (t : Trace α) (id : NodeId) : Prop := ∀ j, ¬t.DependsOn id j

/-- A node of the trace that depends on no inputs but those of `K`. -/
structure ReadsOnly (t : Trace α) (K : Nat → Prop) (id : NodeId) : Prop where
  lt_size : id < t.size
  inputs : ∀ j, t.DependsOn id j → K j

theorem Free.readsOnly (free : t.Free id) (inside : id < t.size) : t.ReadsOnly K id :=
  ⟨inside, fun j depends => absurd depends (free j)⟩

theorem ReadsOnly.operand {node : Node α} {operand : NodeId} (reads : t.ReadsOnly K id) (ordered : t.Ordered)
    (found : t.nodes[id]? = some node) (member : operand ∈ node.operands) : t.ReadsOnly K operand where
  lt_size := Nat.lt_trans (ordered id node found operand member) reads.lt_size
  inputs j depends := reads.inputs j ((dependsOn_iff found j).mpr (.inr ⟨operand, member, depends⟩))

theorem free_leaf {node : Node α} (found : t.nodes[id]? = some node) (leaf : node.operands = [])
    (noInput : ∀ j, node ≠ .input j) : t.Free id := by
  intro j depends
  rcases (dependsOn_iff found j).mp depends with same | ⟨operand, member, _⟩
  · exact noInput j same
  · rw [leaf] at member
    cases member

theorem free_const {c : α} (found : t.nodes[id]? = some (.const c)) : t.Free id :=
  free_leaf found rfl (by simp)

def Reserved (t : Trace α) (K : Nat → Prop) (id : NodeId) : Prop := t.size ≤ id ∨ t.ReadsOnly K id

theorem region_reserved (ordered : t.Ordered) : t.Region (t.Reserved K) K where
  fresh _ more := .inl more
  operands id node member found operand below := by
    rcases member with new | reads
    · exact absurd (lt_size found) (Nat.not_lt.mpr new)
    · exact .inr (reads.operand ordered found below)
  inputs id index member found := by
    rcases member with new | reads
    · exact absurd (lt_size found) (Nat.not_lt.mpr new)
    · exact reads.inputs index ((dependsOn_iff found index).mpr (.inl rfl))

end

section

variable {α : Type} [Arithmetic α] {s t : Trace α} {K : Nat → Prop} {id : NodeId}

theorem Extends.dependsOn_iff (more : Extends s t) (before : s.Ordered) (after : t.Ordered) (inside : id < s.size)
    (j : Nat) : t.DependsOn id j ↔ s.DependsOn id j := by
  rw [dependsOn_iff_reads after (Nat.lt_of_lt_of_le inside more.size_le), dependsOn_iff_reads before inside,
    more.expression inside]

theorem Extends.free_iff (more : Extends s t) (before : s.Ordered) (after : t.Ordered) (inside : id < s.size) :
    t.Free id ↔ s.Free id := by
  simp only [Free, more.dependsOn_iff before after inside]

theorem ReadsOnly.extend (reads : s.ReadsOnly K id) (more : Extends s t) (before : s.Ordered) (after : t.Ordered) :
    t.ReadsOnly K id where
  lt_size := Nat.lt_of_lt_of_le reads.lt_size more.size_le
  inputs j depends := reads.inputs j ((more.dependsOn_iff before after reads.lt_size j).mp depends)

theorem Free.reserved (free : s.Free id) (inside : id < s.size) (more : Extends s t) (before : s.Ordered)
    (after : t.Ordered) : t.Reserved K id :=
  .inr ((free.readsOnly inside).extend more before after)

theorem ReadsOnly.reserved {node : Node α} (reads : s.ReadsOnly K id) (found : s.nodes[id]? = some node)
    (more : Extends s t) (before : s.Ordered) (after : t.Ordered) :
    t.Reserved K id ∧ ∀ operand : Nat, operand ∈ node.operands → t.Reserved K operand := by
  constructor
  · exact .inr (reads.extend more before after)
  · intro operand member
    exact .inr ((reads.operand before found member).extend more before after)

end

end Trace

namespace Build

variable {α M : Type} [Arithmetic α] [CommRing M] [Interpretation α M] {P : Node α → Prop} {s : Trace α}
  {K : Nat → Prop} {n : Nat}

theorem Meets.confine {action : Build α NodeId} {x : M} (meets : Meets P action s fun id t => t.Denotes id x)
    (ordered : s.Ordered) {dependent : Prop} (stays : dependent → Stays (s.Reserved K) K n action) :
    Meets P action s fun id t => t.Denotes id x ∧ (dependent → t.ReadsOnly K id) := by
  obtain ⟨id, t, run, grows, denotes⟩ := meets
  refine ⟨id, t, run, grows, denotes, ?_⟩
  intro depends
  obtain ⟨member, region, _⟩ := stays depends s id t (Trace.region_reserved ordered) run
  exact ⟨denotes.1, fun j => region.dependsOn member⟩

end Build

/-- A node that passes its adjoint on as it is, negated, or times an operand without inputs. -/
def Node.Linear {α : Type} (free : NodeId → Prop) : Node α → Prop
  | input _ | weight _ | const _ => True
  | unary op _ => op = .neg
  | binary op lhs rhs => op = .add ∨ op = .mul ∧ (free lhs ∨ free rhs)
  | power _ _ => False

namespace Gradient

open Build

/-- What a node passes on is of a region if its adjoint is: the node and its operands are, or it is linear. -/
def Passes {α : Type} (G free : NodeId → Prop) (id : NodeId) (node : Node α) : Prop :=
  (G id ∧ ∀ operand : Nat, operand ∈ node.operands → G operand) ∨ node.Linear free

variable {α : Type} [Arithmetic α] {G free : NodeId → Prop} {K : Nat → Prop} {id arg lhs rhs base adjoint : NodeId}
  (given : G adjoint)
include given

theorem stays_unaryContribution_of_passes {op : UnaryOp} (passes : Passes G free id (.unary op arg : Node α)) :
    Stays G K 4 (unaryContribution op id arg adjoint : Build α NodeId) := by
  rcases passes with ⟨own, operands⟩ | linear
  · exact stays_unaryContribution op own (operands arg (by simp [Node.operands])) given
  · obtain rfl : op = .neg := linear
    exact (stays_unary .neg given).mono (by decide)

theorem stays_powerContribution_of_passes {exponent : Int32}
    (passes : Passes G free id (.power base exponent : Node α)) :
    Stays G K 4 (powerContribution base adjoint exponent : Build α NodeId) := by
  rcases passes with ⟨_, operands⟩ | linear
  · exact stays_powerContribution exponent (operands base (by simp [Node.operands])) given
  · exact linear.elim

variable {op : BinaryOp} (passes : Passes G free id (.binary op lhs rhs : Node α))
include passes

theorem stays_leftContribution_of_passes (bound : ¬free lhs) (inside : free rhs → G rhs) :
    Stays G K 5 (leftContribution op lhs rhs adjoint : Build α NodeId) := by
  rcases passes with ⟨_, operands⟩ | rfl | ⟨rfl, left | right⟩
  · exact stays_leftContribution op (operands lhs (by simp [Node.operands])) (operands rhs (by simp [Node.operands]))
      given
  · exact (Stays.pure given).mono (by decide)
  · exact absurd left bound
  · exact (stays_binary .mul given (inside right)).mono (by decide)

theorem stays_rightContribution_of_passes (bound : ¬free rhs) (inside : free lhs → G lhs) :
    Stays G K 3 (rightContribution op id lhs rhs adjoint : Build α NodeId) := by
  rcases passes with ⟨own, operands⟩ | rfl | ⟨rfl, left | right⟩
  · exact stays_rightContribution op own (operands lhs (by simp [Node.operands]))
      (operands rhs (by simp [Node.operands])) given
  · exact (Stays.pure given).mono (by decide)
  · exact (stays_binary .mul given (inside left)).mono (by decide)
  · exact absurd right bound

end Gradient

namespace Adjoints

variable {α : Type}

/-- The state of a sweep for `output`, a node of `s`. The adjoints of nodes that depend on input `j` depend on no inputs
but those of `K`. -/
structure Confined (a : Adjoints) (s : Trace α) (output : NodeId) (j : Nat) (K : Nat → Prop) (t : Trace α) : Prop where
  reached : ∀ id grad : Nat, a.grad? id = some grad → (s.cone output).Reachable id
  within : ∀ id grad : Nat, a.grad? id = some grad → s.DependsOn id j → t.ReadsOnly K grad

variable {a : Adjoints} {s t u : Trace α} {output : NodeId} {j : Nat} {K : Nat → Prop}

theorem Confined.set (confined : a.Confined s output j K t) {target grad : NodeId}
    (reachable : (s.cone output).Reachable target) (within : s.DependsOn target j → t.ReadsOnly K grad) :
    (a.set target grad).Confined s output j K t where
  reached id known found := by
    rcases of_grad?_set found with ⟨rfl, rfl⟩ | old
    · exact reachable
    · exact confined.reached id known old
  within id known found := by
    rcases of_grad?_set found with ⟨rfl, rfl⟩ | old
    · exact within
    · exact confined.within id known old

variable [Arithmetic α]

theorem Confined.extend (confined : a.Confined s output j K t) (more : Trace.Extends t u) (before : t.Ordered)
    (after : u.Ordered) : a.Confined s output j K u where
  reached := confined.reached
  within id known found depends := (confined.within id known found depends).extend more before after

variable {P : Node α → Prop} {bound : Nat}

section

variable (ordered : t.Ordered) (plain : ∀ node : Node α, node.IsPlain → P node) (sound : a.Sound PUnit t bound)
  (confined : a.Confined s output j K t)
include ordered plain sound confined

theorem meets_accumulate_confined {target contribution : NodeId} (reachable : (s.cone output).Reachable target)
    (there : contribution < t.size) (within : s.DependsOn target j → t.ReadsOnly K contribution) :
    Build.Meets P (a.accumulate target contribution) t fun b u => b.Confined s output j K u := by
  apply Build.Meets.get
  split
  · exact .pure confined
  · cases known : a.grad? target with
    | none => exact .pure (confined.set reachable within)
    | some existing =>
        have old := Trace.denotes_interpret (M := PUnit) (sound.defined target existing known)
        have stays (depends : s.DependsOn target j) :
            Build.Stays (t.Reserved K) K 1 (Build.add existing contribution : Build α NodeId) :=
          Build.stays_binary .add (.inr (confined.within target existing known depends)) (.inr (within depends))
        have sum := (Build.meets_add ordered plain old (Trace.denotes_interpret there)).confine ordered stays
        apply sum.bind
        rintro id u grows ⟨_, inside⟩
        exact .pure ((confined.extend grows.toExtends ordered (grows.ordered ordered)).set reachable inside)

theorem meets_pass_confined {target : NodeId} {contribution : Build α NodeId} {n : Nat} {x : PUnit}
    (reachable : (s.cone output).Reachable target)
    (made : Build.Meets P contribution t fun id u => u.Denotes id x)
    (stays : s.DependsOn target j → Build.Stays (t.Reserved K) K n contribution) :
    Build.Meets P (if a.isActive target then contribution >>= a.accumulate target else pure a) t
      fun b u => b.Confined s output j K u := by
  split
  · apply (made.confine ordered stays).bind
    rintro id u grows ⟨denotes, inside⟩
    exact meets_accumulate_confined (grows.ordered ordered) plain (sound.extend grows.toExtends)
      (confined.extend grows.toExtends ordered (grows.ordered ordered)) reachable denotes.1 inside
  · exact .pure confined

end

end Adjoints

namespace Gradient

open Adjoints AutoDiff.Differential

variable {α : Type} [Arithmetic α] {P : Node α → Prop} {a : Adjoints} {s t : Trace α} {output : NodeId} {j bound : Nat}
  {K : Nat → Prop}

section

variable (before : s.Ordered) (kept : Trace.Extends s t) (ordered : t.Ordered)
  (plain : ∀ node : Node α, node.IsPlain → P node) (sound : a.Sound PUnit t bound)
  (confined : a.Confined s output j K t)
include before kept ordered plain sound confined

theorem meets_propagate_confined {id : Nat} {node : Node α} (found : s.nodes[id]? = some node)
    (reachable : (s.cone output).Reachable id)
    (either : s.DependsOn id j → s.ReadsOnly K id ∨ node.Linear s.Free)
    (lowers : Lowers (exponents α PUnit).least P node) (less : id < bound) {adjoint : NodeId} (given : adjoint < t.size)
    (within : s.DependsOn id j → t.ReadsOnly K adjoint) :
    Build.Meets P (propagate a id node adjoint) t fun b u => b.Confined s output j K u := by
  have inside := Trace.lt_size found
  have early := before id node found
  have below (operand : Nat) (member : operand ∈ node.operands) : operand < s.size :=
    Nat.lt_trans (early operand member) inside
  have needs {operand : Nat} (member : operand ∈ node.operands) (depends : s.DependsOn operand j) :
      s.DependsOn id j :=
    (Trace.dependsOn_iff found j).mpr (.inr ⟨operand, member, depends⟩)
  have denotes {v : Trace α} (more : Trace.Extends s v) {old : Nat} (there : old < s.size) :
      v.Denotes old (v.interpret PUnit old) :=
    Trace.denotes_interpret (Nat.lt_of_lt_of_le there more.size_le)
  have passes {v : Trace α} (more : Trace.Extends s v) (after : v.Ordered) (depends : s.DependsOn id j) :
      Passes (v.Reserved K) s.Free id node :=
    (either depends).imp_left fun reads => reads.reserved found more before after
  have adjoined := Trace.denotes_interpret (M := PUnit) given
  cases node with
  | input | weight | const => exact .pure confined
  | unary op arg =>
      have member : arg ∈ (Node.unary op arg : Node α).operands := by simp [Node.operands]
      have made := meets_unaryContribution ordered plain op (M := PUnit) (denotes kept inside)
        (denotes kept (below arg member)) adjoined
      apply meets_pass_confined ordered plain sound confined (.operand reachable found member) made
      intro depends
      have own := needs member depends
      exact stays_unaryContribution_of_passes (.inr (within own)) (passes kept ordered own)
  | power base exponent =>
      obtain ⟨above, allowed⟩ := lowers base exponent rfl
      have member : base ∈ (Node.power base exponent : Node α).operands := by simp [Node.operands]
      have made := meets_powerContribution (M := PUnit) ordered plain above (denotes kept (below base member))
        adjoined allowed
      apply meets_pass_confined ordered plain sound confined (.operand reachable found member) made
      intro depends
      have own := needs member depends
      exact stays_powerContribution_of_passes (.inr (within own)) (passes kept ordered own)
  | binary op lhs rhs =>
      have left : lhs ∈ (Node.binary op lhs rhs : Node α).operands := by simp [Node.operands]
      have right : rhs ∈ (Node.binary op lhs rhs : Node α).operands := by simp [Node.operands]
      have first := meets_leftContribution (M := PUnit) ordered plain op (denotes kept (below lhs left))
        (denotes kept (below rhs right)) adjoined
      have firstStays (depends : s.DependsOn lhs j) :
          Build.Stays (t.Reserved K) K 5 (leftContribution op lhs rhs adjoint : Build α NodeId) := by
        have own := needs left depends
        apply stays_leftContribution_of_passes (.inr (within own)) (passes kept ordered own)
        · exact fun free => free j depends
        · exact fun free => free.reserved (below rhs right) kept before ordered
      have passed := meets_pass ordered plain sound (Nat.le_refl bound) (Nat.lt_trans (early lhs left) less) first
      have narrow := meets_pass_confined ordered plain sound confined (.operand reachable found left) first firstStays
      rw [propagate_binary]
      apply (passed.and narrow).bind
      rintro b u grows ⟨gains, still⟩
      have all := kept.trans grows.toExtends
      have after := grows.ordered ordered
      have second := meets_rightContribution (M := PUnit) after plain op (denotes all inside)
        (denotes all (below lhs left)) (denotes all (below rhs right)) (adjoined.extend grows.toExtends)
      apply meets_pass_confined after plain gains.sound still (.operand reachable found right) second
      intro depends
      have own := needs right depends
      apply stays_rightContribution_of_passes (.inr ((within own).extend grows.toExtends ordered after))
        (passes all after own)
      · exact fun free => free j depends
      · exact fun free => free.reserved (below lhs left) all before after

end

theorem meets_sweep_confined (before : s.Ordered) (plain : ∀ node : Node α, node.IsPlain → P node)
    (either : ∀ (id : Nat) (node : Node α), (s.cone output).Reachable id → s.nodes[id]? = some node →
      s.DependsOn id j → s.ReadsOnly K id ∨ node.Linear s.Free)
    (lowers : ∀ (id : Nat) (node : Node α), id < bound → s.nodes[id]? = some node →
      Lowers (exponents α PUnit).least P node)
    (inside : bound ≤ s.size) (limit : Nat) (atMost : limit ≤ bound) (kept : Trace.Extends s t) (ordered : t.Ordered)
    (sound : a.Sound PUnit t bound) (confined : a.Confined s output j K t) :
    Build.Meets P (sweep limit a) t fun b u => b.Confined s output j K u := by
  induction limit generalizing a t with
  | zero => exact .pure confined
  | succ limit ih =>
      have less : limit < s.size := Nat.lt_of_lt_of_le atMost inside
      have there : s.nodes[limit]? = some s.nodes[limit] := Array.getElem?_eq_getElem less
      have found : t.nodes[limit]? = some s.nodes[limit] := (kept.nodes limit less).trans there
      unfold sweep
      cases known : a.grad? limit with
      | none => exact ih (Nat.le_of_lt atMost) kept ordered sound confined
      | some adjoint =>
          have given := sound.defined limit adjoint known
          have reachable := confined.reached limit adjoint known
          have visited := meets_propagate (M := PUnit) ordered plain sound atMost found
            (lowers limit _ atMost there) (Trace.denotes_interpret given)
          have narrow := meets_propagate_confined before kept ordered plain sound confined there reachable
            (either limit _ reachable there) (lowers limit _ atMost there) atMost given
            (confined.within limit adjoint known)
          apply Build.Meets.get
          simp only [found]
          apply (visited.and narrow).bind
          rintro b u grows ⟨gains, still⟩
          exact ih (Nat.le_of_lt atMost) (kept.trans grows.toExtends) (grows.ordered ordered) gains.sound still

end Gradient

namespace Adjoints

variable {α : Type} [Arithmetic α] {a : Adjoints} {s r : Trace α} {output : NodeId}

theorem Seeded.grows_of_plain (seeded : a.Seeded output s r) {P : Node α → Prop}
    (plain : ∀ node : Node α, node.IsPlain → P node) : s.Grows P r := by
  rcases seeded.grows with rfl | rfl
  · exact .refl _
  · exact s.grows_push (by simp [Node.operands]) (plain _ trivial)

theorem Seeded.sound (seeded : a.Seeded output s r) (inside : output < s.size) : a.Sound PUnit r (output + 1) where
  size := Nat.le_of_eq seeded.size.symm
  nodes := by
    rcases seeded.grows with rfl | rfl
    · exact inside
    · exact Nat.le_trans inside (s.extends_push _).size_le
  defined id grad found := Trace.lt_size (seeded.known id grad found).2
  inactive _ _ _ _ := rfl

theorem Seeded.confined (seeded : a.Seeded output s r) (j : Nat) (K : Nat → Prop) : a.Confined s output j K r where
  reached id grad found := by
    rw [(seeded.known id grad found).1]
    exact s.reachable_self output
  within id grad found _ := by
    have one := (seeded.known id grad found).2
    exact (Trace.free_const one).readsOnly (Trace.lt_size one)

end Adjoints

namespace Gradient

open Adjoints AutoDiff.Differential

variable {α : Type} [Arithmetic α] {s u : Trace α} {output : NodeId} {j : Nat} {K : Nat → Prop}

/-- The node of a gradient for an input depends on few inputs; without a way from the output to the input it is the
constant zero. -/
theorem slot_of_gradient {lowest : Int} {count : Nat} (above : (exponents α PUnit).least < lowest)
    (atMost : count ≤ s.size) (powers : s.PowersFrom lowest count) (before : s.Ordered) (early : output < count)
    (either : ∀ (id : Nat) (node : Node α), (s.cone output).Reachable id → s.nodes[id]? = some node →
      s.DependsOn id j → s.ReadsOnly K id ∨ node.Linear s.Free)
    {ids : List NodeId} (run : gradient output s = some (ids, u)) (less : j < s.inputCount) :
    ∃ id : Nat, ids[j]? = some id ∧ u.ReadsOnly K id ∧
      (¬s.DependsOn output j → u.nodes[id]? = some (.const (Arithmetic.ofInt 0))) := by
  obtain ⟨a, r, b, t, seeded, swept, rfl, rfl⟩ := collected_of_gradient run
  have plain : ∀ node : Node α, node.IsPlain → Derived (lowest - 1) node := fun _ => .inl
  have inside : output < s.size := Nat.lt_of_lt_of_le early atMost
  have started := seeded.grows_of_plain plain
  have lowers (id : Nat) (node : Node α) (visited : id < output + 1) (found : s.nodes[id]? = some node) :
      Lowers (exponents α PUnit).least (Derived (lowest - 1)) node := by
    apply lowers_derived above
    rintro base exponent rfl
    exact powers id base exponent (Nat.lt_of_lt_of_le visited early) found
  obtain ⟨_, _, same, grows, still⟩ := meets_sweep_confined before plain either lowers inside (output + 1)
    (Nat.le_refl _) started.toExtends (started.ordered before) (seeded.sound inside) (seeded.confined j K)
  cases swept.symm.trans same
  have ordered := grows.ordered (started.ordered before)
  have last : t.Grows (Derived (lowest - 1)) (t.push (.const (Arithmetic.ofInt 0))) :=
    t.grows_push (by simp [Node.operands]) (plain _ trivial)
  have zero := t.push_nodes_size (.const (Arithmetic.ofInt 0))
  rcases (collect_spec b (s.nodes.toList.take (output + 1)) s.inputCount t.size).2 j less with
    ⟨place, grad, reads, known, result⟩ | ⟨_, result⟩
  · have own : s.DependsOn place j := (Trace.dependsOn_iff (of_getElem?_take reads).2 j).mpr (.inl rfl)
    refine ⟨grad, result, ?_, ?_⟩
    · exact (still.within place grad known own).extend last.toExtends ordered (last.ordered ordered)
    · intro independent
      exact absurd (.of_cone (still.reached place grad known) own) independent
  · exact ⟨t.size, result, (Trace.free_const zero).readsOnly (Trace.lt_size zero), fun _ => zero⟩

end Gradient

end AutoDiff
