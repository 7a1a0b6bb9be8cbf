import AutoDiff.Proofs.Confinement

/-!
Weighted sums of outputs. The nodes of such a sum are linear: they add, and multiply by weights. Below them are the
nodes that the outputs are calculated from.
-/

namespace AutoDiff

open Build

section

variable {α : Type} {free other : NodeId → Prop}

theorem Node.Linear.mono {node : Node α} (linear : node.Linear free)
    (more : ∀ operand : Nat, operand ∈ node.operands → free operand → other operand) : node.Linear other := by
  cases node with
  | input | weight | const => trivial
  | unary => exact linear
  | power => exact linear.elim
  | binary op lhs rhs =>
      rcases linear with sum | ⟨product, left | right⟩
      · exact .inl sum
      · exact .inr ⟨product, .inl (more lhs (by simp [Node.operands]) left)⟩
      · exact .inr ⟨product, .inr (more rhs (by simp [Node.operands]) right)⟩

def Simplified.Linear (free : NodeId → Prop) : Simplified α → Prop
  | existing _ => True
  | fresh (node : Node α) => node.Linear free

theorem Trace.Rewrites.linear [Arithmetic α] {t : Trace α} {node : Node α} {made : Simplified α}
    (rewrites : t.Rewrites node made) (linear : node.Linear free) : made.Linear free := by
  induction rewrites with
  | leaf | keepUnary | keepPower => exact linear
  | foldUnary | foldBinary | powZero | powerZero | foldPower => trivial
  | negNeg | zeroAdd | addZero | subZero | zeroMul | mulZero | oneMul | mulOne | zeroDiv | divOne | powOne | powerOne =>
      trivial
  | zeroSub _ _ _ ih | minusMul _ _ _ ih | mulMinus _ _ _ ih => exact ih rfl
  | keepBinary =>
      unfold ordered
      split
      · exact linear.imp_right fun ⟨product, either⟩ => ⟨product, either.symm⟩
      · exact linear

end

namespace Trace

section

variable {α : Type} {s t : Trace α} {leaf : NodeId}

theorem Reachable.cone_congr (nodes : s.nodes = t.nodes) {id : NodeId} (reachable : (s.cone id).Reachable leaf) :
    (t.cone id).Reachable leaf := by
  induction reachable with
  | output member => exact .output member
  | operand _ found member ih => exact .operand ih (nodes ▸ found) member

theorem dependsOn_congr (nodes : s.nodes = t.nodes) (id : NodeId) (j : Nat) : s.DependsOn id j ↔ t.DependsOn id j := by
  constructor
  · rintro ⟨source, reachable, found⟩
    exact ⟨source, reachable.cone_congr nodes, nodes ▸ found⟩
  · rintro ⟨source, reachable, found⟩
    exact ⟨source, reachable.cone_congr nodes.symm, nodes ▸ found⟩

/-- Two inputs that some output depends on at the same time. -/
def Linked (t : Trace α) (j l : Nat) : Prop :=
  ∃ output : Nat, output ∈ t.outputs ∧ t.DependsOn output j ∧ t.DependsOn output l

theorem Linked.congr (nodes : s.nodes = t.nodes) (outputs : s.outputs = t.outputs) {j l : Nat}
    (linked : s.Linked j l) : t.Linked j l := by
  obtain ⟨output, member, first, second⟩ := linked
  exact ⟨output, outputs ▸ member, (dependsOn_congr nodes output j).mp first, (dependsOn_congr nodes output l).mp second⟩

/-- The nodes that the outputs need are a region, with the ids to come. -/
theorem region_reachable (t : Trace α) : t.Region (fun id => t.size ≤ id ∨ t.Reachable id) fun _ => True where
  fresh _ more := .inl more
  operands id node member found operand below := by
    rcases member with new | reachable
    · exact absurd (lt_size found) (Nat.not_lt.mpr new)
    · exact .inr (.operand reachable found below)
  inputs _ _ _ _ := trivial

def LinearFrom (start : Nat) (t : Trace α) : Prop :=
  ∀ (id : Nat) (node : Node α), start ≤ id → t.nodes[id]? = some node → node.Linear t.Free

theorem linearFrom_size (t : Trace α) : t.LinearFrom t.size :=
  fun _ _ more found => absurd (lt_size found) (Nat.not_lt.mpr more)

end

variable {α : Type} [Arithmetic α] {s t : Trace α} {start : Nat}

theorem LinearFrom.push (linear : t.LinearFrom start) (ordered : t.Ordered) {node : Node α}
    (defined : ∀ operand : Nat, operand ∈ node.operands → operand < t.size) (own : node.Linear t.Free) :
    (t.push node).LinearFrom start := by
  have after := (grows_push (P := fun _ => True) t defined trivial).ordered ordered
  have still {operand : Nat} (inside : operand < t.size) : t.Free operand → (t.push node).Free operand :=
    ((extends_push t node).free_iff ordered after inside).mpr
  intro id other more found
  rcases nodes_push found with ⟨_, old⟩ | ⟨_, rfl⟩
  · apply (linear id other more old).mono
    intro operand member
    exact still (Nat.lt_trans (ordered id other old operand member) (lt_size old))
  · apply own.mono
    intro operand member
    exact still (defined operand member)

section

variable {P : Node α → Prop} (ordered : s.Ordered) (linear : s.LinearFrom start) (node : Node α)
  (defined : ∀ operand : Nat, operand ∈ node.operands → operand < s.size) (allowed : P node)
  (own : node.Linear s.Free)
include ordered linear defined allowed own

theorem meets_push_linear : Meets P (Build.push node) s fun id t => t.nodes[id]? = some node ∧ t.LinearFrom start :=
  ⟨s.size, s.push node, rfl, s.grows_push defined allowed, s.push_nodes_size node, linear.push ordered defined own⟩

theorem meets_insert_linear (plain : ∀ node : Node α, node.IsPlain → P node) :
    Meets P (Build.insert node) s fun id t => id < t.size ∧ t.LinearFrom start := by
  obtain ⟨id, t, run, grows, denotes⟩ := meets_insert (M := PUnit) ordered plain node defined allowed
  refine ⟨id, t, run, grows, denotes.1, ?_⟩
  obtain ⟨made, simplified, isDefined⟩ := exists_simplify ordered node defined
  have kind := (rewrites_of_simplify simplified).linear own
  unfold Build.insert at run
  rw [simplified] at run
  cases made with
  | existing old =>
      cases run
      exact linear
  | fresh fresh =>
      cases run
      exact linear.push ordered isDefined.1 kind

end

/-- A term appends a weight, its product with an output, and a sum. -/
theorem meets_addTerm_linear (ordered : s.Ordered) (linear : s.LinearFrom start) {count : Nat} {term : Nat × Nat}
    (inside : term.1 < s.size) (bound : term.2 < count) {sum : Nat} (given : sum < s.size) :
    Meets (Weighting count) (addTerm sum term) s fun id t => id < t.size ∧ t.LinearFrom start := by
  have plain : ∀ node : Node α, node.IsPlain → Weighting count node := fun _ => .inl
  apply (meets_push_linear ordered linear (.weight term.2) (by simp [Node.operands]) (.inr ⟨term.2, bound, rfl⟩) trivial).bind
  rintro weight t grows ⟨isWeight, one⟩
  have free : t.Free weight := free_leaf isWeight rfl (by simp)
  have factors (operand : Nat) (member : operand ∈ (Node.binary .mul weight term.1 : Node α).operands) :
      operand < t.size := by
    rcases List.mem_pair.mp member with rfl | rfl
    · exact lt_size isWeight
    · exact Nat.lt_of_lt_of_le inside grows.size_le
  apply (meets_insert_linear (grows.ordered ordered) one _ factors (plain _ trivial) (.inr ⟨rfl, .inl free⟩) plain).bind
  rintro product u more ⟨isProduct, two⟩
  have both := grows.trans more
  apply meets_insert_linear (both.ordered ordered) two (.binary .add sum product) _ (plain _ trivial) (.inl rfl) plain
  intro operand member
  rcases List.mem_pair.mp member with rfl | rfl
  · exact Nat.lt_of_lt_of_le given both.size_le
  · exact isProduct

theorem meets_terms_linear (ordered : s.Ordered) (linear : s.LinearFrom start) {count : Nat} (terms : List (Nat × Nat))
    (bound : ∀ term ∈ terms, term.1 < s.size ∧ term.2 < count) {sum : Nat} (given : sum < s.size) :
    Meets (Weighting count) (terms.foldlM addTerm sum) s fun _ t => t.LinearFrom start := by
  induction terms generalizing s sum with
  | nil => exact .pure linear
  | cons term terms ih =>
      have first := bound term (by simp)
      rw [List.foldlM_cons]
      apply (meets_addTerm_linear ordered linear first.1 first.2 given).bind
      rintro next t grows ⟨isNext, still⟩
      apply ih (grows.ordered ordered) still _ isNext
      intro other member
      have old := bound other (by simp [member])
      exact ⟨Nat.lt_of_lt_of_le old.1 grows.size_le, old.2⟩

theorem meets_weightedSum_linear (ordered : s.Ordered) (outputs : List Nat)
    (bound : ∀ output : Nat, output ∈ outputs → output < s.size) :
    Meets (Weighting outputs.length) (weightedSum outputs) s fun _ t => t.LinearFrom s.size := by
  rw [weightedSum_eq]
  apply (meets_push_linear ordered s.linearFrom_size (.const (Arithmetic.ofInt 0)) (by simp [Node.operands])
    (.inl trivial) trivial).bind
  rintro start t grows ⟨isConst, linear⟩
  apply meets_terms_linear (grows.ordered ordered) linear outputs.zipIdx _ (lt_size isConst)
  intro term member
  refine ⟨Nat.lt_of_lt_of_le (bound _ (List.fst_mem_of_mem_zipIdx member)) grows.size_le, ?_⟩
  simpa using List.snd_lt_of_mem_zipIdx member

variable {G : NodeId → Prop} {K : Nat → Prop}

theorem stays_addTerm {term : NodeId × Nat} (member : G term.1) {sum : NodeId} (given : G sum) :
    Stays G K 3 (addTerm sum term : Build α NodeId) := by
  apply (stays_push (.weight term.2) (by simp [Node.operands]) (by simp)).bind (n := 1 + 1)
  intro weight isWeight
  apply (stays_binary .mul isWeight member).bind
  intro product isProduct
  exact stays_binary .add given isProduct

theorem stays_terms (terms : List (NodeId × Nat)) (members : ∀ term ∈ terms, G term.1) {sum : NodeId} (given : G sum) :
    Stays G K (3 * terms.length) (terms.foldlM addTerm sum : Build α NodeId) := by
  induction terms generalizing sum with
  | nil => exact .pure given
  | cons term terms ih =>
      rw [List.foldlM_cons, List.length_cons, Nat.mul_succ, Nat.add_comm]
      apply (stays_addTerm (members term (by simp)) given).bind
      intro next isNext
      exact ih (fun other member => members other (by simp [member])) isNext

theorem reachable_of_weightedSum {u : Trace α} {sum leaf : NodeId} (run : weightedSum t.outputs t = some (sum, u))
    (reachable : (u.cone sum).Reachable leaf) : t.size ≤ leaf ∨ t.Reachable leaf := by
  have stays : Stays (fun id => t.size ≤ id ∨ t.Reachable id) (fun _ => True) (1 + 3 * t.outputs.zipIdx.length)
      (weightedSum t.outputs : Build α NodeId) := by
    rw [weightedSum_eq]
    apply (stays_constant _).bind
    intro start isStart
    apply stays_terms _ _ isStart
    intro term member
    exact .inr (.output (List.fst_mem_of_mem_zipIdx member))
  obtain ⟨member, region, _⟩ := stays t sum u t.region_reachable run
  exact region.reachable member reachable

/-- Below a weighted sum, what depends on an input depends on no inputs but those linked to it, or is linear. -/
theorem readsOnly_or_linear (ordered : t.Ordered) (defined : ∀ output : Nat, output ∈ t.outputs → output < t.size)
    {u : Trace α} {sum : NodeId} (run : weightedSum t.outputs t = some (sum, u)) {id : NodeId} {node : Node α}
    (reachable : (u.cone sum).Reachable id) (found : u.nodes[id]? = some node) {j : Nat} (depends : u.DependsOn id j) :
    u.ReadsOnly (t.Linked j) id ∨ node.Linear u.Free := by
  obtain ⟨_, _, same, grows, linear⟩ := meets_weightedSum_linear ordered t.outputs defined
  cases run.symm.trans same
  rcases Nat.lt_or_ge id t.size with inside | new
  · left
    refine ⟨lt_size found, ?_⟩
    intro l also
    have before {i : Nat} : u.DependsOn id i → t.DependsOn id i :=
      (grows.toExtends.dependsOn_iff ordered (grows.ordered ordered) inside i).mp
    rcases reachable_of_weightedSum run reachable with new | old
    · exact absurd inside (Nat.not_lt.mpr new)
    · obtain ⟨output, member, below⟩ := old.exists_output
      exact ⟨output, member, .of_cone below (before depends), .of_cone below (before also)⟩
  · right
    exact linear id node new found

end Trace

end AutoDiff
