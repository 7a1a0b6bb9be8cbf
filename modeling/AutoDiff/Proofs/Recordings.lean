import AutoDiff.Recording
import AutoDiff.Proofs.Building
import AutoDiff.Proofs.NodeValues

namespace AutoDiff

namespace Step

variable {α : Type}

def declared (name : TapeName) : Step α → List α
  | independent tape values => if tape = name then values else []
  | _ => []

def advance (points : TapeName → Array α) (action : Step α) (name : TapeName) : Array α :=
  points name ++ (action.declared name).toArray

theorem advance_eq (points : TapeName → Array α) {action : Step α} (none : ∀ name, action.declared name = []) :
    action.advance points = points := by
  funext name
  rw [advance, none name, Array.append_empty]

theorem advance_nil (points : TapeName → Array α) (tape : TapeName) :
    (independent tape []).advance points = points := by
  apply advance_eq
  intro name
  simp [declared]

theorem advance_cons (points : TapeName → Array α) (tape : TapeName) (value : α) (values : List α) :
    (independent tape values).advance ((independent tape [value]).advance points) =
      (independent tape (value :: values)).advance points := by
  funext name
  by_cases same : tape = name <;> simp [advance, declared, same]

theorem foldl_advance (steps : List (Step α)) (points : TapeName → Array α) (name : TapeName) :
    steps.foldl advance points name = points name ++ (steps.flatMap (declared name)).toArray := by
  induction steps generalizing points with
  | nil => simp
  | cons action steps ih => simp [ih, advance]

end Step

namespace Recording

variable {α : Type}

/-- A consistent tape without weights, all powers of which have exponents that `P` holds of. -/
structure Tape (P : Int32 → Prop) (t : Trace α) : Prop extends Trace.Consistent t where
  weightless : t.weightCount = 0
  powers : ∀ (id base : Nat) (exponent : Int32), t.nodes[id]? = some (.power base exponent : Node α) → P exponent

@[simp] theorem trace_setTrace (r : Recording α) (t : Trace α) (name read : TapeName) :
    (r.setTrace t name).trace read = if read = name then t else r.trace read := by
  cases name <;> cases read <;> rfl

@[simp] theorem recorded_setTrace (r : Recording α) (t : Trace α) (name : TapeName) :
    (r.setTrace t name).recorded = r.recorded := by
  cases name <;> rfl

@[simp] theorem setTrace_setTrace (r : Recording α) (s t : Trace α) (name : TapeName) :
    (r.setTrace s name).setTrace t name = r.setTrace t name := by
  cases name <;> rfl

variable {P : Int32 → Prop} {t : Trace α}

theorem Tape.push (tape : Tape P t) {node : Node α}
    (defined : ∀ operand : Nat, operand ∈ node.operands → operand < t.size)
    (noInput : ∀ index, node ≠ .input index) (noWeight : ∀ index, node ≠ .weight index)
    (powers : ∀ (base : Nat) (exponent : Int32), node = .power base exponent → P exponent) :
    Tape P (t.push node) := by
  have grows := t.grows_push (P := fun made => made = node) defined rfl
  refine ⟨grows.consistent tape.toConsistent (fun index same => noInput index same.symm)
    fun index same => absurd same.symm (noWeight index), tape.weightless, fun id base exponent found => ?_⟩
  rcases Nat.lt_or_ge id t.size with less | more
  · exact tape.powers id base exponent (grows.nodes id less ▸ found)
  · exact powers base exponent (grows.added id _ more found).symm

theorem Tape.declare (tape : Tape P t) :
    Tape P ({ t with inputCount := t.inputCount + 1 }.push (.input t.inputCount)) := by
  have place {id : Nat} {node : Node α}
      (found : ({ t with inputCount := t.inputCount + 1 }.push (.input t.inputCount)).nodes[id]? = some node) :
      t.nodes[id]? = some node ∨ id = t.size ∧ node = .input t.inputCount := by
    simp only [Trace.push, Array.getElem?_push] at found
    split at found
    · next last => exact .inr ⟨last, (Option.some.inj found).symm⟩
    · exact .inl found
  have fresh {id : Nat} : t.nodes[id]? ≠ some (.input t.inputCount : Node α) :=
    fun found => Nat.lt_irrefl _ (tape.inputs id _ found)
  refine ⟨⟨fun id node found => ?_, fun id index found => ?_, fun id index found => ?_,
    fun first second index one two => ?_⟩, tape.weightless, fun id base exponent found => ?_⟩
  · rcases place found with old | ⟨_, rfl⟩
    · exact tape.ordered id node old
    · simp [Node.operands]
  · rcases place found with old | ⟨_, same⟩
    · exact Nat.lt_succ_of_lt (tape.inputs id index old)
    · cases same
      exact Nat.lt_succ_self _
  · rcases place found with old | ⟨_, same⟩
    · exact tape.weights id index old
    · cases same
  · rcases place one with old | ⟨last, same⟩
    · rcases place two with older | ⟨_, same⟩
      · exact tape.distinct first second index old older
      · cases same
        exact absurd old fresh
    · cases same
      rcases place two with old | ⟨also, _⟩
      · exact absurd old fresh
      · exact last.trans also.symm
  · rcases place found with old | ⟨_, same⟩
    · exact tape.powers id base exponent old
    · cases same

variable [Arithmetic α]

/-- A variable whose value is that of its node, on its own tape. -/
def Shows (points : TapeName → Array α) (r : Recording α) (v : Variable α) : Prop :=
  (r.trace v.tape).nodeValue? (points v.tape) v.id = some v.value

/-- Both tapes are consistent, each declared input has a node and a value at the example point of its tape, and all
variables show the values of their nodes. -/
structure Truthful (P : Int32 → Prop) (points : TapeName → Array α) (r : Recording α) : Prop where
  tape : ∀ name, Tape P (r.trace name)
  inputs : ∀ name, (points name).size = (r.trace name).inputCount
  declared : ∀ name index, index < (r.trace name).inputCount → ∃ id : Nat, (r.trace name).nodes[id]? = some (.input index)
  shown : ∀ v ∈ r.recorded, r.Shows points v

variable {points after : TapeName → Array α} {r : Recording α}

theorem truthful_empty : ({} : Recording α).Truthful P fun _ => #[] := by
  refine ⟨fun name => ?_, fun name => ?_, fun name => ?_, by simp⟩
  · cases name <;> exact ⟨⟨by intro _ _ found; simp [trace] at found, by simp [trace], by simp [trace],
      by simp [trace]⟩, rfl, by simp [trace]⟩
  · cases name <;> rfl
  · cases name <;> simp [trace]

theorem Truthful.exists_values? (truthful : r.Truthful P points) (name : TapeName) :
    ∃ values, (r.trace name).values? (points name) #[] = some values ∧ values.size = (r.trace name).size := by
  have tape := truthful.tape name
  obtain ⟨values, run, valued⟩ := Trace.exists_values? (w := #[]) tape.toConsistent (truthful.inputs name)
    tape.weightless.symm
  exact ⟨values, run, valued.1⟩

theorem Shows.value {v : Variable α} (shows : r.Shows points v) {values : Array α}
    (run : (r.trace v.tape).values? (points v.tape) #[] = some values) : values[v.id]? = some v.value := by
  rwa [Shows, Trace.nodeValue?, run, Option.bind_some] at shows

theorem Truthful.lt_size (truthful : r.Truthful P points) {v : Variable α} (shows : r.Shows points v) :
    v.id < (r.trace v.tape).size := by
  obtain ⟨values, run, size⟩ := truthful.exists_values? v.tape
  rw [← size]
  exact (Array.getElem?_eq_some_iff.mp (shows.value run)).1

/-- One tape with a node more: the variables show what they did, and the new one shows the value of the node. -/
theorem Truthful.setTrace (truthful : r.Truthful P points) {name : TapeName} {value : α} (longer : Tape P t)
    (inputs : (after name).size = t.inputCount)
    (declared : ∀ index, index < t.inputCount → ∃ id : Nat, t.nodes[id]? = some (.input index))
    (replay : ∀ values, (r.trace name).values? (points name) #[] = some values →
      t.values? (after name) #[] = some (values.push value))
    (elsewhere : ∀ read, read ≠ name → after read = points read) :
    (r.setTrace t name).Truthful P after ∧ (∀ v, r.Shows points v → (r.setTrace t name).Shows after v) ∧
      (r.setTrace t name).Shows after ⟨name, (r.trace name).size, value⟩ := by
  obtain ⟨values, run, size⟩ := truthful.exists_values? name
  have kept (v : Variable α) (shows : r.Shows points v) : (r.setTrace t name).Shows after v := by
    by_cases same : v.tape = name
    · subst same
      rw [Shows, trace_setTrace, if_pos rfl]
      exact Trace.nodeValue?_of_push (replay values run) run shows
    · rw [Shows, trace_setTrace, if_neg same, elsewhere v.tape same]
      exact shows
  refine ⟨⟨fun read => ?_, fun read => ?_, fun read => ?_, fun v member => ?_⟩, kept, ?_⟩
  · rw [trace_setTrace]
    split
    · exact longer
    · exact truthful.tape read
  · rw [trace_setTrace]
    split
    · next same => exact same ▸ inputs
    · next different => rw [elsewhere read different, truthful.inputs read]
  · rw [trace_setTrace]
    split
    · exact declared
    · exact truthful.declared read
  · rw [recorded_setTrace] at member
    exact kept v (truthful.shown v member)
  · rw [Shows, trace_setTrace, if_pos rfl, ← size]
    exact Trace.nodeValue?_last (replay values run)

theorem Truthful.wellFormed (truthful : r.Truthful P points) {outputs : List (Variable α)}
    (main : ∀ v ∈ outputs, v.tape = .main) (shown : ∀ v ∈ outputs, r.Shows points v) :
    ({ r.main with outputs := outputs.map Variable.id } : Trace α).WellFormed := by
  apply (truthful.tape .main).toConsistent.wellFormed
  intro id member
  obtain ⟨v, there, rfl⟩ := List.mem_map.mp member
  have inside := truthful.lt_size (shown v there)
  rw [main v there] at inside
  exact inside

theorem Truthful.evaluate (truthful : r.Truthful P points) {values : Array α}
    (run : r.main.values? (points .main) #[] = some values) {outputs : List NodeId} {results : List α}
    (each : List.Forall₂ (fun id result => values[id]? = some result) outputs results) :
    ({ r.main with outputs } : Trace α).evaluate (points .main) #[] = some (.ok results.toArray) := by
  apply Trace.evaluate_of_values?
  · exact truthful.inputs .main
  · exact (truthful.tape .main).weightless.symm
  · exact run
  · exact each

end Recording

namespace Recorder

open Recording

variable {α β γ : Type}

theorem bind_eq_ok_iff {r s : Recording α} (action : Recorder α β) (next : β → Recorder α γ) (result : γ) :
    (action >>= next) r = .ok (result, s) ↔
      ∃ value t, action r = .ok (value, t) ∧ next value t = .ok (result, s) := by
  cases made : action r with
  | error fault => simp [Bind.bind, StateT.bind, made, Except.bind]
  | ok pair =>
      obtain ⟨value, t⟩ := pair
      simp [Bind.bind, StateT.bind, made, Except.bind]

theorem bind_of_eq_ok {action : Recorder α β} {r s : Recording α} {value : β} (made : action r = .ok (value, s))
    (next : β → Recorder α γ) : (action >>= next) r = next value s := by
  simp [Bind.bind, StateT.bind, made, Except.bind]

theorem bind_of_eq_error {action : Recorder α β} {r : Recording α} {fault : RecordingFault}
    (failed : action r = .error fault) (next : β → Recorder α γ) : (action >>= next) r = .error fault := by
  simp [Bind.bind, StateT.bind, failed, Except.bind]

theorem lookup_eq_ok_iff {r s : Recording α} (position : Nat) (v : Variable α) :
    lookup position r = .ok (v, s) ↔ r.recorded[position]? = some v ∧ r = s := by
  cases found : r.recorded[position]? with
  | none => simp [lookup, found, Bind.bind, StateT.bind, Except.bind, get, getThe, MonadStateOf.get,
      StateT.get, Pure.pure, Except.pure, throw, throwThe, MonadExceptOf.throw, StateT.lift]
  | some other =>
      have run : lookup position r = .ok (other, r) := by
        refine (bind_eq_ok_iff get _ _).mpr ⟨r, r, rfl, ?_⟩
        simp only [found]
        rfl
      simp [run]

theorem lookups_eq_ok_iff {r s : Recording α} (positions : List Nat) (vs : List (Variable α)) :
    positions.mapM lookup r = .ok (vs, s) ↔
      List.Forall₂ (fun position v => r.recorded[position]? = some v) positions vs ∧ r = s := by
  induction positions generalizing vs with
  | nil =>
      have run : ([] : List Nat).mapM lookup r = .ok ([], r) := rfl
      rw [run, List.forall₂_nil_left_iff, Except.ok.injEq, Prod.mk.injEq, eq_comm]
  | cons position positions ih =>
      rw [List.mapM_cons, bind_eq_ok_iff]
      constructor
      · rintro ⟨v, t, first, rest⟩
        obtain ⟨found, rfl⟩ := (lookup_eq_ok_iff position v).mp first
        obtain ⟨others, u, run, last⟩ := (bind_eq_ok_iff _ _ _).mp rest
        cases last
        obtain ⟨all, same⟩ := (ih others).mp run
        exact ⟨.cons found all, same⟩
      · rintro ⟨all, rfl⟩
        cases all with
        | cons found rest =>
            refine ⟨_, r, (lookup_eq_ok_iff position _).mpr ⟨found, rfl⟩, ?_⟩
            exact (bind_eq_ok_iff _ _ _).mpr ⟨_, r, (ih _).mpr ⟨rest, rfl⟩, rfl⟩

variable [Arithmetic α] {P : Int32 → Prop}

/-- If an action succeeds, it leaves a recording that is truthful at `after`, in which the variables show what they
did, and ends as `post` says. -/
def Maintains (P : Int32 → Prop) (action : Recorder α β) (points : TapeName → Array α) (r : Recording α)
    (after : TapeName → Array α) (post : β → Recording α → Prop) : Prop :=
  ∀ result next, action r = .ok (result, next) →
    next.Truthful P after ∧ (∀ v, r.Shows points v → next.Shows after v) ∧ post result next

variable {points after : TapeName → Array α} {r : Recording α}

theorem Maintains.pure (truthful : r.Truthful P points) {result : β} {post : β → Recording α → Prop}
    (holds : post result r) : Maintains P (Pure.pure result) points r points post := by
  rintro _ _ ⟨⟩
  exact ⟨truthful, fun _ shows => shows, holds⟩

theorem Maintains.bind {action : Recorder α β} {next : β → Recorder α γ} {middle : TapeName → Array α}
    {between : β → Recording α → Prop} {post : γ → Recording α → Prop}
    (first : Maintains P action points r middle between)
    (second : ∀ result t, t.Truthful P middle → (∀ v, r.Shows points v → t.Shows middle v) → between result t →
      Maintains P (next result) middle t after post) :
    Maintains P (action >>= next) points r after post := by
  intro result last run
  obtain ⟨value, t, made, rest⟩ := (bind_eq_ok_iff action next result).mp run
  obtain ⟨truthful, kept, holds⟩ := first value t made
  obtain ⟨final, more, done⟩ := second value t truthful kept holds result last rest
  exact ⟨final, fun v shows => more v (kept v shows), done⟩

section

variable (truthful : r.Truthful P points)
include truthful

theorem maintains_lookup (position : Nat) :
    Maintains P (lookup position) points r points fun v next => next.Shows points v := by
  intro v next run
  obtain ⟨found, rfl⟩ := (lookup_eq_ok_iff position v).mp run
  exact ⟨truthful, fun _ shows => shows, truthful.shown v (Array.mem_of_getElem? found)⟩

theorem maintains_addVariable {v : Variable α} (shows : r.Shows points v) :
    Maintains P (addVariable v) points r points fun _ _ => True := by
  rintro _ _ ⟨⟩
  refine ⟨⟨truthful.tape, truthful.inputs, truthful.declared, fun other member => ?_⟩, fun _ same => same, trivial⟩
  rcases Array.mem_push.mp member with old | rfl
  · exact truthful.shown other old
  · exact shows

theorem maintains_append {tape : TapeName} {node : Node α} {value : α}
    (defined : ∀ operand : Nat, operand ∈ node.operands → operand < (r.trace tape).size)
    (noInput : ∀ index, node ≠ .input index) (noWeight : ∀ index, node ≠ .weight index)
    (powers : ∀ (base : Nat) (exponent : Int32), node = .power base exponent → P exponent)
    (computed : ∀ values, (r.trace tape).values? (points tape) #[] = some values →
      node.value? (points tape) #[] values = some value) :
    Maintains P (append tape node value) points r points fun v next => next.Shows points v := by
  rintro _ _ ⟨⟩
  refine truthful.setTrace ((truthful.tape tape).push defined noInput noWeight powers) (truthful.inputs tape)
    (fun index inside => ?_) (fun values run => ?_) fun _ _ => rfl
  · obtain ⟨id, found⟩ := truthful.declared tape index inside
    exact ⟨id, getElem?_push_of_eq_some found node⟩
  · rw [Trace.values?_push run, computed values run, Option.map_some]

theorem maintains_input (tape : TapeName) (value : α) :
    Maintains P (input tape value) points r ((Step.independent tape [value]).advance points)
      fun v next => next.Shows ((Step.independent tape [value]).advance points) v := by
  have inputs := truthful.inputs tape
  have point : (Step.independent tape [value]).advance points tape = (points tape).push value := by
    simp [Step.advance, Step.declared]
  rintro _ _ ⟨⟩
  simp only [trace_setTrace, if_true, setTrace_setTrace]
  refine truthful.setTrace (truthful.tape tape).declare ?_ (fun index inside => ?_) (fun values run => ?_)
    fun read different => ?_
  · rw [point, Array.size_push, inputs]
    rfl
  · rcases Nat.lt_succ_iff_lt_or_eq.mp inside with old | rfl
    · obtain ⟨id, found⟩ := truthful.declared tape index old
      exact ⟨id, getElem?_push_of_eq_some found _⟩
    · exact ⟨(r.trace tape).nodes.size, Array.getElem?_push_size⟩
  · have wider : Trace.values? { r.trace tape with inputCount := (r.trace tape).inputCount + 1 }
        ((points tape).push value) #[] = some values :=
      (Trace.values?_push_input (truthful.tape tape).toConsistent inputs value).trans run
    have read : Node.value? ((points tape).push value) #[] values (.input (r.trace tape).inputCount) = some value := by
      rw [Node.value?, ← inputs, Array.getElem?_push_size]
    rw [point, Trace.values?_push wider, read, Option.map_some]
  · simp [Step.advance, Step.declared, different.symm]

theorem maintains_const (tape : TapeName) (value : α) :
    Maintains P (const tape value) points r points fun v next => next.Shows points v :=
  maintains_append truthful (by simp [Node.operands]) (by simp) (by simp) (by simp) fun _ _ => rfl

theorem maintains_unary (op : UnaryOp) {a : Variable α} (shows : r.Shows points a) :
    Maintains P (unary op a) points r points fun v next => next.Shows points v := by
  apply maintains_append truthful
  · simpa [Node.operands] using truthful.lt_size shows
  · simp
  · simp
  · simp
  · intro values run
    simp [Node.value?, shows.value run]

theorem maintains_binary (op : BinaryOp) {a b : Variable α} (left : r.Shows points a) (right : r.Shows points b) :
    Maintains P (binary op a b) points r points fun v next => next.Shows points v := by
  unfold binary
  split
  · next same =>
      have inside := truthful.lt_size right
      rw [← same] at inside
      apply maintains_append truthful
      · simpa [Node.operands] using ⟨truthful.lt_size left, inside⟩
      · simp
      · simp
      · simp
      · intro values run
        have second : values[b.id]? = some b.value := right.value (same ▸ run)
        simp [Node.value?, left.value run, second]
  · rintro _ _ ⟨⟩

theorem maintains_power {a : Variable α} (shows : r.Shows points a) {exponent : Int32} (allowed : P exponent) :
    Maintains P (power a exponent) points r points fun v next => next.Shows points v := by
  apply maintains_append truthful
  · simpa [Node.operands] using truthful.lt_size shows
  · simp
  · simp
  · rintro _ _ ⟨⟩
    exact allowed
  · intro values run
    simp [Node.value?, shows.value run]

end

theorem maintains_lookups (truthful : r.Truthful P points) (positions : List Nat) :
    Maintains P (positions.mapM lookup) points r points fun vs next => ∀ v ∈ vs, next.Shows points v := by
  intro vs next run
  obtain ⟨found, rfl⟩ := (lookups_eq_ok_iff positions vs).mp run
  refine ⟨truthful, fun _ shows => shows, fun v member => ?_⟩
  obtain ⟨length, entries⟩ := List.forall₂_iff_get.mp found
  obtain ⟨i, inside, rfl⟩ := List.mem_iff_getElem.mp member
  exact truthful.shown _ (Array.mem_of_getElem? (entries i (length ▸ inside) inside))

theorem maintains_foldl_add (truthful : r.Truthful P points) (terms : List (Variable α))
    (all : ∀ v ∈ terms, r.Shows points v) {first : Variable α} (shows : r.Shows points first) :
    Maintains P (terms.foldlM (binary .add) first) points r points fun v next => next.Shows points v := by
  induction terms generalizing r first with
  | nil => exact .pure truthful shows
  | cons term terms ih =>
      rw [List.foldlM_cons]
      apply (maintains_binary truthful .add shows (all term (by simp))).bind
      intro v s truthfulS kept sum
      exact ih truthfulS (fun u member => kept u (all u (by simp [member]))) sum

theorem maintains_sum (truthful : r.Truthful P points) (terms : List (Variable α))
    (all : ∀ v ∈ terms, r.Shows points v) :
    Maintains P (sum terms) points r points fun v next => next.Shows points v := by
  cases terms with
  | nil => exact maintains_const truthful .main _
  | cons first rest =>
      exact maintains_foldl_add truthful rest (fun v member => all v (by simp [member])) (all first (by simp))

theorem Maintains.add {action : Recorder α (Variable α)}
    (maintains : Maintains P action points r after fun v next => next.Shows after v) :
    Maintains P (do addVariable (← action)) points r after fun _ _ => True :=
  maintains.bind fun _ _ truthful _ shows => maintains_addVariable truthful shows

theorem maintains_inputs (truthful : r.Truthful P points) (tape : TapeName) (values : List α) :
    Maintains P (values.forM fun value => do addVariable (← input tape value)) points r
      ((Step.independent tape values).advance points) fun _ _ => True := by
  induction values generalizing r points with
  | nil =>
      rw [Step.advance_nil]
      exact .pure truthful trivial
  | cons value values ih =>
      rw [← Step.advance_cons]
      apply (maintains_input truthful tape value).add.bind
      intro _ s truthfulS _ _
      exact ih truthfulS

/-- One step, on whichever tapes. Powers may have exponents that `P` holds of. -/
theorem maintains_step (truthful : r.Truthful P points) {action : Step α}
    (allowed : ∀ a exponent, action = .power a exponent → P exponent) :
    Maintains P (step action) points r (action.advance points) fun _ _ => True := by
  cases action with
  | independent tape values => exact maintains_inputs truthful tape values
  | const value =>
      rw [Step.advance_eq points fun _ => rfl]
      exact (maintains_const truthful .main value).add
  | constLike a value =>
      rw [Step.advance_eq points fun _ => rfl]
      apply (maintains_lookup truthful a).bind
      intro u s truthfulS _ _
      exact (maintains_const truthfulS u.tape value).add
  | unary op a =>
      rw [Step.advance_eq points fun _ => rfl]
      apply (maintains_lookup truthful a).bind
      intro u s truthfulS _ shows
      exact (maintains_unary truthfulS op shows).add
  | binary op a b =>
      rw [Step.advance_eq points fun _ => rfl]
      apply (maintains_lookup truthful a).bind
      intro u s truthfulS _ left
      apply (maintains_lookup truthfulS b).bind
      intro v t truthfulT kept right
      exact (maintains_binary truthfulT op (kept u left) right).add
  | binaryConst op a value =>
      rw [Step.advance_eq points fun _ => rfl]
      apply (maintains_lookup truthful a).bind
      intro u s truthfulS _ left
      apply (maintains_const truthfulS u.tape value).bind
      intro v t truthfulT kept right
      exact (maintains_binary truthfulT op (kept u left) right).add
  | constBinary op value b =>
      rw [Step.advance_eq points fun _ => rfl]
      apply (maintains_lookup truthful b).bind
      intro u s truthfulS _ right
      apply (maintains_const truthfulS u.tape value).bind
      intro v t truthfulT kept left
      exact (maintains_binary truthfulT op left (kept u right)).add
  | power a exponent =>
      rw [Step.advance_eq points fun _ => rfl]
      apply (maintains_lookup truthful a).bind
      intro u s truthfulS _ shows
      exact (maintains_power truthfulS shows (allowed a exponent rfl)).add
  | sum terms =>
      rw [Step.advance_eq points fun _ => rfl]
      apply (maintains_lookups truthful terms).bind
      intro vs s truthfulS _ all
      exact (maintains_sum truthfulS vs all).add
  | ifPositive test yes no =>
      rw [Step.advance_eq points fun _ => rfl]
      apply (maintains_lookup truthful test).bind
      intro u s truthfulS _ _
      exact (maintains_lookup truthfulS _).add

theorem maintains_steps (truthful : r.Truthful P points) (steps : List (Step α))
    (allowed : ∀ a exponent, Step.power a exponent ∈ steps → P exponent) :
    Maintains P (steps.forM step) points r (steps.foldl Step.advance points) fun _ _ => True := by
  induction steps generalizing r points with
  | nil => exact .pure truthful trivial
  | cons action steps ih =>
      apply (maintains_step truthful fun a exponent same => allowed a exponent (by simp [same])).bind
      intro _ s truthfulS _ _
      exact ih truthfulS fun a exponent member => allowed a exponent (by simp [member])

end Recorder

end AutoDiff
