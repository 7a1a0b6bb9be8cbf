import AutoDiff.Proofs.KernelValues

namespace AutoDiff

namespace Step

variable {α : Type}

def OnMain : Step α → Prop
  | independent tape _ => tape = .main
  | _ => True

def reads : Step α → List Nat
  | independent _ _ | const _ => []
  | constLike a _ | unary _ a | binaryConst _ a _ | power a _ => [a]
  | binary _ a b => [a, b]
  | constBinary _ _ b => [b]
  | sum terms => terms
  | ifPositive test yes no => [test, yes, no]

def examples : Step α → List α
  | independent _ values => values
  | _ => []

def made : Step α → Nat
  | independent _ values => values.length
  | _ => 1

/-- Steps on the main tape that refer to variables made before, of which there are `count` at first. -/
def Scoped : Nat → List (Step α) → Prop
  | _, [] => True
  | count, step :: steps => step.OnMain ∧ (∀ position ∈ step.reads, position < count) ∧ Scoped (count + step.made) steps

theorem Scoped.onMain {count : Nat} {steps : List (Step α)} (bound : Scoped count steps) {action : Step α}
    (member : action ∈ steps) : action.OnMain := by
  induction steps generalizing count with
  | nil => cases member
  | cons first rest ih =>
      obtain ⟨onMain, _, later⟩ := bound
      rcases List.mem_cons.mp member with rfl | among
      · exact onMain
      · exact ih later among

theorem OnMain.declared_main {action : Step α} (onMain : action.OnMain) : action.declared .main = action.examples := by
  cases action with
  | independent tape values =>
      obtain rfl : tape = .main := onMain
      rfl
  | const | constLike | unary | binary | binaryConst | constBinary | power | sum | ifPositive => rfl

end Step

namespace Recorder

variable {α : Type} {r s : Recording α} {tape : TapeName}

def OnMain (r : Recording α) : Prop := ∀ v ∈ r.recorded, v.tape = .main

/-- An action succeeds and makes a variable of a tape, which steps cannot refer to yet. -/
def Makes (action : Recorder α (Variable α)) (r : Recording α) (tape : TapeName) : Prop :=
  ∃ v next, action r = .ok (v, next) ∧ v.tape = tape ∧ next.recorded = r.recorded

theorem Makes.bind {action : Recorder α (Variable α)} {next : Variable α → Recorder α (Variable α)}
    (first : Makes action r tape)
    (second : ∀ v s, v.tape = tape → s.recorded = r.recorded → Makes (next v) s tape) :
    Makes (action >>= next) r tape := by
  obtain ⟨v, s, made, named, same⟩ := first
  obtain ⟨u, t, run, also, still⟩ := second v s named same
  exact ⟨u, t, (bind_of_eq_ok made next).trans run, also, still.trans same⟩

theorem makes_append (node : Node α) (value : α) : Makes (append tape node value) r tape :=
  ⟨_, _, rfl, rfl, Recording.recorded_setTrace ..⟩

theorem makes_input (value : α) : Makes (input tape value) r tape :=
  ⟨_, _, rfl, rfl, by simp⟩

theorem lookup_of_lt {position : Nat} (inside : position < r.recorded.size) :
    lookup position r = .ok (r.recorded[position], r) :=
  (lookup_eq_ok_iff position _).mpr ⟨Array.getElem?_eq_getElem inside, rfl⟩

section

variable (onMain : OnMain r)
include onMain

theorem makes_lookup {position : Nat} (inside : position < r.recorded.size) (same : s.recorded = r.recorded) :
    Makes (lookup position) s .main := by
  rw [← same] at inside
  exact ⟨_, s, lookup_of_lt inside, onMain _ (same ▸ Array.getElem_mem inside), rfl⟩

theorem exists_lookups {positions : List Nat} (inside : ∀ position ∈ positions, position < r.recorded.size) :
    ∃ vs, positions.mapM lookup r = .ok (vs, r) ∧ ∀ v ∈ vs, v.tape = .main := by
  induction positions with
  | nil => exact ⟨[], rfl, by simp⟩
  | cons position positions ih =>
      obtain ⟨vs, run, main⟩ := ih fun later member => inside later (by simp [member])
      have here : position < r.recorded.size := inside position (by simp)
      refine ⟨r.recorded[position] :: vs, ?_, ?_⟩
      · rw [List.mapM_cons, bind_of_eq_ok (lookup_of_lt here), bind_of_eq_ok run]
        rfl
      · exact List.forall_mem_cons.mpr ⟨onMain _ (Array.getElem_mem here), main⟩

theorem exists_add {action : Recorder α (Variable α)} (makes : Makes action r .main) :
    ∃ next, (action >>= addVariable) r = .ok ((), next) ∧ OnMain next ∧
      next.recorded.size = r.recorded.size + 1 := by
  obtain ⟨v, s, made, named, same⟩ := makes
  refine ⟨{ s with recorded := s.recorded.push v }, bind_of_eq_ok made addVariable, fun u member => ?_, by simp [same]⟩
  rcases Array.mem_push.mp member with old | rfl
  · exact onMain u (same ▸ old)
  · exact named

theorem exists_inputs (values : List α) :
    ∃ next, (values.forM fun value => do addVariable (← input .main value)) r = .ok ((), next) ∧ OnMain next ∧
      next.recorded.size = r.recorded.size + values.length := by
  induction values generalizing r with
  | nil => exact ⟨r, rfl, onMain, rfl⟩
  | cons value values ih =>
      obtain ⟨s, made, onMainS, one⟩ := exists_add onMain (makes_input value)
      obtain ⟨t, run, onMainT, rest⟩ := ih onMainS
      refine ⟨t, (bind_of_eq_ok made _).trans run, onMainT, ?_⟩
      rw [rest, one, List.length_cons]
      omega

end

variable [Arithmetic α]

theorem makes_binary (op : BinaryOp) {a b : Variable α} (left : a.tape = tape) (right : b.tape = tape) :
    Makes (binary op a b) r tape := by
  rw [binary, if_pos (left.trans right.symm), left]
  exact makes_append _ _

theorem makes_foldl_add {terms : List (Variable α)} (all : ∀ v ∈ terms, v.tape = tape) {first : Variable α}
    (named : first.tape = tape) : Makes (terms.foldlM (binary .add) first) r tape := by
  induction terms generalizing r first with
  | nil => exact ⟨first, r, rfl, named, rfl⟩
  | cons term terms ih =>
      rw [List.foldlM_cons]
      apply (makes_binary .add named (all term (by simp))).bind
      intro v s sum _
      exact ih (fun u member => all u (by simp [member])) sum

theorem makes_sum {terms : List (Variable α)} (all : ∀ v ∈ terms, v.tape = .main) : Makes (sum terms) r .main := by
  cases terms with
  | nil => exact makes_append _ _
  | cons first rest => exact makes_foldl_add (fun v member => all v (by simp [member])) (all first (by simp))

theorem exists_step (onMain : OnMain r) {action : Step α} (single : action.OnMain)
    (bound : ∀ position ∈ action.reads, position < r.recorded.size) :
    ∃ next, step action r = .ok ((), next) ∧ OnMain next ∧
      next.recorded.size = r.recorded.size + action.made := by
  cases action with
  | independent tape values =>
      obtain rfl : tape = .main := single
      exact exists_inputs onMain values
  | const value => exact exists_add onMain (makes_append _ _)
  | constLike a _ | unary _ a | power a _ =>
      simp only [step, ← bind_assoc]
      apply exists_add onMain
      apply (makes_lookup onMain (bound a (by simp [Step.reads])) rfl).bind
      intro u s main _
      exact main ▸ makes_append _ _
  | binary op a b =>
      simp only [step, ← bind_assoc]
      apply exists_add onMain
      apply (makes_lookup onMain (bound a (by simp [Step.reads])) rfl).bind
      intro u s left same
      apply (makes_lookup onMain (bound b (by simp [Step.reads])) same).bind
      intro v t right _
      exact makes_binary op left right
  | binaryConst op a value =>
      simp only [step, ← bind_assoc]
      apply exists_add onMain
      apply (makes_lookup onMain (bound a (by simp [Step.reads])) rfl).bind
      intro u s left _
      rw [left]
      apply (makes_append _ _).bind
      intro v t right _
      exact makes_binary op left right
  | constBinary op value b =>
      simp only [step, ← bind_assoc]
      apply exists_add onMain
      apply (makes_lookup onMain (bound b (by simp [Step.reads])) rfl).bind
      intro v s right _
      rw [right]
      apply (makes_append _ _).bind
      intro u t left _
      exact makes_binary op left right
  | sum terms =>
      have inside : ∀ position ∈ terms, position < r.recorded.size := bound
      obtain ⟨vs, found, main⟩ := exists_lookups onMain inside
      rw [step, bind_of_eq_ok found]
      exact exists_add onMain (makes_sum main)
  | ifPositive test yes no =>
      simp only [step, ← bind_assoc]
      apply exists_add onMain
      apply (makes_lookup onMain (bound test (by simp [Step.reads])) rfl).bind
      intro u s _ same
      refine makes_lookup onMain (bound _ ?_) same
      simp only [Step.reads]
      split <;> simp

/-- Steps one after the other. Each sees the variables of those before it. -/
theorem exists_steps (onMain : OnMain r) {steps : List (Step α)} (bound : Step.Scoped r.recorded.size steps) :
    ∃ next, steps.forM step r = .ok ((), next) ∧ OnMain next ∧
      next.recorded.size = r.recorded.size + (steps.map Step.made).sum := by
  induction steps generalizing r with
  | nil => exact ⟨r, rfl, onMain, rfl⟩
  | cons action steps ih =>
      obtain ⟨single, positions, rest⟩ := bound
      obtain ⟨s, made, onMainS, one⟩ := exists_step onMain single positions
      obtain ⟨t, run, onMainT, more⟩ := ih onMainS (one ▸ rest)
      refine ⟨t, (bind_of_eq_ok made _).trans run, onMainT, ?_⟩
      rw [more, one, List.map_cons, List.sum_cons, Nat.add_assoc]

end Recorder

open Recording Recorder

namespace Model

variable {α : Type} [Arithmetic α]

def given (m : Model α) : Nat := m.input.length + if m.parameterized then m.parameters.length else 0

theorem exists_start (m : Model α) :
    ∃ r, m.start {} = .ok ((), r) ∧ OnMain r ∧ r.recorded.size = m.given := by
  obtain ⟨s, made, onMain, size⟩ := exists_inputs (r := ({} : Recording α)) (by simp [OnMain]) (m.input ++ m.parameters)
  have count : s.recorded.size = m.input.length + m.parameters.length := by simpa using size
  unfold start given
  cases m.parameterized with
  | true => exact ⟨s, bind_of_eq_ok made _, onMain, count⟩
  | false =>
      refine ⟨{ s with recorded := s.recorded.extract 0 m.input.length }, bind_of_eq_ok made _, ?_, ?_⟩
      · intro v member
        obtain ⟨i, _, rfl⟩ := Array.mem_extract_iff_getElem.mp member
        exact onMain _ (Array.getElem_mem _)
      · simp [count]

theorem exists_run (m : Model α) (bound : Step.Scoped m.given m.body)
    (picked : ∀ position ∈ m.outputs, position < m.given + (m.body.map Step.made).sum) :
    ∃ outputs r, m.run.run {} = .ok (outputs, r) ∧ ∀ v ∈ outputs, v.tape = .main := by
  obtain ⟨r, started, onMain, size⟩ := m.exists_start
  obtain ⟨s, steps, onMainS, more⟩ := exists_steps onMain (size ▸ bound)
  rw [size] at more
  obtain ⟨outputs, found, main⟩ := exists_lookups onMainS (more ▸ picked)
  refine ⟨outputs, s, ?_, main⟩
  change m.run {} = .ok (outputs, s)
  rw [run_eq, bind_of_eq_ok started, bind_of_eq_ok steps, found]

end Model

variable {α : Type} [Arithmetic α]

/-- Whatever is recorded on one tape, the recorded trace passes its check with any variables as its outputs, each
declared input has one node, and the trace gives every variable the value that the variable carries. -/
theorem recording_faithful {steps : List (Step α)} (bound : Step.Scoped 0 steps) :
    ∃ r : Recording α, (steps.forM step).run {} = .ok ((), r) ∧
      r.recorded.size = (steps.map Step.made).sum ∧
      r.main.inputCount = (steps.flatMap Step.examples).length ∧
      (∀ index, index < r.main.inputCount → ∃! id : Nat, r.main.nodes[id]? = some (.input index)) ∧
      ∀ outputs : List (Variable α), (∀ v ∈ outputs, v ∈ r.recorded) →
        ({ r.main with outputs := outputs.map Variable.id } : Trace α).verify = .ok () ∧
        ({ r.main with outputs := outputs.map Variable.id } : Trace α).evaluate
          (steps.flatMap Step.examples).toArray #[] = some (.ok (outputs.map Variable.value).toArray) := by
  obtain ⟨r, run, onMain, size⟩ := exists_steps (r := {}) (by simp [OnMain]) bound
  obtain ⟨truthful, _, _⟩ := maintains_steps (P := fun _ => True) truthful_empty steps (fun _ _ _ => trivial) () r run
  have tape : Tape (fun _ => True) r.main := truthful.tape .main
  have point : steps.foldl Step.advance (fun _ => #[]) .main = (steps.flatMap Step.examples).toArray := by
    rw [Step.foldl_advance, Array.empty_append,
      List.flatMap_congr fun action member => (bound.onMain member).declared_main]
  have inputs : (steps.flatMap Step.examples).toArray.size = r.main.inputCount := point ▸ truthful.inputs .main
  refine ⟨r, run, by simpa using size, inputs.symm.trans List.size_toArray, fun index inside => ?_,
    fun outputs members => ?_⟩
  · obtain ⟨id, found⟩ := truthful.declared .main index inside
    exact ⟨id, found, fun second also => tape.distinct second id index also found⟩
  · have main (v : Variable α) (member : v ∈ outputs) := onMain v (members v member)
    have shown (v : Variable α) (member : v ∈ outputs) := truthful.shown v (members v member)
    have wellFormed := truthful.wellFormed main shown
    refine ⟨(Trace.verify_eq_ok_iff _).mpr wellFormed, ?_⟩
    obtain ⟨values, replay, _⟩ := truthful.exists_values? .main
    rw [← point]
    apply truthful.evaluate replay
    rw [List.forall₂_map_left_iff, List.forall₂_map_right_iff, List.forall₂_same]
    exact fun v member => (shown v member).value (main v member ▸ replay)

def interleaved : List (Step ℚ) :=
  [.independent .main [2, 3], .binary .mul 0 1, .constBinary .div 1 2, .independent .main [5], .ifPositive 3 4 0,
    .sum [5, 2, 1, 0]]

theorem recording_faithful_interleaved : Step.Scoped 0 interleaved ∧
    ∃ r : Recording ℚ, (interleaved.forM step).run {} = .ok ((), r) ∧ r.recorded.size = 7 ∧ r.main.inputCount = 3 ∧
      ({ r.main with outputs := r.recorded.toList.map Variable.id } : Trace ℚ).evaluate #[2, 3, 5] #[] =
        some (.ok (r.recorded.toList.map Variable.value).toArray) := by
  have bound : Step.Scoped 0 interleaved := by simp [interleaved, Step.Scoped, Step.OnMain, Step.reads, Step.made]
  obtain ⟨r, run, size, inputs, _, outputs⟩ := recording_faithful bound
  exact ⟨bound, r, run, size, inputs, (outputs r.recorded.toList fun v member => by simpa using member).2⟩

end AutoDiff
