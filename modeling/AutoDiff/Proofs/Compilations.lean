import AutoDiff.Proofs.StagedFiles

namespace AutoDiff

namespace Model

theorem valid_of_kernels {m : Model Binary64} {order : Order} {k : KernelSet Binary64}
    (made : m.kernels order = some (.ok k)) : k.Valid := by
  unfold kernels at made
  split at made
  · cases made
  · cases made
  · obtain ⟨other, _, result⟩ := Option.bind_eq_some_iff.mp made
    cases checked : other.validate with
    | error e => simp [checked, Except.map] at result
    | ok passed =>
        simp only [checked, Except.map, Option.pure_def, Option.some.injEq, Except.ok.injEq] at result
        rw [← result]
        exact other.validate_eq_ok_iff.mp checked

theorem run_kernelsLogged (m : Model Binary64) (order : Order) (h : Host) : ∃ result after,
    (m.kernelsLogged order).run.run h = (result, after) ∧ h.Becomes h.disk.entry? after ∧
      ∀ k, result = .ok k ↔ m.kernels order = some (.ok k) := by
  unfold kernelsLogged
  cases recorded : m.recorded with
  | error fault =>
      have none : m.kernels order = none := by simp [kernels, recorded]
      exact ⟨_, _, rfl, h.becomes_log h.log, by simp [none]⟩
  | ok result =>
      cases result with
      | error e =>
          have failed : m.kernels order = some (.error e) := by simp [kernels, recorded]
          exact ⟨_, _, rfl, h.becomes_log h.log, by simp [failed]⟩
      | ok t =>
          cases made : m.kernels order with
          | none => exact ⟨_, _, rfl, h.becomes_log h.log, by simp⟩
          | some kernels =>
              cases kernels with
              | error e => exact ⟨_, _, rfl, h.becomes_log _, by simp⟩
              | ok k => exact ⟨.ok k, _, rfl, h.becomes_log _, by simp⟩

end Model

namespace Host

variable {h after : Host} {directory : Path} {l : Location}

theorem Stores.of_becomes (stores : h.Stores directory l) (becomes : h.Becomes h.disk.entry? after) :
    after.Stores directory l := by
  constructor
  · exact becomes.obstacle.trans stores.willing
  · exact stores.passes
  · rw [becomes.workingDirectory]
    exact stores.reaches.mono fun m there => (becomes.entries m).trans there
  · intro below e some there
    exact stores.admits below e some ((becomes.entries _).symm.trans there)

theorem Stores.update_of_directory (stores : h.Stores directory l) (part : String) (e : Entry) {m : Location}
    (there : h.disk.entry? m = some .directory) :
    Function.update h.disk.entry? (l ++ [part]) (some e) m = some .directory := by
  have different : m ≠ l ++ [part] := by
    rintro rfl
    exact stores.ne_directory _ there
  rw [Function.update_of_ne different, there]

theorem Stores.of_update {name text : String} (stores : h.Stores directory l)
    (named : Artifact.isModelName name = true) (loads : KernelSet.Loads text)
    (becomes : h.Becomes (Function.update h.disk.entry? (l ++ [Artifact.fileName name])
      (some (.file (.ofText text) false))) after) : after.Stores directory l := by
  constructor
  · exact becomes.obstacle.trans stores.willing
  · exact stores.passes
  · rw [becomes.workingDirectory]
    exact stores.reaches.mono fun m there => (becomes.entries m).trans (stores.update_of_directory _ _ there)
  · intro below e some there
    rw [becomes.entries] at there
    by_cases same : below = [Artifact.fileName name]
    · rw [same, Function.update_self] at there
      exact ⟨name, text, named, same, (Option.some.inj there).symm, loads⟩
    · rw [Function.update_of_ne (by simpa using same)] at there
      exact stores.admits below e some there

end Host

namespace Backend

variable {h : Host} {directory : Path} {l : Location} {name : String}

theorem becomes_load (name : String) (generic : Path) (h : Host) :
    h.Becomes h.disk.entry? ((interpreted.load name generic).run.run h).2 := by
  rw [load, Artifact.run_openInterpreted]
  split
  · split
    · split
      · exact h.becomes_log h.log
      · split
        · exact h.becomes_log h.log
        · split
          · exact h.becomes_log h.log
          · exact h.becomes_log _
    · exact h.becomes_log h.log
  · exact h.becomes_log h.log

theorem load_iff {m : Location} {text : String} (named : Artifact.isModelName name = true)
    (located : h.disk.locate h.workingDirectory (Artifact.kernels (Artifact.generic name directory)) = .ok m)
    (there : h.disk.entry? m = some (.file (.ofText text) false)) :
    (∃ a, ((interpreted.load name (Artifact.generic name directory)).run.run h).1 = .ok a) ↔ KernelSet.Loads text := by
  have isFile : h.isFile (Artifact.kernels (Artifact.generic name directory)) = true :=
    Host.isFile_iff.mpr ⟨m, _, located, there, rfl⟩
  have read : h.disk.readText h.workingDirectory (Artifact.kernels (Artifact.generic name directory)) = .ok text := by
    simp [Disk.readText, Disk.read, Disk.find, located, there, bind, Except.bind, pure, Except.pure,
      Content.text?_ofText]
  unfold KernelSet.Loads
  rw [load, Artifact.run_openInterpreted, if_pos named, if_pos isFile, read]
  cases parsed : KernelSet.parse? text with
  | none => simp [parsed]
  | some k => cases loaded : k.toArtifact <;> simp [parsed, loaded]

end Backend

/-- A call that compiles a model and keeps its kernels as a file. -/
structure Compilation where
  model : Model Binary64
  name : String
  order : Order
  config : Config

namespace Compilation

def run (c : Compilation) : Job CompileError (CompiledModel Binary64) :=
  c.model.compile .interpreted c.name c.order c.config

def generic (c : Compilation) : Path := Artifact.generic c.name c.config.artifactDirectory

def path (c : Compilation) : Path := Artifact.kernels c.generic

def Writes (c : Compilation) (h : Host) (k : KernelSet Binary64) : Prop :=
  Artifact.isModelName c.name = true ∧ c.model.kernels c.order = some (.ok k) ∧
    (h.disk.locate h.workingDirectory c.path).isOk = true

variable {c : Compilation} {h : Host} {l : Location}

theorem Writes.located {k : KernelSet Binary64} (writes : c.Writes h k)
    (stores : h.Stores c.config.artifactDirectory l) :
    h.disk.locate h.workingDirectory c.path = .ok (l ++ [Artifact.fileName c.name]) := by
  obtain ⟨named, _, reached⟩ := writes
  cases located : h.disk.locate h.workingDirectory c.path with
  | error e =>
      rw [located] at reached
      cases reached
  | ok m =>
      obtain ⟨_, rfl⟩ := Artifact.of_locate_kernels stores.reaches named located
      rfl

def finish (c : Compilation) (k : KernelSet Binary64) : Job CompileError (CompiledModel Binary64) := do
  let path ← Backend.interpreted.generate c.name k c.generic c.config
  Job.record (if c.config.verbose then .info else .debug) s!"Compiled library to {path.text}"
  return ⟨← (Backend.interpreted.load c.name c.generic).adapt CompileError.load⟩

theorem run_finish (c : Compilation) (k : KernelSet Binary64) (h : Host) : (c.finish k).run.run h =
    match (Backend.generateInterpreted k c.path).run.run h with
    | (.error e, after) => (.error e, after)
    | (.ok _, after) =>
      let logged := { after with log := after.log ++
        [⟨if c.config.verbose then .info else .debug, s!"Compiled library to {c.path.text}"⟩] }
      (((Backend.interpreted.load c.name c.generic).run.run logged).1.map CompiledModel.mk |>.mapError CompileError.load,
        ((Backend.interpreted.load c.name c.generic).run.run logged).2) := by
  have generated : (Backend.interpreted.generate c.name k c.generic c.config).run.run h =
      match (Backend.generateInterpreted k c.path).run.run h with
      | (.error e, after) => (.error e, after)
      | (.ok _, after) => (.ok c.path, after) := by
    unfold Backend.generate
    have path : Backend.interpreted.artifactPath c.generic = c.path := rfl
    rw [path, Job.run_bind]
    cases (Backend.generateInterpreted k c.path).run.run h with
    | mk result after => cases result <;> rfl
  unfold finish
  rw [Job.run_bind, generated]
  cases (Backend.generateInterpreted k c.path).run.run h with
  | mk result after =>
      cases result with
      | error e => rfl
      | ok done =>
          simp only
          rw [Job.run_bind, Job.run_record]
          simp only
          rw [Job.run_bind, Job.run_adapt]
          generalize (Backend.interpreted.load c.name c.generic).run.run _ = loaded
          obtain ⟨result, final⟩ := loaded
          cases result <;> rfl

theorem run_of_not_named (c : Compilation) (h : Host) (wrong : Artifact.isModelName c.name = false) :
    c.run.run.run h = (.error (.invalidModelName c.name), h) := by
  unfold run Model.compile
  rw [wrong]
  rfl

theorem run_of_named (stores : h.Stores c.config.artifactDirectory l) (named : Artifact.isModelName c.name = true) :
    c.run.run.run h =
      match (c.model.kernelsLogged c.order).run.run h with
      | (.error e, after) => (.error e, after)
      | (.ok k, after) => (c.finish k).run.run after := by
  have made : ((Job.makeDirectories c.config.artifactDirectory).adapt
      (CompileError.createDirectory c.config.artifactDirectory)).run.run h = (.ok (), h) := by
    rw [Job.run_adapt, Job.run_makeDirectories stores]
    rfl
  unfold run Model.compile
  rw [named, if_pos rfl, Job.run_bind]
  simp only
  rw [made]
  simp only
  rw [Job.run_bind]
  cases (c.model.kernelsLogged c.order).run.run h with
  | mk result after => cases result <;> rfl

theorem run_of_not_writes (stores : h.Stores c.config.artifactDirectory l) (nothing : ∀ k, ¬ c.Writes h k) :
    ∃ e after, c.run.run.run h = (.error e, after) ∧ h.Becomes h.disk.entry? after := by
  cases named : Artifact.isModelName c.name with
  | false => exact ⟨_, h, c.run_of_not_named h named, h.becomes_log h.log⟩
  | true =>
      obtain ⟨result, logged, made, same, kernels⟩ := c.model.run_kernelsLogged c.order h
      rw [run_of_named stores named, made]
      cases result with
      | error e => exact ⟨e, logged, rfl, same⟩
      | ok k =>
          have way := stores.locate_of_becomes named same fun m there => there
          cases located : h.disk.locate h.workingDirectory c.path with
          | ok m => exact absurd ⟨named, (kernels k).mp rfl, by rw [located]; rfl⟩ (nothing k)
          | error e =>
              obtain ⟨e, after, generated, final⟩ :=
                Backend.run_generateInterpreted_of_error (stores.of_becomes same) named (way.trans located) k
              refine ⟨e, after, ?_, (same.trans final).congr same.entries⟩
              simp only [run_finish]
              rw [show (Backend.generateInterpreted k c.path).run.run logged = _ from generated]

/-- A call that writes kernels succeeds exactly if their text loads. The file of its name holds them either way. -/
theorem run_of_writes {k : KernelSet Binary64} (stores : h.Stores c.config.artifactDirectory l) (writes : c.Writes h k) :
    ∃ result after, c.run.run.run h = (result, after) ∧
      h.Becomes (Function.update h.disk.entry? (l ++ [Artifact.fileName c.name])
        (some (.file (.ofText k.toJson.pretty) false))) after ∧
      ((∃ m, result = .ok m) ↔ KernelSet.Loads k.toJson.pretty) := by
  have located := writes.located stores
  obtain ⟨named, made, _⟩ := writes
  obtain ⟨result, logged, logs, same, kernels⟩ := c.model.run_kernelsLogged c.order h
  obtain rfl := (kernels k).mpr made
  have way := stores.locate_of_becomes named same fun m there => there
  obtain ⟨written, generated, writes⟩ :=
    Backend.run_generateInterpreted (stores.of_becomes same) named (way.trans located) k
  rw [funext same.entries] at writes
  have final := same.trans writes
  have place := (stores.locate_of_becomes named final fun m there => stores.update_of_directory _ _ there).trans located
  have run : c.run.run.run h = _ := run_of_named stores named
  simp only [logs, run_finish] at run
  rw [show (Backend.generateInterpreted k c.path).run.run logged = _ from generated] at run
  simp only at run
  generalize written.log ++ _ = log at run
  have noted := final.trans (written.becomes_log log)
  have loads := Backend.becomes_load c.name c.generic { written with log }
  have iff := @Backend.load_iff { written with log } _ _ _ k.toJson.pretty named place
    ((final.entries _).trans (Function.update_self _ _ _))
  refine ⟨_, _, run, (noted.trans loads).congr final.entries, Iff.trans ?_ iff⟩
  change (∃ m, (((Backend.interpreted.load c.name c.generic).run.run { written with log }).1.map
    CompiledModel.mk).mapError CompileError.load = .ok m) ↔
      ∃ a, ((Backend.interpreted.load c.name c.generic).run.run { written with log }).1 = .ok a
  cases ((Backend.interpreted.load c.name c.generic).run.run { written with log }).1 with
  | error e => simp [Except.map]
  | ok a => simp [Except.map]

/-- A call that fails leaves the file of its name as it was. -/
def Spares (c : Compilation) (h : Host) : Prop :=
  ∀ e, (c.run.run.run h).1 = .error e →
    (c.run.run.run h).2.disk.find (c.run.run.run h).2.workingDirectory c.path = h.disk.find h.workingDirectory c.path

end Compilation

namespace Host

def AllLoad (h : Host) (directory : Path) : Prop :=
  ∀ name, Backend.interpreted.artifactExists h name directory = true →
    ∃ a, ((Backend.interpreted.load name (Artifact.generic name directory)).run.run h).1 = .ok a

/-- What is promised of calls one after the other. -/
def Keeps (directory : Path) : Host → List Compilation → Prop
  | _, [] => True
  | h, c :: rest => c.Spares h ∧ (c.run.run.run h).2.AllLoad directory ∧ Keeps directory (c.run.run.run h).2 rest

/-- A directory without anything in it, on a machine that refuses nothing. -/
structure IsEmptyDirectory (h : Host) (directory : Path) (l : Location) : Prop where
  willing : h.obstacle = fun _ => none
  located : h.disk.locate h.workingDirectory (Disk.here directory) = .ok l
  there : h.disk.entry? l = some .directory
  nothing : ∀ below, below ≠ [] → h.disk.entry? (l ++ below) = none

variable {h : Host} {directory : Path} {l : Location}

theorem IsEmptyDirectory.stores (empty : h.IsEmptyDirectory directory l) : h.Stores directory l := by
  obtain ⟨passes, reaches⟩ := (Disk.locate_here_iff empty.there).mp empty.located
  constructor
  · exact empty.willing
  · exact passes
  · exact reaches
  · intro below e some there
    rw [empty.nothing below some] at there
    cases there

theorem Stores.writes_iff {after : Host} {c : Compilation} (stores : h.Stores directory l) (stores' : after.Stores directory l)
    (same : c.config.artifactDirectory = directory) (k : KernelSet Binary64) : c.Writes h k ↔ c.Writes after k := by
  subst same
  unfold Compilation.Writes Compilation.path Compilation.generic
  refine and_congr_right fun named => ?_
  rw [Artifact.locate_kernels stores.reaches named, Artifact.locate_kernels stores'.reaches named]

theorem Stores.keeps_call_iff {c : Compilation} (stores : h.Stores directory l)
    (same : c.config.artifactDirectory = directory) :
    ((c.Spares h ∧ (c.run.run.run h).2.AllLoad directory) ↔ ∀ k, c.Writes h k → KernelSet.Loads k.toJson.pretty) ∧
      ((∀ k, c.Writes h k → KernelSet.Loads k.toJson.pretty) → (c.run.run.run h).2.Stores directory l) := by
  subst same
  by_cases writes : ∃ k, c.Writes h k
  · obtain ⟨k, writes⟩ := writes
    obtain ⟨result, after, run, becomes, loads⟩ := Compilation.run_of_writes stores writes
    have only (other : KernelSet Binary64) (also : c.Writes h other) : other = k := by
      simpa using also.2.1.symm.trans writes.2.1
    have all : (∀ k, c.Writes h k → KernelSet.Loads k.toJson.pretty) ↔ KernelSet.Loads k.toJson.pretty := by
      constructor
      · exact fun each => each k writes
      · intro loads other also
        rwa [only other also]
    rw [all, run]
    have kept := fun loads => stores.of_update writes.1 loads becomes
    refine ⟨⟨fun ⟨_, allLoad⟩ => ?_, fun loads' => ⟨?_, ?_⟩⟩, kept⟩
    · have place := (stores.locate_of_becomes writes.1 becomes fun m there =>
        stores.update_of_directory _ _ there).trans (writes.located stores)
      have there := (becomes.entries _).trans (Function.update_self _ _ _)
      exact (Backend.load_iff writes.1 place there).mp (allLoad c.name (isFile_iff.mpr ⟨_, _, place, there, rfl⟩))
    · intro e failed
      obtain ⟨m, succeeded⟩ := loads.mpr loads'
      rw [run, succeeded] at failed
      cases failed
    · exact fun name found => (kept loads').load_of_artifactExists found
  · have nothing : ∀ k, ¬ c.Writes h k := not_exists.mp writes
    obtain ⟨e, after, run, becomes⟩ := Compilation.run_of_not_writes stores nothing
    have kept := stores.of_becomes becomes
    rw [run]
    refine ⟨⟨fun _ k also => absurd also (nothing k), fun _ => ⟨?_, ?_⟩⟩, fun _ => kept⟩
    · intro _ _
      rw [run, becomes.workingDirectory]
      exact Disk.find_congr becomes.entries c.path
    · exact fun name found => kept.load_of_artifactExists found

theorem Stores.keeps_iff (stores : h.Stores directory l) {calls : List Compilation}
    (same : ∀ c ∈ calls, c.config.artifactDirectory = directory) :
    Keeps directory h calls ↔ ∀ c ∈ calls, ∀ k, c.Writes h k → KernelSet.Loads k.toJson.pretty := by
  induction calls generalizing h with
  | nil => simp [Keeps]
  | cons c calls ih =>
      obtain ⟨call, preserved⟩ := stores.keeps_call_iff (same c List.mem_cons_self)
      rw [Keeps, ← and_assoc, call, List.forall_mem_cons]
      refine and_congr_right fun loads => ?_
      have after := preserved loads
      have rest : ∀ c ∈ calls, c.config.artifactDirectory = directory := fun c member => same c (List.mem_cons_of_mem _ member)
      rw [ih after rest]
      refine forall₂_congr fun other member => forall_congr' fun k => ?_
      rw [stores.writes_iff after (rest other member)]

end Host

/-- Starting from an empty directory, a failed call leaves the earlier artifact alone and every artifact that is
there loads, exactly if no kernels that are written mention a constant that JSON has no numeral for. -/
theorem Host.keeps_iff_readable {h : Host} {directory : Path} {l : Location} (empty : h.IsEmptyDirectory directory l)
    (calls : List Compilation) (same : ∀ c ∈ calls, c.config.artifactDirectory = directory)
    (sized : ∀ c ∈ calls, ∀ k, c.model.kernels c.order = some (.ok k) → k.Sized) :
    Keeps directory h calls ↔
      ∀ c ∈ calls, ∀ k, c.Writes h k → ∀ constant, k.Mentions constant → KernelSet.Readable constant := by
  rw [empty.stores.keeps_iff same]
  refine forall₂_congr fun c member => forall₂_congr fun k writes => ?_
  exact KernelSet.loads_pretty_iff (Model.valid_of_kernels writes.2.1) (sized c member k writes.2.1)

def Host.bare : Host where
  disk := ⟨[(["out"], .directory)]⟩
  launcher := fun _ _ _ _ _ => .error .notFound

def Compilation.sample (body : List (Step Binary64)) (output : Nat) : Compilation where
  model := { input := [⟨0⟩], body, outputs := [output] }
  name := "m"
  order := .zeroth
  config := .inDirectory ⟨"out"⟩

def KernelSet.single (node : Node Binary64) : KernelSet Binary64 where
  order := .zeroth
  inputSize := 1
  outputSize := 1
  parameterSize := 0
  forward := { nodes := #[node], inputCount := 1, weightCount := 0, outputs := [0] }
  jacobian := none
  hessian := none

theorem KernelSet.sized_single (node : Node Binary64) : (single node).Sized := by
  have one : 1 < UInt64.size := by decide
  have zero : 0 < UInt64.size := by decide
  constructor
  · exact one
  · exact zero
  · exact one
  · exact ⟨one, one, zero⟩
  · simp [single]
  · simp [single]

theorem Compilation.kernels_of_toOption {c : Compilation} {node : Node Binary64}
    (made : (c.model.kernels c.order).bind Except.toOption = some (.single node)) :
    c.model.kernels c.order = some (.ok (.single node)) := by
  cases kernels : c.model.kernels c.order with
  | none => simp [kernels] at made
  | some result => cases result <;> simp_all [Except.toOption]

theorem Host.bare_isEmptyDirectory : bare.IsEmptyDirectory ⟨"out"⟩ ["out"] := by
  constructor
  · rfl
  · rfl
  · rfl
  · intro below some
    have different : (["out"] ++ below == ["out"]) = false := by simpa using some
    simp only [bare, Disk.entry?, List.lookup_cons, different]
    rfl

theorem Compilation.kernels_copy :
    (sample [] 0).model.kernels .zeroth = some (.ok (.single (.input 0))) :=
  kernels_of_toOption (c := sample [] 0) (by decide +kernel)

theorem Compilation.kernels_infinite :
    (sample [.constLike 0 .infinity] 1).model.kernels .zeroth = some (.ok (.single (.const .infinity))) :=
  kernels_of_toOption (c := sample [.constLike 0 .infinity] 1) (by decide +kernel)

def Binary64.tenth : Binary64 := ⟨0x3fb999999999999a⟩

theorem Compilation.kernels_tenth :
    (sample [.constLike 0 .tenth] 1).model.kernels .zeroth = some (.ok (.single (.const .tenth))) :=
  kernels_of_toOption (c := sample [.constLike 0 .tenth] 1) (by decide +kernel)

def Compilation.silent : Compilation where
  model := { input := [⟨0⟩], body := [], outputs := [] }
  name := "m"
  order := .zeroth
  config := .inDirectory ⟨"out"⟩

theorem Compilation.kernels_silent : silent.model.kernels .zeroth = some (.error .emptyOutput) := rfl

/-- A model that copies its input, one that gives out a tenth, and one that cannot be compiled, all under one
name. -/
theorem Host.keeps_tenth :
    Keeps ⟨"out"⟩ bare [.sample [] 0, .sample [.constLike 0 .tenth] 1, .silent, .sample [] 0] := by
  have made (c : Compilation) (member : c ∈ [.sample [] 0, .sample [.constLike 0 .tenth] 1, .silent, .sample [] 0])
      (k : KernelSet Binary64) (kernels : c.model.kernels c.order = some (.ok k)) :
      k = .single (.input 0) ∨ k = .single (.const .tenth) := by
    simp only [List.mem_cons, List.not_mem_nil, or_false] at member
    rcases member with rfl | rfl | rfl | rfl
    · exact .inl (by simpa using kernels.symm.trans Compilation.kernels_copy)
    · exact .inr (by simpa using kernels.symm.trans Compilation.kernels_tenth)
    · cases kernels.symm.trans Compilation.kernels_silent
    · exact .inl (by simpa using kernels.symm.trans Compilation.kernels_copy)
  apply (keeps_iff_readable bare_isEmptyDirectory _
    (by simp [Compilation.sample, Compilation.silent, Config.inDirectory]) ?_).mpr
  · rintro c member k ⟨-, kernels, -⟩ constant ⟨t, isForward | absent | absent, inside⟩
    · obtain rfl := isForward
      rcases made c member k kernels with rfl | rfl
      · simp [KernelSet.single] at inside
      · obtain rfl : constant = .tenth := by simpa [KernelSet.single] using inside
        exact ⟨by decide, by decide +kernel⟩
    · rcases made c member k kernels with rfl | rfl <;> cases absent
    · rcases made c member k kernels with rfl | rfl <;> cases absent
  · intro c member k kernels
    rcases made c member k kernels with rfl | rfl <;> exact KernelSet.sized_single _

/-- One that gives out an infinite constant, compiled under the same name, takes the artifact away. -/
theorem Host.not_keeps_infinite :
    ¬ Keeps ⟨"out"⟩ bare [.sample [] 0, .sample [.constLike 0 .infinity] 1] := by
  intro kept
  have loads := (bare_isEmptyDirectory.stores.keeps_iff (by simp [Compilation.sample, Config.inDirectory])).mp kept
  have writes : (Compilation.sample [.constLike 0 .infinity] 1).Writes bare (.single (.const .infinity)) :=
    ⟨by decide, Compilation.kernels_infinite, by decide +kernel⟩
  have readable := (KernelSet.loads_pretty_iff (Model.valid_of_kernels writes.2.1)
    (KernelSet.sized_single _)).mp (loads _ (by simp) _ writes)
  have finite := (readable .infinity ⟨_, .inl rfl, by simp [KernelSet.single]⟩).1
  cases finite

end AutoDiff
