import AutoDiff.Proofs.Refusals
import AutoDiff.Proofs.Usability

namespace AutoDiff

/-- A program that writes no file but its output, and makes no directory. -/
structure Launcher.WritesOutput (launcher : Launcher) : Prop where
  elsewhere : ∀ {t : Toolchain} {source output : String} {environment : List (String × String)} {directory : Location}
    {before after : Disk} {process : Process},
    launcher t.compiler (t.arguments source output) environment directory before = .ok (process, after) →
      ∀ l, before.locate directory ⟨output⟩ ≠ .ok l → after.entry? l = before.entry? l
  directories : ∀ {t : Toolchain} {source output : String} {environment : List (String × String)} {directory : Location}
    {before after : Disk} {process : Process},
    launcher t.compiler (t.arguments source output) environment directory before = .ok (process, after) →
      ∀ l, after.entry? l = some .directory → before.entry? l = some .directory

def Toolchain.Makes (t : Toolchain) (h : Host) (source : Content) (e : Entry) : Prop :=
  ∃ input output before process after, before.entry? input = some (.file source false) ∧
    before.entry? output = some (.file .empty false) ∧
    h.launcher t.compiler (t.arguments (locationText input) (locationText output)) h.environment h.workingDirectory before =
      .ok (process, after) ∧
    process.status.isSuccess = true ∧ after.entry? output = some e

namespace Artifact

def IsStaged (p : Path) : Prop := ∃ part, p.parts.getLast? = some part ∧ stagedMark.toList <+: part.toList

theorem ne_staged {directory : Path} {file : String} (named : Path.IsName file)
    (unstaged : ¬ IsStaged (directory.join file)) (l m : Location) (suffix : String) (n : Nat) :
    l ++ [file] ≠ m ++ [Disk.stagedName stagedMark suffix n] := by
  intro same
  apply unstaged
  refine ⟨file, ?_, ?_⟩
  · rw [Path.parts_join, Path.splitSlashes_of_not_mem named.2.2]
    simp
  · have name : file = Disk.stagedName stagedMark suffix n := by
      simpa using congrArg List.getLast? same
    simp [name, Disk.stagedName]

def UnderConstruction (h : Host) (path : Path) (t : Location) : Prop :=
  ∃ l n, t = l ++ [Disk.stagedName stagedMark librarySuffix n] ∧
    h.disk.Reaches h.workingDirectory (path.parent?.getD ⟨""⟩).folders l

theorem UnderConstruction.mono {h between : Host} {path : Path} {t : Location}
    (under : UnderConstruction between path t) (same : between.workingDirectory = h.workingDirectory)
    (kept : ∀ l, between.disk.entry? l = some .directory → h.disk.entry? l = some .directory) :
    UnderConstruction h path t := by
  obtain ⟨l, n, rfl, reaches⟩ := under
  rw [same] at reaches
  exact ⟨l, n, rfl, reaches.mono kept⟩

/-- A library under construction makes no difference to what the path of the library leads to. -/
theorem UnderConstruction.find {h : Host} {directory : Path} {file : String} {t : Location} {other : Disk}
    {left : Option Entry} (under : UnderConstruction h (directory.join file) t) (named : Path.IsName file)
    (unstaged : ¬ IsStaged (directory.join file)) (fresh : h.disk.entry? t = none)
    (entries : ∀ m, other.entry? m = Function.update h.disk.entry? t left m) :
    other.find h.workingDirectory (directory.join file) = h.disk.find h.workingDirectory (directory.join file) := by
  obtain ⟨l, n, rfl, around⟩ := under
  have apart := ne_staged named unstaged l l librarySuffix n
  obtain ⟨led, down, plain⟩ := named
  obtain ⟨parent, found, folders, _⟩ := directory.exists_parent plain led
  rw [found, Option.getD_some, folders] at around
  have reaches := around.of_trail
  have still : other.Reaches h.workingDirectory directory.folders l := by
    apply reaches.mono
    intro m there
    have different : m ≠ l ++ [Disk.stagedName stagedMark librarySuffix n] := by
      rintro rfl
      rw [fresh] at there
      cases there
    rw [entries, Function.update_of_ne different, there]
  unfold Disk.find
  rw [Disk.locate_file reaches plain led down, Disk.locate_file still plain led down]
  cases Disk.checkPath (directory.join file) with
  | error e => rfl
  | ok passed =>
      simp only [Except.bind]
      split
      · rfl
      · simp only [bind, Except.bind, entries, Function.update_of_ne apart]

end Artifact

namespace Host

variable {h : Host} {s : Location} {final : Location → Entry → Prop} {view : Location → Option Entry}

theorem Becomes.locate {between : Host} {left : Option Entry} {p : Path} {l : Location}
    (becomes : h.Becomes (Function.update h.disk.entry? s left) between) (file : left ≠ some .directory)
    (located : between.disk.locate between.workingDirectory p = .ok l) :
    h.disk.locate h.workingDirectory p = .ok l := by
  rw [becomes.workingDirectory] at located
  refine Disk.locate_mono (fun m there => ?_) located
  rw [becomes.entries] at there
  by_cases same : m = s
  · rw [same, Function.update_self] at there
    exact absurd there file
  · rwa [Function.update_of_ne same] at there

end Host

namespace Job

variable {ε : Type} [Holds ε] {h between : Host} {s : Location} {left : Option Entry} {stuck : Location → Prop}
  {final : Location → Entry → Prop}

theorem leaves_persist (named : s ≠ []) (path : Path) (report : PersistError → ε)
    (holds : ∀ e, Holds.held? (report ⟨e, s⟩) = none ∨ Holds.held? (report ⟨e, s⟩) = some s ∧ stuck s)
    (becomes : h.Becomes (Function.update h.disk.entry? s left) between) (file : left ≠ some .directory)
    (apart : ∀ l, h.disk.locate h.workingDirectory path = .ok l → l ≠ s)
    (made : ∀ l e, h.disk.locate h.workingDirectory path = .ok l → left = some e → final l e) :
    h.Leaves s stuck final (((persist s path).adapt report).run.run between) := by
  have there : between.disk.entry? s = left := by rw [becomes.entries, Function.update_self]
  rw [run_adapt]
  rcases persist_cases named path between (there ▸ file) with
    ⟨e, run⟩ | ⟨l, e, after, located, present, free, run, moves⟩
  · rw [run]
    exact .failed _ between left (holds e) file becomes
  · rw [run]
    have before := becomes.locate file located
    have other := apart l before
    rw [becomes.entries, Function.update_of_ne other] at free
    refine .done () after none (by simp) l e (made l e before (there ▸ present)) other free ?_
    refine (becomes.trans moves).congr fun m => ?_
    rw [funext becomes.entries, Function.update_idem]

end Job

namespace Toolchain

variable {h first : Host} {s input : Location} {source : Content} {output : Path}

def link (t : Toolchain) (input : Location) (output : Path) (staged : Location) : Job ToolchainError Unit := do
  let process ← (t.launch input staged).adapt (.spawn t.compiler)
  let errors := errorText? process
  unless process.status.isSuccess do throw (.failed t.compiler process.status errors)
  let warnings := errors.getD ""
  unless warnings.isEmpty do Job.record .warn s!"{t.compiler.text}: {warnings}"
  (Job.persist staged output).adapt ToolchainError.persist

theorem compileShared_eq (t : Toolchain) (source : Content) (output : Path) : t.compileShared source output =
    Job.withStaged .io ⟨"/tmp"⟩ "adcg-" ".c" (fun input => do
      (Job.fill input source).adapt ToolchainError.io
      Job.withStaged .io (output.parent?.getD ⟨""⟩) Artifact.stagedMark Artifact.librarySuffix (t.link input output)) :=
  rfl

theorem launch_cases (t : Toolchain) (plain : Disk.Plain s) (confined : h.launcher.WritesOutput) (input : Location)
    (becomes : h.Becomes (Function.update h.disk.entry? s (some (.file .empty false))) first) :
    (∃ e, (t.launch input s).run.run first = (.error e, first)) ∨
      ∃ process after left, (t.launch input s).run.run first = (.ok process, after) ∧ left ≠ some .directory ∧
        h.Becomes (Function.update h.disk.entry? s left) after ∧ left = after.disk.entry? s ∧
        h.launcher t.compiler (t.arguments (locationText input) (locationText s)) h.environment h.workingDirectory
          first.disk = .ok (process, after.disk) := by
  rcases Job.act_cases (.launch t.compiler) (fun h => h.launcher t.compiler
      (t.arguments (locationText input) (locationText s)) h.environment h.workingDirectory h.disk) first with
    failed | ⟨process, disk, launched, run⟩
  · exact .inl failed
  · rw [becomes.machine] at launched
    have there : first.disk.entry? s = some (.file .empty false) := by rw [becomes.entries, Function.update_self]
    refine .inr ⟨process, _, disk.entry? s, run, fun directory => ?_, ⟨?_, fun m => ?_⟩, rfl, launched⟩
    · have before := confined.directories launched s directory
      simp [there] at before
    · rw [becomes.machine]
    · by_cases same : m = s
      · rw [same, Function.update_self]
      · have elsewhere := confined.elsewhere launched m fun located =>
          same (Disk.eq_of_locate_locationText plain located)
        rw [Function.update_of_ne same]
        rw [elsewhere, becomes.entries, Function.update_of_ne same]

theorem leaves_link (t : Toolchain) (named : s ≠ []) (plain : Disk.Plain s) (confined : h.launcher.WritesOutput)
    (given : h.disk.entry? input = some (.file source false)) (apart : input ≠ s)
    (under : Artifact.UnderConstruction h output s)
    (becomes : h.Becomes (Function.update h.disk.entry? s (some (.file .empty false))) first)
    (outside : ∀ l, h.disk.locate h.workingDirectory output = .ok l → l ≠ s) :
    h.Leaves s (Artifact.UnderConstruction h output)
      (fun l e => h.disk.locate h.workingDirectory output = .ok l ∧ t.Makes h source e) ((t.link input output s).run.run first) := by
  unfold link
  rw [Job.run_bind, Job.run_adapt]
  rcases t.launch_cases plain confined input becomes with ⟨e, run⟩ | ⟨process, after, left, run, file, changed, content, launched⟩
  · rw [run]
    exact .failed _ first _ (.inl rfl) (by simp) becomes
  · rw [run]
    simp only [mapError_ok]
    cases success : process.status.isSuccess with
    | false => exact .failed _ after left (.inl rfl) file changed
    | true =>
        have read : first.disk.entry? input = some (.file source false) := by
          rw [becomes.entries, Function.update_of_ne apart, given]
        have empty : first.disk.entry? s = some (.file .empty false) := by rw [becomes.entries, Function.update_self]
        have moves (log : List LogLine) := Job.leaves_persist named output ToolchainError.persist
          (fun _ => .inr ⟨rfl, under⟩) ((changed.trans (after.becomes_log log)).congr changed.entries) file outside fun l e located made =>
            (⟨located, input, s, first.disk, process, after.disk, read, empty, launched, success, content ▸ made⟩ :
              h.disk.locate h.workingDirectory output = .ok l ∧ t.Makes h source e)
        cases quiet : ((errorText? process).getD "").isEmpty with
        | true => exact moves after.log
        | false => exact moves _

theorem Makes.of_becomes {t : Toolchain} {view : Location → Option Entry} {e : Entry} (becomes : h.Becomes view first)
    (makes : t.Makes first source e) : t.Makes h source e := by
  rwa [becomes.machine] at makes

theorem settles_link (t : Toolchain) {directory : Path} {file : String} (named : Path.IsName file)
    (unstaged : ¬ Artifact.IsStaged (directory.join file)) (confined : h.launcher.WritesOutput)
    (plain : Disk.Plain h.workingDirectory) (given : h.disk.entry? input = some (.file source false)) :
    h.Settles (Artifact.UnderConstruction h (directory.join file))
      (fun l e => h.disk.locate h.workingDirectory (directory.join file) = .ok l ∧ t.Makes h source e)
      ((Job.withStaged .io ((directory.join file).parent?.getD ⟨""⟩) Artifact.stagedMark Artifact.librarySuffix
        (t.link input (directory.join file))).run.run h) := by
  have mark : '/' ∉ Artifact.stagedMark.toList := by decide
  have suffix : '/' ∉ Artifact.librarySuffix.toList := by decide
  have dash : '-' ∈ Artifact.stagedMark.toList := by decide
  apply Job.settles_withStaged mark suffix dash _ fun _ => rfl
  intro l n first reaches free becomes
  have apart : input ≠ l ++ [Disk.stagedName Artifact.stagedMark Artifact.librarySuffix n] := by
    rintro rfl
    simp [free] at given
  have written : Disk.Plain (l ++ [Disk.stagedName Artifact.stagedMark Artifact.librarySuffix n]) := by
    intro part member
    rcases List.mem_append.mp member with above | last
    · exact reaches.plain plain part above
    · rw [List.mem_singleton.mp last]
      exact Disk.isName_stagedName mark suffix dash n
  apply t.leaves_link (by simp) written confined given apart ⟨l, n, rfl, reaches⟩ becomes
  intro m located
  obtain ⟨k, _, rfl⟩ := Disk.of_locate_file named located
  exact Artifact.ne_staged named unstaged k l Artifact.librarySuffix n

theorem library_ne_staged (base : String) (l m : Location) (n : Nat) :
    l ++ [base ++ Artifact.librarySuffix] ≠ m ++ [Disk.stagedName "adcg-" ".c" n] := by
  intro same
  have name : base ++ Artifact.librarySuffix = "adcg-" ++ toString n ++ ".c" := by
    simpa [Disk.stagedName] using congrArg List.getLast? same
  have ends := congrArg (fun text : String => text.toList.getLast?) name
  simp only [String.toList_append] at ends
  rw [List.getLast?_append_of_ne_nil _ (by decide), List.getLast?_append_of_ne_nil _ (by decide)] at ends
  exact absurd ends (by decide)

/-- A library is built as a whole or not at all, and nothing else is left but what the error holds. -/
theorem settles_compileShared (t : Toolchain) (source : Content) {directory : Path} {base : String}
    (named : Path.IsName (base ++ Artifact.librarySuffix))
    (unstaged : ¬ Artifact.IsStaged (directory.join (base ++ Artifact.librarySuffix)))
    (confined : h.launcher.WritesOutput) (plain : Disk.Plain h.workingDirectory) :
    h.Settles (Artifact.UnderConstruction h (directory.join (base ++ Artifact.librarySuffix)))
      (fun l e => h.disk.locate h.workingDirectory (directory.join (base ++ Artifact.librarySuffix)) = .ok l ∧
        t.Makes h source e)
      ((t.compileShared source (directory.join (base ++ Artifact.librarySuffix))).run.run h) := by
  rw [compileShared_eq]
  apply Job.settles_withStaged (by decide) (by decide) (by decide) _ fun _ => rfl
  intro l n first _ free becomes
  have outside : ∀ m, h.disk.locate h.workingDirectory (directory.join (base ++ Artifact.librarySuffix)) = .ok m →
      m ≠ l ++ [Disk.stagedName "adcg-" ".c" n] := by
    intro m located
    obtain ⟨k, _, rfl⟩ := Disk.of_locate_file named located
    exact library_ne_staged base k l n
  generalize place : l ++ [Disk.stagedName "adcg-" ".c" n] = input at free becomes outside ⊢
  have inside : input ≠ [] := by simp [← place]
  apply Job.leaves_fill inside _ (fun _ => rfl) _ becomes
  intro second filled
  have given : second.disk.entry? input = some (.file source false) := by rw [filled.entries, Function.update_self]
  have same : second.launcher = h.launcher := by rw [filled.machine]
  -- The staged source is still there while the library is linked.
  have settles := @settles_link second input source t directory _ named unstaged (same ▸ confined)
    (filled.workingDirectory ▸ plain) given
  have directories (m : Location) (there : second.disk.entry? m = some .directory) :
      h.disk.entry? m = some .directory := by
    have different : m ≠ input := by
      rintro rfl
      simp [given] at there
    rwa [filled.entries, Function.update_of_ne different] at there
  have loosened := settles.mono (fun t under => under.mono filled.workingDirectory directories) fun _ _ made => made
  refine loosened.leaves filled (by simp) fun m e made => ?_
  have located := filled.locate (by simp) made.1
  exact ⟨outside m located, located, made.2.of_becomes filled⟩

end Toolchain

namespace Backend

variable {h : Host}

theorem settles_generateInterpreted (k : KernelSet Binary64) {directory : Path} {file : String}
    (named : Path.IsName file) (unstaged : ¬ Artifact.IsStaged (directory.join file)) :
    h.Settles (fun _ => False) (fun l e => h.disk.locate h.workingDirectory (directory.join file) = .ok l ∧
        e = .file (.ofText k.toJson.pretty) false)
      ((generateInterpreted k (directory.join file)).run.run h) := by
  apply Job.settles_withStaged (by decide) (by decide) (by decide) _ fun _ => rfl
  intro l n first _ free becomes
  have outside : ∀ m, h.disk.locate h.workingDirectory (directory.join file) = .ok m →
      m ≠ l ++ [Disk.stagedName Artifact.stagedMark ".json" n] := by
    intro m located
    obtain ⟨k, _, rfl⟩ := Disk.of_locate_file named located
    exact Artifact.ne_staged named unstaged k l ".json" n
  generalize place : l ++ [Disk.stagedName Artifact.stagedMark ".json" n] = s at free becomes outside ⊢
  have inside : s ≠ [] := by simp [← place]
  apply Job.leaves_fill inside _ (fun _ => rfl) _ becomes
  intro second filled
  apply Job.leaves_persist inside _ _ (fun _ => .inl rfl) filled (by simp) outside
  intro m e located made
  exact ⟨located, (Option.some.inj made).symm⟩

/-- Where the source of a model is kept, if it is. -/
def KeepsSource (b : Backend) (h : Host) (generic : Path) (c : Config) (l : Location) : Prop :=
  b = native ∧ c.keepSources = true ∧ h.disk.locate h.workingDirectory (Artifact.source generic) = .ok l

/-- What the disk shows when the artifact itself is begun. -/
inductive Begins (b : Backend) (h : Host) (generic : Path) (c : Config) : (Location → Option Entry) → Prop where
  | untouched : Begins b h generic c h.disk.entry?
  | kept (l : Location) (e : Entry) (keeps : b.KeepsSource h generic c l) (file : e ≠ .directory)
      (free : h.disk.entry? l ≠ some .directory) : Begins b h generic c (Function.update h.disk.entry? l (some e))

variable {b : Backend} {name : String} {k : KernelSet Binary64} {generic : Path} {c : Config}
  {view : Location → Option Entry} {kept after : Host}

theorem Begins.elsewhere (begins : b.Begins h generic c view) {l : Location} (other : ¬ b.KeepsSource h generic c l) :
    view l = h.disk.entry? l := by
  cases begins with
  | untouched => rfl
  | kept m e keeps _ _ =>
      apply Function.update_of_ne
      rintro rfl
      exact other keeps

theorem Begins.directory_iff (begins : b.Begins h generic c view) (l : Location) :
    view l = some .directory ↔ h.disk.entry? l = some .directory := by
  cases begins with
  | untouched => rfl
  | kept m e _ file free =>
      by_cases same : l = m
      · rw [same, Function.update_self]
        simp [file, free]
      · rw [Function.update_of_ne same]

theorem Begins.find (begins : b.Begins h generic c view) (entries : ∀ l, after.disk.entry? l = view l) :
    after.disk.find h.workingDirectory (b.artifactPath generic) = h.disk.find h.workingDirectory (b.artifactPath generic) := by
  have directories := begins.directory_iff
  cases begins with
  | untouched => exact Disk.find_congr entries _
  | kept l e keeps _ _ =>
      obtain ⟨rfl, _, located⟩ := keeps
      obtain ⟨directory, base, rfl, plain⟩ := generic.exists_join
      have name {suffix : String} {x : Char} (inside : x ∈ suffix.toList) (other : x ≠ '.')
          (unslashed : '/' ∉ suffix.toList) : Path.IsName (base ++ suffix) :=
        @Path.isName_of_mem _ x (by simp [inside]) other (by simp [plain, unslashed])
      rw [Artifact.source, Path.withSuffix_join] at located
      obtain ⟨m, reaches, rfl⟩ := Disk.of_locate_file (@name ".c" 'c' (by decide) (by decide) (by decide)) located
      obtain ⟨led, down, unslashed⟩ := @name Artifact.librarySuffix 's' (by decide) (by decide) (by decide)
      have still : after.disk.Reaches _ _ m := reaches.mono fun l there => by rw [entries, directories, there]
      have apart : m ++ [base ++ Artifact.librarySuffix] ≠ m ++ [base ++ ".c"] := by
        intro same
        have suffix : Artifact.librarySuffix = ".c" := by
          simpa [← String.toList_inj] using same
        exact absurd suffix (by decide)
      rw [artifactPath, Artifact.library, Path.withSuffix_join]
      unfold Disk.find
      rw [Disk.locate_file reaches unslashed led down, Disk.locate_file still unslashed led down]
      cases Disk.checkPath (directory.join (base ++ Artifact.librarySuffix)) with
      | error e => rfl
      | ok passed =>
          simp only [Except.bind]
          split
          · rfl
          · simp only [bind, Except.bind, entries, Function.update_of_ne apart]

theorem Begins.fresh (begins : b.Begins h generic c view) {t : Location} (fresh : view t = none) :
    h.disk.entry? t = none := by
  cases begins with
  | untouched => exact fresh
  | kept l e _ _ _ =>
      have apart : t ≠ l := by
        rintro rfl
        rw [Function.update_self] at fresh
        cases fresh
      rwa [Function.update_of_ne apart] at fresh

theorem held?_of_findCompiler {c : Config} {h : Host} {e : ToolchainError} (lost : h.findCompiler c = .error e) :
    Holds.held? e = none := by
  have missing {found : Option Path} {fault : ToolchainError} (free : Holds.held? fault = none)
      (lost : (found.map Except.ok).getD (.error fault) = .error e) : Holds.held? e = none := by
    cases found with
    | none => exact Except.error.inj lost ▸ free
    | some compiler => cases lost
  unfold Host.findCompiler at lost
  split at lost
  · exact missing rfl lost
  · exact missing rfl lost
  · exact missing rfl lost

theorem resolve_cases (c : Config) (h : Host) :
    (∃ e, Holds.held? e = none ∧ (Toolchain.resolve c).run.run h = (.error e, h)) ∨
    ∃ compiler after, h.findCompiler c = .ok compiler ∧
      (Toolchain.resolve c).run.run h = (.ok ⟨compiler, c.optimizationFlags, c.verbose⟩, after) ∧
      h.Becomes h.disk.entry? after := by
  unfold Toolchain.resolve
  rw [Job.run_bind, Job.run_get]
  cases found : h.findCompiler c with
  | error e => exact .inl ⟨e, held?_of_findCompiler found, by simp only [found, Job.run_throw]⟩
  | ok compiler =>
      refine .inr ⟨compiler, _, rfl, ?_, h.becomes_log (h.log ++ [⟨.debug, s!"using C compiler {compiler.text}"⟩])⟩
      simp only [found, Job.run_bind, Job.run_record]
      rfl

/-- The steps before a library is built: they fail and change nothing, or they leave the source at most. -/
theorem generateNative_cases (name : String) (k : KernelSet Binary64) (generic : Path) (c : Config) (h : Host) :
    (∃ e after, (generateNative name k generic c).run.run h = (.error e, after) ∧ Holds.held? e = none ∧
        h.Becomes h.disk.entry? after) ∨
      ∃ compiler view kept, h.findCompiler c = .ok compiler ∧ native.Begins h generic c view ∧ h.Becomes view kept ∧
        (generateNative name k generic c).run.run h =
          (((Toolchain.mk compiler c.optimizationFlags c.verbose).compileShared (.source (k.source name))
            (Artifact.library generic)).adapt CompileError.toolchain).run.run kept := by
  unfold generateNative
  rw [Job.run_bind, Job.run_adapt]
  rcases resolve_cases c h with ⟨e, free, run⟩ | ⟨compiler, first, found, run, logged⟩
  · rw [run]
    exact .inl ⟨_, h, rfl, free, h.becomes_log h.log⟩
  · rw [run]
    cases keep : c.keepSources with
    | false => exact .inr ⟨compiler, _, first, found, .untouched, logged, rfl⟩
    | true =>
        simp only [mapError_ok, if_true]
        rw [Job.run_bind, Job.run_adapt]
        rcases Job.write_cases (Artifact.source generic) (.source (k.source name)) first with
          ⟨e, run⟩ | ⟨l, e, second, located, free, file, run, writes⟩
        · rw [run]
          exact .inl ⟨_, first, rfl, rfl, logged⟩
        · rw [run]
          simp only [mapError_ok]
          rw [Job.run_bind, Job.run_record]
          rw [logged.entries] at free
          rw [logged.workingDirectory] at located
          have before := Disk.locate_mono (fun m there => (logged.entries m).symm.trans there) located
          have log := second.becomes_log (second.log ++
            [⟨.debug, s!"wrote generated source to {(Artifact.source generic).text}"⟩])
          have becomes : h.Becomes (Function.update h.disk.entry? l (some e)) _ :=
            (logged.trans (writes.trans log)).congr fun m => by rw [writes.entries, funext logged.entries]
          exact .inr ⟨compiler, _, _, found, .kept l e ⟨rfl, keep, before⟩ file free, becomes, rfl⟩

theorem run_generate (b : Backend) (name : String) (k : KernelSet Binary64) (generic : Path) (c : Config) (h : Host)
    {making : Job CompileError Unit} (made : making = match b with
      | interpreted => generateInterpreted k (interpreted.artifactPath generic)
      | native => generateNative name k generic c) :
    (b.generate name k generic c).run.run h =
      ((making.run.run h).1.map fun _ => b.artifactPath generic, (making.run.run h).2) := by
  have steps : b.generate name k generic c = making >>= fun _ => pure (b.artifactPath generic) := by
    cases b <;> rw [made] <;> rfl
  rw [steps, Job.run_bind]
  cases making.run.run h with
  | mk result after => cases result <;> rfl

theorem not_isStaged_artifactPath (b : Backend) {name : String} (named : Artifact.isModelName name = true)
    (directory : Path) : ¬ Artifact.IsStaged (b.artifactPath (Artifact.generic name directory)) := by
  obtain ⟨suffix, unslashed, path⟩ : ∃ suffix, '/' ∉ suffix.toList ∧
      b.artifactPath (Artifact.generic name directory) = directory.join ("lib" ++ name ++ suffix) := by
    cases b with
    | interpreted => exact ⟨".kernels.json", by decide, Path.withSuffix_join directory ("lib" ++ name) _⟩
    | native => exact ⟨Artifact.librarySuffix, by decide, Path.withSuffix_join directory ("lib" ++ name) _⟩
  have plain : '/' ∉ ("lib" ++ name ++ suffix).toList := by
    simp [Artifact.plain_of_isModelName named, unslashed]
  obtain ⟨rest, head⟩ : ∃ rest, ("lib" ++ name ++ suffix).toList = 'l' :: rest := by simp
  generalize "lib" ++ name ++ suffix = file at path plain head
  rintro ⟨part, last, mark⟩
  rw [path, Path.parts_join, Path.splitSlashes_of_not_mem plain] at last
  obtain rfl : file = part := by simpa using last
  simp [Artifact.stagedMark, head] at mark

def linker : Launcher := fun _ arguments _ directory disk =>
  match arguments.reverse with
  | _ :: source :: output :: _ => do
    match ← disk.read directory ⟨source⟩ with
    | .source unit => return ({ status := .exited 0 }, ← disk.write directory ⟨output⟩ (.library unit))
    | _ => return ({ status := .exited 1 }, disk)
  | _ => .error .invalid

theorem of_linker {t : Toolchain} {source output : String} {environment : List (String × String)}
    {directory : Location} {before after : Disk} {process : Process}
    (run : linker t.compiler (t.arguments source output) environment directory before = .ok (process, after)) :
    after = before ∨ ∃ content, before.write directory ⟨output⟩ content = .ok after := by
  have reversed : (t.arguments source output).reverse =
      "-lm" :: source :: output :: "-o" :: "-rdynamic" :: "-fPIC" :: "-shared" :: t.flags.reverse := by
    simp [Toolchain.arguments]
  simp only [linker, reversed] at run
  obtain ⟨content, _, rest⟩ := (bind_eq_ok_iff _ _ _).mp run
  cases content with
  | source unit =>
      obtain ⟨disk, written, made⟩ := (bind_eq_ok_iff _ _ _).mp rest
      obtain rfl := (Prod.mk.inj (Except.ok.inj made)).2
      exact .inr ⟨.library unit, written⟩
  | bytes | object | library | program => exact .inl (Prod.mk.inj (Except.ok.inj rest)).2.symm

theorem linker_writesOutput : linker.WritesOutput := by
  constructor
  · intro t source output environment directory before after process run l other
    rcases of_linker run with rfl | ⟨content, written⟩
    · rfl
    · obtain ⟨m, e, located, _, _, entries⟩ := Disk.of_write written
      rw [entries, Function.update_of_ne]
      rintro rfl
      exact other located
  · intro t source output environment directory before after process run l there
    rcases of_linker run with rfl | ⟨content, written⟩
    · exact there
    · obtain ⟨m, e, located, _, file, entries⟩ := Disk.of_write written
      rw [entries] at there
      by_cases same : l = m
      · rw [same, Function.update_self] at there
        exact absurd (Option.some.inj there) file
      · rwa [Function.update_of_ne same] at there

end Backend

end AutoDiff
