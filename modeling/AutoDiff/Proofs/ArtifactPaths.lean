import AutoDiff.Proofs.Compilations
import AutoDiff.Proofs.Generation

namespace AutoDiff

namespace Artifact

def Lettered (c : Char) : Prop := ('a' ≤ c ∧ c ≤ 'z') ∨ ('A' ≤ c ∧ c ≤ 'Z') ∨ c = '_'

def Numbered (c : Char) : Prop := '0' ≤ c ∧ c ≤ '9'

theorem isLetter_iff (c : Char) : isLetter c = true ↔ Lettered c := by
  unfold isLetter Lettered Char.isAlpha Char.isUpper Char.isLower
  simp only [Bool.or_eq_true, Bool.and_eq_true, decide_eq_true_eq, beq_iff_eq]
  constructor
  · rintro ((upper | lower) | underscore)
    · exact .inr (.inl upper)
    · exact .inl lower
    · exact .inr (.inr underscore)
  · rintro (lower | upper | underscore)
    · exact .inl (.inr lower)
    · exact .inl (.inl upper)
    · exact .inr underscore

theorem isDigit_iff (c : Char) : c.isDigit = true ↔ Numbered c := by
  unfold Char.isDigit Numbered
  simp only [Bool.and_eq_true, decide_eq_true_eq]
  exact Iff.rfl

theorem not_lettered_of_numbered {c : Char} (number : Numbered c) : ¬ Lettered c := by
  have low : '0' ≤ c := number.1
  have high : c ≤ '9' := number.2
  rintro (lower | upper | rfl)
  · exact absurd (lower.1.trans high) (by decide)
  · exact absurd (upper.1.trans high) (by decide)
  · exact absurd high (by decide)

structure Identifier (name : String) : Prop where
  filled : name ≠ ""
  letters : ∀ c ∈ name.toList, Lettered c ∨ Numbered c
  head : ∀ c, name.toList.head? = some c → ¬ Numbered c

theorem isModelName_iff_identifier (name : String) : isModelName name = true ↔ Identifier name := by
  unfold isModelName
  cases chars : name.toList with
  | nil =>
      have empty : name = "" := String.toList_eq_nil_iff.mp chars
      constructor
      · intro named
        cases named
      · intro identifier
        exact absurd empty identifier.filled
  | cons c cs =>
      simp only [Bool.and_eq_true, List.all_eq_true, Bool.or_eq_true, isLetter_iff, isDigit_iff]
      constructor
      · rintro ⟨first, rest⟩
        refine ⟨?_, ?_, ?_⟩
        · rintro rfl
          cases chars
        · intro x inside
          rw [chars] at inside
          rcases List.mem_cons.mp inside with rfl | later
          · exact .inl first
          · exact rest x later
        · intro x head number
          obtain rfl : c = x := by simpa [chars] using head
          exact not_lettered_of_numbered number first
      · intro identifier
        have letters := identifier.letters
        rw [chars] at letters
        have first : ¬ Numbered c := identifier.head c (by simp [chars])
        exact ⟨(letters c (by simp)).resolve_right first, fun x later => letters x (by simp [later])⟩

inductive Kind where
  | library | kernels | source
  deriving DecidableEq

namespace Kind

variable {kind other : Kind} {name owner : String}

def path : Kind → Path → Path
  | library => Artifact.library
  | kernels => Artifact.kernels
  | source => Artifact.source

def suffix : Kind → String
  | library => librarySuffix
  | kernels => ".kernels.json"
  | source => ".c"

def file (kind : Kind) (name : String) : String := "lib" ++ name ++ kind.suffix

theorem path_generic (kind : Kind) (name : String) (directory : Path) :
    kind.path (generic name directory) = directory.join (kind.file name) := by
  have suffixed : kind.path (generic name directory) = (generic name directory).withSuffix kind.suffix := by
    cases kind <;> rfl
  rw [suffixed]
  exact Path.withSuffix_join directory ("lib" ++ name) kind.suffix

theorem eq_of_getLast?_suffix (same : kind.suffix.toList.getLast? = other.suffix.toList.getLast?) : kind = other := by
  cases kind <;> cases other <;> first | rfl | exact absurd same (by decide)

theorem file_injective (same : kind.file name = other.file owner) : kind = other ∧ name = owner := by
  have chars := congrArg String.toList same
  simp only [file, String.toList_append] at chars
  have filled (k : Kind) : k.suffix.toList ≠ [] := by cases k <;> decide
  obtain rfl : kind = other := by
    have ends := congrArg List.getLast? chars
    rw [List.getLast?_append_of_ne_nil _ (filled kind), List.getLast?_append_of_ne_nil _ (filled other)] at ends
    exact eq_of_getLast?_suffix ends
  have names := List.append_cancel_left (List.append_cancel_right chars)
  exact ⟨rfl, String.toList_injective names⟩

theorem isName_file (kind : Kind) (named : isModelName name = true) : Path.IsName (kind.file name) := by
  have unslashed : '/' ∉ kind.suffix.toList := by cases kind <;> decide
  have inside : 'l' ∈ (kind.file name).toList := by simp [file]
  apply Path.isName_of_mem inside (by decide)
  simp [file, plain_of_isModelName named, unslashed]

theorem not_isStaged_path (kind : Kind) (named : isModelName name = true) (directory : Path) :
    ¬ IsStaged (kind.path (generic name directory)) := by
  rintro ⟨part, last, mark⟩
  rw [path_generic, Path.parts_join, Path.splitSlashes_of_not_mem (kind.isName_file named).2.2] at last
  obtain rfl : kind.file name = part := by simpa using last
  simp [file, stagedMark] at mark

theorem path_injective {directory : Path}
    (same : kind.path (generic name directory) = other.path (generic owner directory)) :
    kind = other ∧ name = owner := by
  rw [path_generic, path_generic] at same
  have chars := congrArg (fun p : Path => p.text.toList) same
  simp only [Path.toList_join] at chars
  exact file_injective (String.toList_injective (List.append_cancel_left chars))

end Kind

end Artifact

def Backend.makes : Backend → Artifact.Kind → Bool
  | interpreted, .kernels | native, .library | native, .source => true
  | _, _ => false

namespace Disk

theorem of_makeDirectory {d other : Disk} {workingDirectory : Location} {p : Path}
    (made : d.makeDirectory workingDirectory p = .ok other) :
    ∃ l, d.entry? l = none ∧ ∀ m, other.entry? m = Function.update d.entry? l (some .directory) m := by
  unfold makeDirectory at made
  obtain ⟨_, _, rest⟩ := (bind_eq_ok_iff _ _ _).mp made
  obtain ⟨l, _, rest⟩ := (bind_eq_ok_iff _ _ _).mp rest
  cases there : d.entry? l with
  | some e => simp [there, throw, throwThe, MonadExceptOf.throw, bind, Except.bind] at rest
  | none =>
      have named : l ≠ [] := by
        rintro rfl
        cases there
      simp only [there, Option.isSome_none, Bool.false_eq_true, if_false] at rest
      obtain ⟨_, _, final⟩ := (bind_eq_ok_iff _ _ _).mp rest
      obtain rfl : d.insert l .directory = other := Except.ok.inj final
      refine ⟨l, there, fun m => ?_⟩
      rw [Function.update_apply]
      exact entry?_insert d m .directory named

end Disk

namespace Host

variable {h between after : Host} {own : Location → Prop}

/-- What is on the disk stays there as it is, but for files at some locations. -/
structure Retains (h : Host) (own : Location → Prop) (after : Host) : Prop where
  workingDirectory : after.workingDirectory = h.workingDirectory
  launcher : after.launcher = h.launcher
  directories : ∀ l, h.disk.entry? l = some .directory → after.disk.entry? l = some .directory
  entries : ∀ l e, ¬ own l → h.disk.entry? l = some e → after.disk.entry? l = some e

theorem Retains.trans (first : h.Retains own between) (second : between.Retains own after) : h.Retains own after := by
  constructor
  · exact second.workingDirectory.trans first.workingDirectory
  · exact second.launcher.trans first.launcher
  · intro l there
    exact second.directories l (first.directories l there)
  · intro l e other there
    exact second.entries l e other (first.entries l e other there)

theorem retains_of_disk (workingDirectory : after.workingDirectory = h.workingDirectory)
    (launcher : after.launcher = h.launcher) (disk : after.disk = h.disk) : h.Retains own after := by
  constructor
  · exact workingDirectory
  · exact launcher
  · intro l there
    rwa [disk]
  · intro l e _ there
    rwa [disk]

theorem Becomes.retains {view : Location → Option Entry} (becomes : h.Becomes view after)
    (directories : ∀ l, h.disk.entry? l = some .directory → view l = some .directory)
    (entries : ∀ l e, ¬ own l → h.disk.entry? l = some e → view l = some e) : h.Retains own after := by
  constructor
  · exact becomes.workingDirectory
  · rw [becomes.machine]
  · intro l there
    exact (becomes.entries l).trans (directories l there)
  · intro l e other there
    exact (becomes.entries l).trans (entries l e other there)

theorem Becomes.retains_update {l : Location} {e : Entry}
    (becomes : h.Becomes (Function.update h.disk.entry? l (some e)) after)
    (free : h.disk.entry? l ≠ some .directory) (mine : own l) : h.Retains own after := by
  apply becomes.retains
  · intro m there
    have apart : m ≠ l := by
      rintro rfl
      exact free there
    rw [Function.update_of_ne apart, there]
  · intro m e other there
    have apart : m ≠ l := by
      rintro rfl
      exact other mine
    rw [Function.update_of_ne apart, there]

theorem Becomes.retains_fresh {t : Location} {left : Option Entry}
    (becomes : h.Becomes (Function.update h.disk.entry? t left) after) (fresh : h.disk.entry? t = none) :
    h.Retains own after := by
  have kept (l : Location) (e : Entry) (there : h.disk.entry? l = some e) :
      Function.update h.disk.entry? t left l = some e := by
    have apart : l ≠ t := by
      rintro rfl
      rw [fresh] at there
      cases there
    rw [Function.update_of_ne apart, there]
  exact becomes.retains (fun l there => kept l .directory there) fun l e _ there => kept l e there

theorem Settles.retains {ε β : Type} [Holds ε] {stuck : Location → Prop} {final : Location → Entry → Prop}
    {outcome : Except ε β × Host} (settles : h.Settles stuck final outcome) (mine : ∀ l e, final l e → own l) :
    h.Retains own outcome.2 := by
  cases settles with
  | failed e after _ unchanged => exact unchanged.retains (fun _ there => there) fun _ _ _ there => there
  | held e after t left _ _ fresh _ changed => exact changed.retains_fresh fresh
  | done b after l e made free changed => exact changed.retains_update free (mine l e made)

theorem Retains.find {p : Path} {l : Location} {e : Entry} (retains : h.Retains own after)
    (located : h.disk.locate h.workingDirectory p = .ok l) (other : ¬ own l)
    (found : h.disk.find h.workingDirectory p = .ok e) : after.disk.find h.workingDirectory p = .ok e := by
  have there : h.disk.entry? l = some e := by
    unfold Disk.find at found
    cases entry : h.disk.entry? l with
    | none => simp [located, entry, bind, Except.bind, throw, throwThe, MonadExceptOf.throw] at found
    | some found' => simpa [located, entry, bind, Except.bind, pure, Except.pure] using found
  have still := Disk.locate_mono retains.directories located
  have kept := retains.entries l e other there
  simp [Disk.find, still, kept, bind, Except.bind, pure, Except.pure]

end Host

namespace Job

variable {ε δ β γ : Type} {own : Location → Prop} {job : Job ε β}

/-- A job that leaves everything but some files as it is, given a compiler that writes its output alone. -/
def Spares (own : Location → Prop) (job : Job ε β) : Prop :=
  ∀ h : Host, h.launcher.WritesOutput → Disk.Plain h.workingDirectory → h.Retains own (job.run.run h).2

theorem spares_bind {next : β → Job ε γ} (first : job.Spares own) (rest : ∀ b, (next b).Spares own) :
    (job >>= next).Spares own := by
  intro h confined plain
  have retains := first h confined plain
  rw [run_bind]
  generalize job.run.run h = outcome at retains ⊢
  obtain ⟨result, between⟩ := outcome
  cases result with
  | error e => exact retains
  | ok b =>
      apply retains.trans
      exact rest b between (retains.launcher ▸ confined) (retains.workingDirectory ▸ plain)

theorem Spares.adapt (spares : job.Spares own) (report : ε → δ) : Spares own (job.adapt report) := by
  intro h confined plain
  rw [run_adapt]
  exact spares h confined plain

theorem spares_tryCatch {handle : ε → Job ε β} (first : job.Spares own) (handled : ∀ e, (handle e).Spares own) :
    (tryCatch job handle).Spares own := by
  intro h confined plain
  have retains := first h confined plain
  rw [run_tryCatch]
  generalize job.run.run h = outcome at retains ⊢
  obtain ⟨result, between⟩ := outcome
  cases result with
  | ok b => exact retains
  | error e =>
      apply retains.trans
      exact handled e between (retains.launcher ▸ confined) (retains.workingDirectory ▸ plain)

theorem spares_of_disk (idle : ∀ h, (job.run.run h).2.workingDirectory = h.workingDirectory ∧
    (job.run.run h).2.launcher = h.launcher ∧ (job.run.run h).2.disk = h.disk) : job.Spares own := by
  intro h _ _
  obtain ⟨workingDirectory, launcher, disk⟩ := idle h
  exact Host.retains_of_disk workingDirectory launcher disk

theorem spares_pure (b : β) : (pure b : Job ε β).Spares own := spares_of_disk fun _ => ⟨rfl, rfl, rfl⟩

theorem spares_throw (e : ε) : (throw e : Job ε β).Spares own := spares_of_disk fun _ => ⟨rfl, rfl, rfl⟩

theorem spares_get : (get : Job ε Host).Spares own := spares_of_disk fun _ => ⟨rfl, rfl, rfl⟩

theorem spares_record (level : LogLevel) (text : String) : (record level text : Job ε Unit).Spares own :=
  spares_of_disk fun _ => ⟨rfl, rfl, rfl⟩

theorem spares_makeDirectory (p : Path) : (makeDirectory p).Spares own := by
  intro h _ _
  rcases act_cases (.makeDirectory p) (fun h => return ((), ← h.disk.makeDirectory h.workingDirectory p)) h with
    ⟨e, run⟩ | ⟨⟨⟩, disk, done, run⟩
  · change h.Retains own ((act _ _).run.run h).2
    rw [run]
    exact Host.retains_of_disk rfl rfl rfl
  · change h.Retains own ((act _ _).run.run h).2
    obtain ⟨other, made, final⟩ := (bind_eq_ok_iff _ _ _).mp done
    obtain rfl := (Prod.mk.inj (Except.ok.inj final)).2
    obtain ⟨l, free, entries⟩ := Disk.of_makeDirectory made
    have becomes : h.Becomes (Function.update h.disk.entry? l (some .directory)) { h with disk := other } :=
      ⟨rfl, entries⟩
    rw [run]
    exact becomes.retains_fresh free

theorem spares_tolerate (p : Path) (e : IoError) : (tolerate p e).Spares own := by
  unfold tolerate
  apply spares_bind spares_get
  intro h
  split
  · exact spares_pure ()
  · exact spares_throw e

theorem spares_makeDirectoriesWithin (depth : Nat) (p : Path) : (makeDirectoriesWithin depth p).Spares own := by
  induction depth generalizing p with
  | zero => exact spares_throw IoError.notFound
  | succ depth ih =>
      unfold makeDirectoriesWithin
      split
      · exact spares_pure ()
      · apply spares_tryCatch (spares_makeDirectory p)
        intro e
        split
        · split
          · exact spares_throw IoError.notFound
          · apply spares_bind (ih _)
            intro _
            exact spares_tryCatch (spares_makeDirectory p) (spares_tolerate p)
        · exact spares_tolerate p e

end Job

namespace Artifact

variable {own : Location → Prop}

theorem spares_openLibrary (path : Path) : (openLibrary path).Spares own := by
  unfold openLibrary
  apply Job.spares_of_disk
  intro h
  rw [Job.run_bind, Job.run_get]
  cases opened : h.libraries.openAt? h.disk h.workingDirectory path with
  | none =>
      simp only [opened]
      exact ⟨rfl, rfl, rfl⟩
  | some library =>
      simp only [opened]
      exact ⟨rfl, rfl, rfl⟩

theorem spares_openNative (name : String) (generic : Path) : (openNative name generic).Spares own := by
  unfold openNative
  apply Job.spares_bind (Job.spares_of_disk fun _ => ⟨rfl, rfl, rfl⟩)
  intro _
  apply Job.spares_bind
  · unfold checkFile
    apply Job.spares_bind Job.spares_get
    intro h
    split
    · exact Job.spares_pure ()
    · exact Job.spares_throw _
  · intro _
    apply Job.spares_bind (spares_openLibrary _)
    rintro ⟨id, unit⟩
    cases bound : unit.bind CSource.powerRule name with
    | error e =>
        simp only [bound]
        apply Job.spares_bind (Job.spares_of_disk fun _ => ⟨rfl, rfl, rfl⟩)
        intro _
        exact Job.spares_throw _
    | ok a =>
        simp only [bound]
        apply Job.spares_bind (Job.spares_record _ _)
        intro _
        exact Job.spares_pure _

end Artifact

namespace Backend

variable {b : Backend} {name : String}

/-- The locations of the files that a backend makes for a name, in any directory. -/
def Owns (b : Backend) (name : String) (l : Location) : Prop :=
  ∃ kind m, b.makes kind = true ∧ l = m ++ [Artifact.Kind.file kind name]

theorem owns_of_locate (kind : Artifact.Kind) {d : Disk} {workingDirectory l : Location} {directory : Path}
    (named : Artifact.isModelName name = true) (made : b.makes kind = true)
    (located : d.locate workingDirectory (kind.path (Artifact.generic name directory)) = .ok l) : b.Owns name l := by
  rw [kind.path_generic] at located
  obtain ⟨m, _, rfl⟩ := Disk.of_locate_file (kind.isName_file named) located
  exact ⟨kind, m, made, rfl⟩

theorem spares_load (b : Backend) (name : String) (generic : Path) (own : Location → Prop) :
    (b.load name generic).Spares own := by
  cases b with
  | interpreted =>
      intro h _ _
      exact (becomes_load name generic h).retains (fun _ there => there) fun _ _ _ there => there
  | native => exact Artifact.spares_openNative name generic

theorem spares_generateInterpreted (named : Artifact.isModelName name = true) (k : KernelSet Binary64)
    (directory : Path) :
    (generateInterpreted k (interpreted.artifactPath (Artifact.generic name directory))).Spares
      (interpreted.Owns name) := by
  intro h _ _
  have path : interpreted.artifactPath (Artifact.generic name directory) =
      directory.join (Artifact.Kind.kernels.file name) := Artifact.Kind.kernels.path_generic name directory
  have unstaged := not_isStaged_artifactPath interpreted named directory
  rw [path] at unstaged ⊢
  have settles := settles_generateInterpreted (h := h) k (Artifact.Kind.kernels.isName_file named) unstaged
  apply settles.retains
  intro l e made
  apply owns_of_locate .kernels named rfl
  rw [Artifact.Kind.path_generic .kernels name directory]
  exact made.1

theorem Begins.retains {h after : Host} {directory : Path} {c : Config} {view : Location → Option Entry}
    (begins : native.Begins h (Artifact.generic name directory) c view) (named : Artifact.isModelName name = true)
    (becomes : h.Becomes view after) : h.Retains (native.Owns name) after := by
  cases begins with
  | untouched => exact becomes.retains (fun _ there => there) fun _ _ _ there => there
  | kept l e keeps _ free =>
      have mine : native.Owns name l := owns_of_locate .source named rfl keeps.2.2
      exact becomes.retains_update free mine

theorem spares_generateNative (named : Artifact.isModelName name = true) (k : KernelSet Binary64) (directory : Path)
    (c : Config) : (generateNative name k (Artifact.generic name directory) c).Spares (native.Owns name) := by
  intro h confined plain
  rcases generateNative_cases name k (Artifact.generic name directory) c h with
    ⟨e, after, run, _, unchanged⟩ | ⟨compiler, view, kept, _, begins, becomes, run⟩
  · rw [run]
    exact unchanged.retains (fun _ there => there) fun _ _ _ there => there
  · have begun := begins.retains named becomes
    have path : Artifact.library (Artifact.generic name directory) =
        directory.join ("lib" ++ name ++ Artifact.librarySuffix) := Artifact.Kind.library.path_generic name directory
    have unstaged := not_isStaged_artifactPath native named directory
    change ¬ Artifact.IsStaged (Artifact.library _) at unstaged
    rw [path] at unstaged
    have settles := Toolchain.settles_compileShared ⟨compiler, c.optimizationFlags, c.verbose⟩
      (.source (k.source name)) (Artifact.Kind.library.isName_file named) unstaged
      (begun.launcher ▸ confined) (begun.workingDirectory ▸ plain)
    rw [run, path]
    apply begun.trans
    apply (settles.adapt CompileError.toolchain fun _ => rfl).retains
    intro l e made
    apply owns_of_locate .library named rfl
    rw [Artifact.Kind.path_generic .library name directory]
    exact made.1

theorem spares_generate (b : Backend) (named : Artifact.isModelName name = true) (k : KernelSet Binary64)
    (directory : Path) (c : Config) : (b.generate name k (Artifact.generic name directory) c).Spares (b.Owns name) := by
  cases b with
  | interpreted => exact Job.spares_bind (spares_generateInterpreted named k directory) fun _ => Job.spares_pure _
  | native => exact Job.spares_bind (spares_generateNative named k directory c) fun _ => Job.spares_pure _

end Backend

namespace Model

theorem spares_compile (m : Model Binary64) (b : Backend) (name : String) (order : Order) (c : Config) :
    (m.compile b name order c).Spares (b.Owns name) := by
  unfold compile
  cases named : Artifact.isModelName name with
  | false => exact Job.spares_throw _
  | true =>
      simp only [if_true]
      apply Job.spares_bind ((Job.spares_makeDirectoriesWithin _ _).adapt _)
      intro _
      apply Job.spares_bind
      · intro h _ _
        obtain ⟨result, after, run, same, _⟩ := m.run_kernelsLogged order h
        rw [run]
        exact same.retains (fun _ there => there) fun _ _ _ there => there
      · intro k
        apply Job.spares_bind (b.spares_generate named k c.artifactDirectory c)
        intro path
        apply Job.spares_bind (Job.spares_record _ _)
        intro _
        apply Job.spares_bind ((b.spares_load name _ _).adapt _)
        intro a
        exact Job.spares_pure _

end Model

namespace Artifact

/-- The place of a file of a model, and that it is the file's own. -/
structure Separate (kind : Kind) (name : String) (directory : Path) : Prop where
  inside : kind.path (generic name directory) = directory.join (kind.file name) ∧ Path.IsName (kind.file name)
  single : ∀ other owner, isModelName owner = true →
    other.path (generic owner directory) = kind.path (generic name directory) → other = kind ∧ owner = name
  finished : ¬ IsStaged (kind.path (generic name directory))
  /-- Wherever the path leads, it leads into the directory. -/
  located : ∀ (d : Disk) workingDirectory l, d.locate workingDirectory (kind.path (generic name directory)) = .ok l →
    ∃ m, d.Reaches workingDirectory directory.folders m ∧ l = m ++ [kind.file name]
  /-- Whatever is compiled, it is not overwritten by what another backend or another name makes, in any directory. -/
  kept : ∀ (h : Host) (m : Model Binary64) b owner order c e, h.launcher.WritesOutput → Disk.Plain h.workingDirectory →
    (b.makes kind = true → owner ≠ name) →
    h.disk.find h.workingDirectory (kind.path (generic name directory)) = .ok e →
    ((m.compile b owner order c).run.run h).2.disk.find h.workingDirectory (kind.path (generic name directory)) = .ok e

/-- Model names are the identifiers, and the files of models neither collide nor escape. -/
theorem files_separate : (∀ name, isModelName name = true ↔ Identifier name) ∧
    ∀ kind name directory, isModelName name = true → Separate kind name directory := by
  refine ⟨isModelName_iff_identifier, fun kind name directory named => ?_⟩
  have leads : ∀ (d : Disk) workingDirectory l,
      d.locate workingDirectory (kind.path (generic name directory)) = .ok l →
      ∃ m, d.Reaches workingDirectory directory.folders m ∧ l = m ++ [kind.file name] := by
    intro d workingDirectory l located
    rw [kind.path_generic] at located
    exact Disk.of_locate_file (kind.isName_file named) located
  constructor
  · exact ⟨kind.path_generic name directory, kind.isName_file named⟩
  · intro other owner _ same
    exact Kind.path_injective same
  · exact kind.not_isStaged_path named directory
  · exact leads
  · intro h m b owner order c e confined plain others found
    have retains := m.spares_compile b owner order c h confined plain
    cases located : h.disk.locate h.workingDirectory (kind.path (generic name directory)) with
    | error fault => simp [Disk.find, located, bind, Except.bind] at found
    | ok l =>
        obtain ⟨k, _, rfl⟩ := leads h.disk h.workingDirectory l located
        refine retains.find located ?_ found
        rintro ⟨made, below, makes, same⟩
        have files : kind.file name = made.file owner := by simpa using congrArg List.getLast? same
        obtain ⟨rfl, rfl⟩ := Kind.file_injective files
        exact others makes rfl

def interpretedBefore : Host where
  disk := ⟨[(["tmp"], .directory), (["bin"], .directory), (["bin", "cc"], .file (.program "cc") true),
    (["work"], .directory), (["work", "libm.kernels.json"], .file .empty false)]⟩
  workingDirectory := ["work"]
  launcher := Backend.linker

theorem files_separate_interpretedBefore :
    isModelName "m" = true ∧ Backend.linker.WritesOutput ∧ Disk.Plain ["work"] ∧
      interpretedBefore.disk.find ["work"] (kernels (generic "m" ⟨""⟩)) = .ok (.file .empty false) ∧
      (((Compilation.sample [] 0).model.compile .native "m" .zeroth { compiler := some ⟨"/bin/cc"⟩ }).run.run
        interpretedBefore).2.disk.find ["work"] (kernels (generic "m" ⟨""⟩)) = .ok (.file .empty false) := by
  have named : isModelName "m" = true := by decide
  have plain : Disk.Plain ["work"] := by
    intro part member
    obtain rfl := List.mem_singleton.mp member
    exact @Path.isName_of_mem "work" 'w' (by decide) (by decide) (by decide)
  have found : interpretedBefore.disk.find ["work"] (kernels (generic "m" ⟨""⟩)) = .ok (.file .empty false) := by
    decide +kernel
  have separate := files_separate.2 .kernels "m" ⟨""⟩ named
  exact ⟨named, Backend.linker_writesOutput, plain, found, separate.kept interpretedBefore _ .native "m" .zeroth _ _
    Backend.linker_writesOutput plain (by decide) found⟩

end Artifact

end AutoDiff
