import AutoDiff.Proofs.ArtifactFiles
import Mathlib.Logic.Function.Basic

namespace AutoDiff

namespace Disk

theorem checkPath_eq_ok_iff (p : Path) : checkPath p = .ok () ↔
    '\x00' ∉ p.text.toList ∧ p.text.isEmpty = false ∧ p.text.utf8ByteSize < 4096 := by
  unfold checkPath
  by_cases nul : '\x00' ∈ p.text.toList
  · simp [nul]
  · cases p.text.isEmpty with
    | true => simp [nul]
    | false => simp [nul]

theorem utf8ByteSize_eq (s : String) : s.utf8ByteSize = String.utf8Len s.toList := by
  rw [← String.utf8ByteSize_ofList, String.ofList_toList]

theorem utf8Len_fileName (name : String) : String.utf8Len (Artifact.fileName name).toList =
    16 + String.utf8Len name.toList := by
  have suffix : String.utf8Len ".kernels.json".toList = 13 := by decide
  have letters : String.utf8Len ['l', 'i', 'b'] = 3 := by decide
  have chars : (Artifact.fileName name).toList = ['l', 'i', 'b'] ++ (name.toList ++ ".kernels.json".toList) :=
    Artifact.toList_fileName name
  rw [chars, String.utf8Len_append, String.utf8Len_append, suffix, letters]
  omega

def stagedFile : String := stagedName Artifact.stagedMark ".json" 0

theorem stagedFile_ne (name : String) : Artifact.fileName name ≠ stagedFile := by
  intro same
  have head := Artifact.head_fileName name
  have other : stagedFile.toList.head? = some '.' := by decide
  rw [same, other] at head
  cases head

theorem passes_of_join {directory parent : Path} {name : String} (folders : parent.folders = Path.trail directory.folders)
    (sub : parent.text.toList.Sublist (Path.joined directory.folders))
    (passes : checkPath (directory.join (Artifact.fileName name)) = .ok ()) :
    checkPath (here parent) = .ok () ∧ checkPath (parent.join stagedFile) = .ok () := by
  obtain ⟨text, _, short⟩ := (checkPath_eq_ok_iff _).mp passes
  rw [utf8ByteSize_eq] at short
  rw [Path.toList_join, String.utf8Len_append, utf8Len_fileName] at short
  simp only [Path.toList_join, List.mem_append, not_or] at text
  have length := String.utf8Len_le_of_sublist sub
  constructor
  · unfold here
    cases filled : parent.text.isEmpty with
    | true => exact (checkPath_eq_ok_iff ⟨"."⟩).mpr (by decide)
    | false =>
        refine (checkPath_eq_ok_iff parent).mpr ⟨fun nul => text.1 (sub.subset nul), filled, ?_⟩
        rw [utf8ByteSize_eq]
        omega
  · have shorter : (Path.joined parent.folders).Sublist (Path.joined directory.folders) :=
      folders ▸ (Path.trail_sublist directory.folders).flatMap _
    have staged : '\x00' ∉ stagedFile.toList := by decide
    have named : stagedFile.toList ≠ [] := by decide
    have size : String.utf8Len stagedFile.toList = 12 := by decide
    have lengths := String.utf8Len_le_of_sublist shorter
    have chars := Path.toList_join parent stagedFile
    refine (checkPath_eq_ok_iff _).mpr ⟨?_, ?_, ?_⟩
    · simp only [chars, List.mem_append, not_or]
      exact ⟨fun nul => text.1 (shorter.subset nul), staged⟩
    · cases empty : (parent.join stagedFile).text.isEmpty with
      | false => rfl
      | true => simp [String.isEmpty_iff.mp empty, named] at chars
    · rw [utf8ByteSize_eq, chars, String.utf8Len_append, size]
      omega

end Disk

theorem Host.Stores.entry?_stagedFile {h : Host} {directory : Path} {l : Location} (stores : h.Stores directory l) :
    h.disk.entry? (l ++ [Disk.stagedFile]) = none := by
  cases there : h.disk.entry? (l ++ [Disk.stagedFile]) with
  | none => rfl
  | some e =>
      obtain ⟨name, _, _, names, _⟩ := stores.admits [Disk.stagedFile] e (by simp) there
      exact absurd (List.cons.inj names).1.symm (Disk.stagedFile_ne name)

namespace Job

variable {ε β : Type} {h : Host}

theorem run_act_of_ok {operation : Operation} {step : Host → Except IoError (β × Disk)} {b : β} {disk : Disk}
    (willing : h.obstacle = fun _ => none) (done : step h = .ok (b, disk)) :
    (act operation step).run.run h = (.ok b, { h with disk }) := by
  unfold act
  rw [run_bind, run_get]
  simp only [willing, done]
  rfl

theorem run_act_of_error {operation : Operation} {step : Host → Except IoError (β × Disk)} {e : IoError}
    (willing : h.obstacle = fun _ => none) (failed : step h = .error e) :
    (act operation step).run.run h = (.error e, h) := by
  unfold act
  rw [run_bind, run_get]
  simp only [willing, failed]
  rfl

theorem run_tryCatch (job : Job ε β) (handle : ε → Job ε β) (h : Host) :
    (tryCatch job handle).run.run h =
      match job.run.run h with
      | (.ok b, after) => (.ok b, after)
      | (.error e, after) => (handle e).run.run after := by
  change (ExceptT.tryCatch job handle).run.run h = _
  rw [ExceptT.tryCatch, ExceptT.run_mk, StateT.run_bind]
  change job.run.run h >>= _ = _
  cases job.run.run h with
  | mk result after => cases result <;> rfl

theorem run_withStaged [Holds ε] (report : IoError → ε) (directory : Path) (mark suffix : String)
    (work : Location → Job ε β) (h : Host) : (withStaged report directory mark suffix work).run.run h =
      match (stage directory mark suffix).run.run h with
      | (.error e, after) => (.error (report e), after)
      | (.ok staged, after) =>
        (((work staged).run.run after).1,
          if keeps staged ((work staged).run.run after).1 then ((work staged).run.run after).2
          else ((discard staged).run ((work staged).run.run after).2).2) := by
  unfold withStaged
  rw [run_bind, run_adapt]
  cases (stage directory mark suffix).run.run h with
  | mk result after =>
      cases result with
      | error e => rfl
      | ok staged =>
          simp only [mapError_ok]
          change StateT.run ((work staged).run >>= _) after = _
          rw [StateT.run_bind]
          obtain ⟨result, last⟩ := (work staged).run.run after
          change StateT.run (if keeps staged result then pure result else discard staged >>= fun _ => pure result) last =
            (result, if keeps staged result then last else ((discard staged).run last).2)
          cases keeps staged result <;> rfl

theorem run_makeDirectories {l : Location} {directory : Path} (stores : h.Stores directory l) :
    (makeDirectories directory).run.run h = (.ok (), h) := by
  unfold makeDirectories makeDirectoriesWithin
  cases filled : directory.text.isEmpty with
  | true => rfl
  | false =>
      have passes : Disk.checkPath directory = .ok () := by simpa [Disk.here, filled] using stores.passes
      have walks := (Disk.walk_start_iff filled stores.reaches.directory).mpr stores.reaches
      have made : h.disk.makeDirectory h.workingDirectory directory = .error .alreadyExists := by
        have stripped := Disk.walk_stripped walks
        simp [Disk.makeDirectory, passes, stripped, stores.reaches.directory, bind, Except.bind, throw, throwThe,
          MonadExceptOf.throw]
      have there : h.isDirectory directory = true := by
        have located := (Disk.locate_eq_ok_iff directory).mpr ⟨passes, walks⟩
        simp [Host.isDirectory, Disk.isDirectory, Disk.find, located, stores.reaches.directory, bind, Except.bind, pure,
          Except.pure]
      have refused : (makeDirectory directory).run.run h = (.error .alreadyExists, h) := by
        apply run_act_of_error stores.willing
        simp [made, bind, Except.bind]
      rw [if_neg Bool.false_ne_true, run_tryCatch, refused]
      simp only [tolerate, run_bind, run_get, there, if_true]
      rfl

theorem run_stage {l : Location} {directory parent : Path} (stores : h.Stores directory l)
    (reaches : h.disk.Reaches h.workingDirectory parent.folders l) :
    (stage parent Artifact.stagedMark ".json").run.run h =
      match (Disk.checkPath (Disk.here parent)).bind fun _ => Disk.checkPath (parent.join Disk.stagedFile) with
      | .error e => (.error e, h)
      | .ok _ => (.ok (l ++ [Disk.stagedFile]),
          { h with disk := h.disk.insert (l ++ [Disk.stagedFile]) (.file .empty false) }) := by
  have free : h.disk.freeName l Artifact.stagedMark ".json" h.disk.entries.length 0 = Disk.stagedFile := by
    cases h.disk.entries.length with
    | zero => rfl
    | succ fuel =>
        have nothing := stores.entry?_stagedFile
        unfold Disk.stagedFile at nothing
        simp [Disk.freeName, nothing, Disk.stagedFile]
  have parent? : h.disk.checkParent (l ++ [Disk.stagedFile]) = .ok () := by
    simp [Disk.checkParent, stores.reaches.directory]
  have way := @Disk.locate_here_iff h.disk h.workingDirectory l parent stores.reaches.directory
  have file := @Disk.locate_file _ _ _ _ Disk.stagedFile reaches (by decide) (by decide) (by decide)
  unfold stage
  cases passes : Disk.checkPath (Disk.here parent) with
  | error e =>
      have nowhere : h.disk.locate h.workingDirectory (Disk.here parent) = .error e := by
        simp [Disk.locate, passes, bind, Except.bind]
      apply run_act_of_error stores.willing
      change (h.disk.locate h.workingDirectory (Disk.here parent)).bind _ = _
      rw [nowhere]
      rfl
  | ok passed =>
      have located := way.mpr ⟨passes, reaches⟩
      cases named : Disk.checkPath (parent.join Disk.stagedFile) with
      | error e =>
          rw [named] at file
          apply run_act_of_error stores.willing
          change (h.disk.locate h.workingDirectory (Disk.here parent)).bind _ = _
          rw [located]
          change (h.disk.locate h.workingDirectory (parent.join _)).bind _ = _
          rw [free, file]
          rfl
      | ok passed =>
          rw [named] at file
          apply run_act_of_ok stores.willing
          change (h.disk.locate h.workingDirectory (Disk.here parent)).bind _ = _
          rw [located]
          change (h.disk.locate h.workingDirectory (parent.join _)).bind _ = _
          rw [free, file]
          change (h.disk.checkParent (l ++ [Disk.stagedFile])).bind _ = _
          rw [parent?]
          rfl

end Job

namespace Host

/-- What is at the locations changes to a view of the disk; the machine stays the same otherwise, but for its log. -/
structure Becomes (h : Host) (view : Location → Option Entry) (after : Host) : Prop where
  machine : after = { h with disk := after.disk, log := after.log }
  entries : ∀ m, after.disk.entry? m = view m

variable {h after : Host} {l target : Location} {view : Location → Option Entry}

theorem Becomes.obstacle (becomes : h.Becomes view after) : after.obstacle = h.obstacle := by rw [becomes.machine]

theorem Becomes.workingDirectory (becomes : h.Becomes view after) : after.workingDirectory = h.workingDirectory := by
  rw [becomes.machine]

theorem becomes_log (h : Host) (log : List LogLine) : h.Becomes h.disk.entry? { h with log } := ⟨rfl, fun _ => rfl⟩

theorem becomes_insert (h : Host) (e : Entry) (named : l ≠ []) :
    h.Becomes (Function.update h.disk.entry? l (some e)) { h with disk := h.disk.insert l e } := by
  constructor
  · rfl
  · intro m
    rw [Function.update_apply]
    exact Disk.entry?_insert h.disk m e named

theorem becomes_erase (h : Host) (named : l ≠ []) :
    h.Becomes (Function.update h.disk.entry? l none) { h with disk := h.disk.erase l } := by
  constructor
  · rfl
  · intro m
    rw [Function.update_apply]
    exact Disk.entry?_erase h.disk m named

theorem Becomes.trans {between : Host} {final : Location → Option Entry} (first : h.Becomes view between)
    (second : between.Becomes final after) : h.Becomes final after := by
  constructor
  · rw [second.machine, first.machine]
  · exact second.entries

theorem Becomes.congr {other : Location → Option Entry} (becomes : h.Becomes view after)
    (same : ∀ m, view m = other m) : h.Becomes other after :=
  ⟨becomes.machine, fun m => (becomes.entries m).trans (same m)⟩

end Host

namespace Job

variable {h : Host} {l target : Location}

theorem run_fill {old : Content} {executable : Bool} (willing : h.obstacle = fun _ => none) (named : l ≠ [])
    (there : h.disk.entry? l = some (.file old executable)) (content : Content) :
    ∃ after, (fill l content).run.run h = (.ok (), after) ∧
      h.Becomes (Function.update h.disk.entry? l (some (.file content executable))) after := by
  refine ⟨_, run_act_of_ok willing rfl, ?_⟩
  rw [Disk.put, there]
  exact Host.becomes_insert h _ named

/-- A staged file is moved in place of a file or of nothing. -/
theorem run_persist {content : Content} {executable : Bool} {p : Path} (willing : h.obstacle = fun _ => none)
    (named : l ≠ []) (there : h.disk.entry? l = some (.file content executable))
    (located : h.disk.locate h.workingDirectory p = .ok target) (below : target ≠ [])
    (free : h.disk.entry? target ≠ some .directory) (around : h.disk.entry? target.dropLast = some .directory) :
    ∃ after, (persist l p).run.run h = (.ok (), after) ∧
      h.Becomes (Function.update (Function.update h.disk.entry? l none) target (some (.file content executable)))
        after := by
  have admitted : h.disk.checkTarget target = .ok () := by
    unfold Disk.checkTarget Disk.checkParent
    rw [around]
    cases found : h.disk.entry? target with
    | none => rfl
    | some e =>
        cases e with
        | directory => exact absurd found free
        | file content executable => rfl
        | sink => rfl
  have moved : h.disk.rename l target = .ok ((h.disk.erase l).insert target (.file content executable)) := by
    simp [Disk.rename, there, admitted, bind, Except.bind, pure, Except.pure]
  have done : (do return ((), ← h.disk.rename l (← h.disk.locate h.workingDirectory p)) : Except IoError (Unit × Disk)) =
      .ok ((), (h.disk.erase l).insert target (.file content executable)) := by
    rw [located]
    change (h.disk.rename l target).bind _ = _
    rw [moved]
    rfl
  have erased := Host.becomes_erase h named
  have inserted := Host.becomes_insert { h with disk := h.disk.erase l } (.file content executable) below
  rw [funext erased.entries] at inserted
  refine ⟨_, ?_, erased.trans inserted⟩
  rw [persist, run_adapt, run_act_of_ok willing done]
  rfl

/-- A file that cannot be moved stays where it is. -/
theorem run_persist_of_error {p : Path} {e : IoError} (willing : h.obstacle = fun _ => none)
    (lost : h.disk.locate h.workingDirectory p = .error e) : (persist l p).run.run h = (.error ⟨e, l⟩, h) := by
  have failed : (do return ((), ← h.disk.rename l (← h.disk.locate h.workingDirectory p)) : Except IoError (Unit × Disk)) =
      .error e := by
    rw [lost]
    rfl
  rw [persist, run_adapt, run_act_of_error willing failed]
  rfl

theorem becomes_discard (h : Host) (named : l ≠ []) (other : h.disk.entry? l ≠ some .directory) :
    h.Becomes (Function.update h.disk.entry? l none) ((discard l).run h).2 := by
  have erased : ((discard l).run h).2 = { h with disk := h.disk.erase l } := by
    unfold discard
    rw [StateT.run_modify]
    split
    · contradiction
    · rfl
  rw [erased]
  exact Host.becomes_erase h named

end Job

namespace Host

variable {h between : Host} {directory : Path} {l : Location} {name : String} {view : Location → Option Entry}

theorem Stores.locate_of_becomes (stores : h.Stores directory l) (named : Artifact.isModelName name = true)
    (becomes : h.Becomes view between) (kept : ∀ m, h.disk.entry? m = some .directory → view m = some .directory) :
    between.disk.locate between.workingDirectory (Artifact.kernels (Artifact.generic name directory)) =
      h.disk.locate h.workingDirectory (Artifact.kernels (Artifact.generic name directory)) := by
  have reaches : between.disk.Reaches between.workingDirectory directory.folders l := by
    rw [becomes.workingDirectory]
    exact stores.reaches.mono fun m there => (becomes.entries m).trans (kept m there)
  rw [Artifact.locate_kernels reaches named, Artifact.locate_kernels stores.reaches named]

theorem Stores.ne_directory (stores : h.Stores directory l) (part : String) :
    h.disk.entry? (l ++ [part]) ≠ some .directory := by
  intro there
  obtain ⟨_, _, _, _, file, _⟩ := stores.admits [part] .directory (by simp) there
  cases file

theorem Stores.exists_stage (stores : h.Stores directory l) (named : Artifact.isModelName name = true) :
    ∃ parent, (Artifact.kernels (Artifact.generic name directory)).parent?.getD ⟨""⟩ = parent ∧
      h.disk.Reaches h.workingDirectory parent.folders l ∧
      (Disk.checkPath (Artifact.kernels (Artifact.generic name directory)) = .ok () →
        Disk.checkPath (Disk.here parent) = .ok () ∧ Disk.checkPath (parent.join Disk.stagedFile) = .ok ()) := by
  obtain ⟨led, _⟩ := Artifact.leads_of_head (Artifact.head_fileName name)
  rw [Artifact.kernels_generic]
  obtain ⟨parent, found, folders, sub⟩ := directory.exists_parent (Artifact.plain_fileName named) led
  refine ⟨parent, by rw [found, Option.getD_some], ?_, Disk.passes_of_join folders sub⟩
  rw [folders]
  exact stores.reaches.trail

end Host

namespace Backend

variable {h : Host} {directory : Path} {l m : Location} {name : String}

theorem exists_filled (stores : h.Stores directory l) (named : Artifact.isModelName name = true) (content : Content) :
    ∃ after, (Job.fill (l ++ [Disk.stagedFile]) content).run.run
        { h with disk := h.disk.insert (l ++ [Disk.stagedFile]) (.file .empty false) } = (.ok (), after) ∧
      h.Becomes (Function.update h.disk.entry? (l ++ [Disk.stagedFile]) (some (.file content false))) after ∧
      after.disk.locate after.workingDirectory (Artifact.kernels (Artifact.generic name directory)) =
        h.disk.locate h.workingDirectory (Artifact.kernels (Artifact.generic name directory)) := by
  have free := stores.entry?_stagedFile
  have some : l ++ [Disk.stagedFile] ≠ [] := by simp
  generalize l ++ [Disk.stagedFile] = s at free some ⊢
  have made := Host.becomes_insert h (.file .empty false) some
  generalize h.disk.insert s (.file .empty false) = first at made ⊢
  obtain ⟨after, filled, fills⟩ := Job.run_fill (h := { h with disk := first }) stores.willing some
    ((made.entries s).trans (Function.update_self _ _ _)) content
  rw [funext made.entries, Function.update_idem] at fills
  have writes := made.trans fills
  refine ⟨after, filled, writes, stores.locate_of_becomes named writes fun x there => ?_⟩
  have different : x ≠ s := by
    rintro rfl
    rw [free] at there
    cases there
  rw [Function.update_of_ne different, there]

theorem run_work (k : KernelSet Binary64) (path : Path) (staged : Location) (h : Host) :
    (do (Job.fill staged (.ofText k.toJson.pretty)).adapt (CompileError.write path)
        (Job.persist staged path).adapt fun e => CompileError.write path e.error : Job CompileError Unit).run.run h =
      match (Job.fill staged (.ofText k.toJson.pretty)).run.run h with
      | (.error e, after) => (.error (.write path e), after)
      | (.ok _, after) =>
        (((Job.persist staged path).run.run after).1.mapError fun e => CompileError.write path e.error,
          ((Job.persist staged path).run.run after).2) := by
  rw [Job.run_bind, Job.run_adapt]
  cases (Job.fill staged (.ofText k.toJson.pretty)).run.run h with
  | mk result after => cases result <;> rfl

/-- What is generated stands in the file of the model, and nothing else changes. -/
theorem run_generateInterpreted (stores : h.Stores directory l) (named : Artifact.isModelName name = true)
    (located : h.disk.locate h.workingDirectory (Artifact.kernels (Artifact.generic name directory)) = .ok m)
    (k : KernelSet Binary64) : ∃ after,
      (generateInterpreted k (Artifact.kernels (Artifact.generic name directory))).run.run h = (.ok (), after) ∧
        h.Becomes (Function.update h.disk.entry? m (some (.file (.ofText k.toJson.pretty) false))) after := by
  obtain ⟨parent, found, reaches, passes⟩ := stores.exists_stage named
  obtain ⟨passed, rfl⟩ := Artifact.of_locate_kernels stores.reaches named located
  obtain ⟨second, filled, writes, way⟩ := exists_filled stores named (.ofText k.toJson.pretty)
  have free := stores.entry?_stagedFile
  have other := Disk.stagedFile_ne name
  have file := stores.ne_directory (Artifact.fileName name)
  have staged := Job.run_stage stores reaches
  simp only [passes passed, Except.bind] at staged
  have inside : l ≠ l ++ [Disk.stagedFile] := by simp
  generalize stagedAt : l ++ [Disk.stagedFile] = s at free staged inside filled writes
  generalize target : l ++ [Artifact.fileName name] = t at located file ⊢
  have some : s ≠ [] := by simp [← stagedAt]
  have around : t.dropLast = l := by simp [← target]
  have apart : t ≠ s := by simpa [← stagedAt, ← target] using other
  have elsewhere {x : Location} (different : x ≠ s) : second.disk.entry? x = h.disk.entry? x := by
    rw [writes.entries, Function.update_of_ne different]
  obtain ⟨third, moved, moves⟩ := Job.run_persist (writes.obstacle.trans stores.willing) some
    ((writes.entries s).trans (Function.update_self _ _ _)) (way.trans located) (by simp [← target])
    (by rwa [elsewhere apart]) (by rw [around, elsewhere inside, stores.reaches.directory])
  have gone : third.disk.entry? s = none := by
    rw [moves.entries, Function.update_of_ne apart.symm, Function.update_self]
  have discards := Job.becomes_discard third some (by simp [gone])
  have final := writes.trans (moves.trans discards)
  refine ⟨((Job.discard s).run third).2, ?_, final.congr fun x => ?_⟩
  · unfold generateInterpreted
    rw [Job.run_withStaged, found, staged]
    simp only [run_work, filled, moved]
    rfl
  · rw [funext moves.entries, funext writes.entries]
    by_cases atStaged : x = s
    · rw [atStaged, Function.update_self, Function.update_of_ne apart.symm, free]
    · rw [Function.update_of_ne atStaged]
      by_cases atTarget : x = t
      · rw [atTarget, Function.update_self, Function.update_self]
      · rw [Function.update_of_ne atTarget, Function.update_of_ne atTarget, Function.update_of_ne atStaged,
          Function.update_of_ne atStaged]

/-- Where the path of the model leads nowhere, everything is as it was. -/
theorem run_generateInterpreted_of_error {e : IoError} (stores : h.Stores directory l)
    (named : Artifact.isModelName name = true)
    (lost : h.disk.locate h.workingDirectory (Artifact.kernels (Artifact.generic name directory)) = .error e)
    (k : KernelSet Binary64) : ∃ e after,
      (generateInterpreted k (Artifact.kernels (Artifact.generic name directory))).run.run h = (.error e, after) ∧
        h.Becomes h.disk.entry? after := by
  obtain ⟨parent, found, reaches, _⟩ := stores.exists_stage named
  obtain ⟨second, filled, writes, way⟩ := exists_filled stores named (.ofText k.toJson.pretty)
  have free := stores.entry?_stagedFile
  have staged := Job.run_stage stores reaches
  have some : l ++ [Disk.stagedFile] ≠ [] := by simp
  unfold generateInterpreted
  rw [Job.run_withStaged, found, staged]
  generalize l ++ [Disk.stagedFile] = s at free some filled writes
  cases (Disk.checkPath (Disk.here parent)).bind fun _ => Disk.checkPath (parent.join Disk.stagedFile) with
  | error e => exact ⟨_, _, rfl, h.becomes_log h.log⟩
  | ok passed =>
      have stuck := Job.run_persist_of_error (l := s) (writes.obstacle.trans stores.willing) (way.trans lost)
      have discards := Job.becomes_discard second some (by rw [writes.entries, Function.update_self]; simp)
      have final := writes.trans discards
      refine ⟨.write (Artifact.kernels (Artifact.generic name directory)) e, ((Job.discard s).run second).2, ?_,
        final.congr fun x => ?_⟩
      · simp only [run_work, filled, stuck]
        rfl
      · rw [funext writes.entries, Function.update_idem, ← free, Function.update_eq_self]

end Backend

end AutoDiff
