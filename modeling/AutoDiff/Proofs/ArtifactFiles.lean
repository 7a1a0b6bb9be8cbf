import AutoDiff.Backend
import AutoDiff.Proofs.Jobs
import AutoDiff.Proofs.KernelFiles
import AutoDiff.Proofs.Locations

namespace AutoDiff

namespace Content

theorem text?_ofText (text : String) : (ofText text).text? = some text := by
  have valid : text.toUTF8.IsValidUTF8 := text.isValidUTF8
  unfold ofText text? String.fromUTF8?
  exact dif_pos valid

end Content

namespace Artifact

def fileName (name : String) : String := "lib" ++ name ++ ".kernels.json"

theorem toList_fileName (name : String) :
    (fileName name).toList = 'l' :: 'i' :: 'b' :: (name.toList ++ ".kernels.json".toList) := by
  simp [fileName]

theorem fileName_injective {name other : String} (same : fileName name = fileName other) : name = other := by
  have chars := congrArg String.toList same
  simp only [toList_fileName, List.cons.injEq, true_and] at chars
  exact String.toList_injective (List.append_cancel_right chars)

theorem kernels_generic (name : String) (directory : Path) :
    kernels (generic name directory) = directory.join (fileName name) := by
  unfold kernels generic Path.withSuffix Path.join fileName
  split <;> simp [String.append_assoc]

theorem plain_of_isModelName {name : String} (named : isModelName name = true) : '/' ∉ name.toList := by
  have letter : isLetter '/' = false := by decide
  have digit : ('/').isDigit = false := by decide
  unfold isModelName at named
  intro slash
  cases chars : name.toList with
  | nil => simp [chars] at slash
  | cons c cs =>
      simp only [chars, Bool.and_eq_true, List.all_eq_true, Bool.or_eq_true] at named
      rw [chars, List.mem_cons] at slash
      rcases slash with rfl | rest
      · simp [letter] at named
      · rcases named.2 _ rest with found | found
        · simp [letter] at found
        · simp [digit] at found

theorem plain_fileName {name : String} (named : isModelName name = true) : '/' ∉ (fileName name).toList := by
  simp [toList_fileName, plain_of_isModelName named]

theorem leads_of_head {part : String} (head : part.toList.head? = some 'l') :
    Path.leads part = true ∧ part ≠ ".." := by
  constructor
  · by_contra blank
    simp only [Path.leads, decide_eq_true_eq] at blank
    rcases not_and_or.mp blank with empty | dot
    · simp [not_not.mp empty] at head
    · simp [not_not.mp dot] at head
  · rintro rfl
    simp at head

theorem head_fileName (name : String) : (fileName name).toList.head? = some 'l' := by simp [toList_fileName]

theorem locate_kernels {d : Disk} {workingDirectory l : Location} {directory : Path} {name : String}
    (reaches : d.Reaches workingDirectory directory.folders l) (named : isModelName name = true) :
    d.locate workingDirectory (kernels (generic name directory)) =
      (Disk.checkPath (kernels (generic name directory))).bind fun _ =>
        if 255 < (fileName name).utf8ByteSize then .error .nameTooLong else .ok (l ++ [fileName name]) := by
  rw [kernels_generic]
  obtain ⟨led, down⟩ := leads_of_head (head_fileName name)
  exact Disk.locate_file reaches (plain_fileName named) led down

theorem of_locate_kernels {d : Disk} {workingDirectory l m : Location} {directory : Path} {name : String}
    (reaches : d.Reaches workingDirectory directory.folders l) (named : isModelName name = true)
    (located : d.locate workingDirectory (kernels (generic name directory)) = .ok m) :
    Disk.checkPath (kernels (generic name directory)) = .ok () ∧ m = l ++ [fileName name] := by
  rw [locate_kernels reaches named] at located
  cases passes : Disk.checkPath (kernels (generic name directory)) with
  | error e => simp [passes, Except.bind] at located
  | ok passed =>
      simp only [passes, Except.bind] at located
      split at located
      · simp at located
      · exact ⟨rfl, (Except.ok.inj located).symm⟩

end Artifact

namespace Host

/-- What a directory may hold: files of models that load. -/
def Admits (below : List String) (e : Entry) : Prop :=
  ∃ name text, Artifact.isModelName name = true ∧ below = [Artifact.fileName name] ∧
    e = .file (.ofText text) false ∧ KernelSet.Loads text

/-- A directory of artifacts on a machine that refuses nothing. -/
structure Stores (h : Host) (directory : Path) (l : Location) : Prop where
  willing : h.obstacle = fun _ => none
  passes : Disk.checkPath (Disk.here directory) = .ok ()
  reaches : h.disk.Reaches h.workingDirectory directory.folders l
  admits : ∀ below e, below ≠ [] → h.disk.entry? (l ++ below) = some e → Admits below e

variable {h : Host} {directory : Path} {l : Location}

theorem isFile_iff {d : Disk} {workingDirectory : Location} {p : Path} : d.isFile workingDirectory p = true ↔
    ∃ m e, d.locate workingDirectory p = .ok m ∧ d.entry? m = some e ∧ e.isFile = true := by
  unfold Disk.isFile Disk.find
  cases d.locate workingDirectory p with
  | error e => simp [bind, Except.bind]
  | ok m =>
      cases there : d.entry? m with
      | none => simp [bind, Except.bind, throw, throwThe, MonadExceptOf.throw, there]
      | some e => simp [bind, Except.bind, pure, Except.pure, there]

theorem Stores.eq_of_locate {name : String} {m : Location} {e : Entry} (stores : h.Stores directory l)
    (located : h.disk.locate h.workingDirectory (Artifact.kernels (Artifact.generic name directory)) = .ok m)
    (there : h.disk.entry? m = some e) : m = l ++ [Artifact.fileName name] := by
  have head := Artifact.head_fileName name
  have relative : (Artifact.fileName name).toList.head? ≠ some '/' := by simp [head]
  obtain ⟨part, parts, split, first⟩ : ∃ part parts, Path.splitSlashes (Artifact.fileName name).toList = part :: parts ∧
      part.head? = some 'l' := by
    rw [Artifact.toList_fileName]
    obtain ⟨part, parts, split⟩ := Path.exists_splitSlashes_cons (show 'l' ≠ '/' by decide) _
    exact ⟨_, parts, split, rfl⟩
  obtain ⟨led, down⟩ := Artifact.leads_of_head (show (String.ofList part).toList.head? = some 'l' by simpa using first)
  rw [Artifact.kernels_generic, Disk.locate_join stores.reaches relative, split] at located
  cases passes : Disk.checkPath (directory.join (Artifact.fileName name)) with
  | error e => simp [passes, Except.bind] at located
  | ok passed =>
      rw [passes] at located
      obtain ⟨_, next, taken, rest⟩ := Disk.of_walk_cons (show h.disk.walk l (_ :: _) = .ok m from located)
      obtain rfl := Disk.eq_of_step led down taken
      cases parts with
      | nil =>
          have whole : part = (Artifact.fileName name).toList := by
            have joins := Path.joined_splitSlashes (Artifact.fileName name).toList
            rw [split] at joins
            simpa [Path.joined] using joins
          obtain rfl : l ++ [String.ofList part] = m := Except.ok.inj rest
          rw [whole, String.ofList_toList]
      | cons second others =>
          obtain ⟨between, _⟩ := Disk.of_walk_cons rest
          obtain ⟨_, _, _, _, file, _⟩ := stores.admits [String.ofList part] .directory (by simp) between
          cases file

theorem Stores.find_of_artifactExists {name : String} (stores : h.Stores directory l)
    (found : Backend.interpreted.artifactExists h name directory = true) :
    Artifact.isModelName name = true ∧ ∃ text, KernelSet.Loads text ∧
      h.disk.find h.workingDirectory (Artifact.kernels (Artifact.generic name directory)) =
        .ok (.file (.ofText text) false) := by
  obtain ⟨m, e, located, there, _⟩ := isFile_iff.mp found
  obtain rfl := stores.eq_of_locate located there
  obtain ⟨owner, text, named, names, rfl, loads⟩ := stores.admits [Artifact.fileName name] e (by simp) there
  obtain rfl := Artifact.fileName_injective (List.cons.inj names).1
  refine ⟨named, text, loads, ?_⟩
  unfold Disk.find
  rw [show h.disk.locate h.workingDirectory (Artifact.kernels (Artifact.generic name directory)) = _ from located]
  simp [bind, Except.bind, pure, Except.pure, there]

theorem Stores.load_of_artifactExists {name : String} (stores : h.Stores directory l)
    (found : Backend.interpreted.artifactExists h name directory = true) :
    ∃ a, ((Backend.interpreted.load name (Artifact.generic name directory)).run.run h).1 = .ok a := by
  obtain ⟨named, text, ⟨k, a, parsed, loaded⟩, file⟩ := stores.find_of_artifactExists found
  have text : h.disk.readText h.workingDirectory (Artifact.kernels (Artifact.generic name directory)) = .ok text := by
    simp [Disk.readText, Disk.read, file, bind, Except.bind, pure, Except.pure, Content.text?_ofText]
  have there : h.isFile (Artifact.kernels (Artifact.generic name directory)) = true := found
  refine ⟨a, ?_⟩
  simp [Backend.load, Artifact.run_openInterpreted, named, there, text, parsed, loaded]

end Host

end AutoDiff
