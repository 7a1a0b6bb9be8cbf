import AutoDiff.Host.Toolchain
import AutoDiff.Proofs.StagedFiles
import AutoDiff.Proofs.WellFormed
import Mathlib.Data.List.Nodup
import Mathlib.Data.List.Perm.Subperm

namespace AutoDiff

namespace Path

def IsName (part : String) : Prop := leads part = true ∧ part ≠ ".." ∧ '/' ∉ part.toList

theorem isName_of_mem {part : String} {c : Char} (inside : c ∈ part.toList) (other : c ≠ '.')
    (unslashed : '/' ∉ part.toList) : IsName part := by
  have differs {dots : String} (without : c ∉ dots.toList) : part ≠ dots := by
    rintro rfl
    exact without inside
  refine ⟨?_, differs (by simp [other]), unslashed⟩
  simp [leads, @differs "" (by simp), @differs "." (by simp [other])]

theorem exists_join (p : Path) : ∃ directory file, p = join directory file ∧ '/' ∉ file.toList := by
  cases split : p.parts using List.reverseRecOn with
  | nil => simp [parts, splitSlashes_ne_nil] at split
  | append_singleton folders file =>
      have unslashed : ∀ part ∈ folders ++ [file], '/' ∉ part.toList := fun part member =>
        plain_of_mem_parts (split ▸ member)
      have around : (Path.mk (String.ofList (joined folders))).folders = folders :=
        folders_of_joined (fun part member => unslashed part (by simp [member])) (by simp)
      have text := joined_parts p
      simp only [split, joined, List.flatMap_append, List.flatMap_singleton, ← List.append_assoc,
        List.append_cancel_right_eq] at text
      refine ⟨⟨String.ofList (joined folders)⟩, file, ?_, unslashed file (by simp)⟩
      have chars := toList_join ⟨String.ofList (joined folders)⟩ file
      rw [around, joined, text] at chars
      exact congrArg Path.mk (String.toList_injective chars.symm)

theorem withSuffix_join (directory : Path) (file suffix : String) :
    (directory.join file).withSuffix suffix = directory.join (file ++ suffix) := by
  unfold withSuffix join
  split <;> simp [String.append_assoc]

end Path

namespace Disk

variable {d other : Disk} {workingDirectory l m : Location}

theorem locate_mono (kept : ∀ l, d.entry? l = some .directory → other.entry? l = some .directory) {p : Path}
    (located : d.locate workingDirectory p = .ok l) : other.locate workingDirectory p = .ok l := by
  obtain ⟨passes, walks⟩ := (locate_eq_ok_iff p).mp located
  exact (locate_eq_ok_iff p).mpr ⟨passes, walk_mono kept walks⟩

theorem of_locate_file {p : Path} {file : String} (named : Path.IsName file)
    (located : d.locate workingDirectory (p.join file) = .ok m) :
    ∃ l, d.Reaches workingDirectory p.folders l ∧ m = l ++ [file] := by
  obtain ⟨led, down, plain⟩ := named
  have relative : file.toList.head? ≠ some '/' := fun head => plain (List.mem_of_mem_head? head)
  obtain ⟨_, walks⟩ := (locate_eq_ok_iff _).mp located
  rw [start_join p relative, Path.splitSlashes_of_not_mem plain, List.map_singleton, String.ofList_toList] at walks
  obtain ⟨l, start, finish⟩ := of_walk_append walks
  obtain ⟨directory, next, taken, rest⟩ := of_walk_cons finish
  have end_ : l ++ [file] = next := eq_of_step led down taken
  exact ⟨l, ⟨start, directory⟩, by rw [end_]; exact (Except.ok.inj rest).symm⟩

/-- A location as it is written: every part of it is a name. -/
def Plain (l : Location) : Prop := ∀ part ∈ l, Path.IsName part

theorem Plain.step {part : String} (plain : Plain l) (unslashed : '/' ∉ part.toList) (taken : step l part = .ok m) :
    Plain m := by
  cases led : Path.leads part with
  | false =>
      rw [step_of_not_leads led] at taken
      exact Except.ok.inj taken ▸ plain
  | true =>
      by_cases up : part = ".."
      · have above : m = l.dropLast := by simpa [Disk.step, up] using taken.symm
        intro name member
        rw [above] at member
        exact plain name (List.dropLast_subset l member)
      · rw [← eq_of_step led up taken]
        intro name member
        rcases List.mem_append.mp member with before | last
        · exact plain name before
        · rw [List.mem_singleton.mp last]
          exact ⟨led, up, unslashed⟩

theorem plain_of_walk {parts : List String} (plain : Plain l) (unslashed : ∀ part ∈ parts, '/' ∉ part.toList)
    (walks : d.walk l parts = .ok m) : Plain m := by
  induction parts generalizing l with
  | nil => exact Except.ok.inj walks ▸ plain
  | cons part parts ih =>
      obtain ⟨_, next, taken, rest⟩ := of_walk_cons walks
      have onward := plain.step (unslashed part (by simp)) taken
      exact ih onward (fun name member => unslashed name (by simp [member])) rest

theorem Reaches.plain {p : Path} (reaches : d.Reaches workingDirectory p.folders l) (plain : Plain workingDirectory) :
    Plain l := by
  have unslashed : ∀ part ∈ p.folders, '/' ∉ part.toList := fun part member => Path.plain_of_mem_folders member
  have walks := reaches.walks
  cases folders : p.folders with
  | nil =>
      rw [folders] at walks
      exact plain_of_walk plain (by simp [origin]) walks
  | cons first rest =>
      rw [folders] at walks unslashed
      by_cases root : first = ""
      · simp only [origin, root, if_true] at walks
        exact plain_of_walk (by simp [Plain]) (fun part member => unslashed part (by simp [member])) walks
      · simp only [origin, root, if_false] at walks
        exact plain_of_walk plain unslashed walks

theorem eq_of_walk {parts : List String} (plain : Plain parts) (walks : d.walk l parts = .ok m) : l ++ parts = m := by
  induction parts generalizing l with
  | nil => simpa using Except.ok.inj walks
  | cons part parts ih =>
      obtain ⟨led, down, _⟩ := plain part (by simp)
      obtain ⟨_, next, taken, rest⟩ := of_walk_cons walks
      have first : l ++ [part] = next := eq_of_step led down taken
      have whole := ih (fun name member => plain name (by simp [member])) rest
      rw [← whole, ← first, List.append_assoc, List.singleton_append]

theorem splitSlashes_locationText (plain : Plain l) :
    Path.splitSlashes (Toolchain.locationText l).toList = [] :: l.map String.toList := by
  have text : (Toolchain.locationText l).toList ++ ['/'] = '/' :: Path.joined l := by
    unfold Toolchain.locationText Path.joined
    induction l with
    | nil => rfl
    | cons part l ih =>
        simpa using ih fun name member => plain name (by simp [member])
  have parts := Path.splitSlashes_joined l (fun part member => (plain part member).2.2) []
  have split := Path.splitSlashes_append (Toolchain.locationText l).toList []
  rw [text] at split
  simp only [Path.splitSlashes, if_true] at split parts
  rw [List.append_nil] at parts
  rw [parts] at split
  exact (List.append_cancel_right split).symm

theorem eq_of_locate_locationText (plain : Plain l)
    (located : d.locate workingDirectory ⟨Toolchain.locationText l⟩ = .ok m) : m = l := by
  obtain ⟨passes, walks⟩ := (locate_eq_ok_iff _).mp located
  obtain ⟨_, filled, _⟩ := (checkPath_eq_ok_iff _).mp passes
  have parts : (Path.mk (Toolchain.locationText l)).parts = "" :: l := by
    simp [Path.parts, splitSlashes_locationText plain]
  rw [start_eq_origin filled, parts] at walks
  exact (eq_of_walk plain walks).symm

theorem mem_entries_of_entry? (named : m ≠ []) (there : d.entry? m ≠ none) : m ∈ d.entries.map Prod.fst := by
  by_contra missing
  apply there
  simp only [ entry?, named, if_false, List.lookup_eq_none_iff]
  intro entry member
  have different : m ≠ entry.1 := fun same => missing (List.mem_map.mpr ⟨entry, member, same.symm⟩)
  simpa using different

/-- The names before the one that is taken are all there. -/
theorem exists_freeName_eq (d : Disk) (l : Location) (mark suffix : String) (fuel n : Nat) :
    ∃ i ≤ fuel, d.freeName l mark suffix fuel n = stagedName mark suffix (n + i) ∧
      (∀ j < i, d.entry? (l ++ [stagedName mark suffix (n + j)]) ≠ none) ∧
      (i < fuel → d.entry? (l ++ [stagedName mark suffix (n + i)]) = none) := by
  induction fuel generalizing n with
  | zero => exact ⟨0, by simp, rfl, by simp, by simp⟩
  | succ fuel ih =>
      cases there : d.entry? (l ++ [stagedName mark suffix n]) with
      | none => exact ⟨0, by simp, by simp [freeName, there], by simp, by simp [there]⟩
      | some e =>
          obtain ⟨i, bound, name, before, free⟩ := ih (n + 1)
          have shift (j : Nat) : n + 1 + j = n + (j + 1) := by omega
          refine ⟨i + 1, by omega, by simp [freeName, there, name, shift], ?_, ?_⟩
          · intro j below
            cases j with
            | zero => simp [there]
            | succ j => exact shift j ▸ before j (by omega)
          · intro below
            exact shift i ▸ free (by omega)

theorem stagedName_injective (mark suffix : String) : Function.Injective (stagedName mark suffix) := by
  intro n k same
  have chars := congrArg String.toList same
  simp only [stagedName, String.toList_append, List.append_assoc, List.append_cancel_left_eq,
    List.append_cancel_right_eq] at chars
  have numbers := congrArg (fun digits => Nat.ofDigitChars 10 digits 0) chars
  simpa [Nat.toString_eq_ofList_toDigits] using numbers

/-- A disk has fewer entries than there are names to try, so one of these is free. -/
theorem exists_free (d : Disk) (l : Location) (mark suffix : String) :
    ∃ n, d.freeName l mark suffix d.entries.length 0 = stagedName mark suffix n ∧
      d.entry? (l ++ [stagedName mark suffix n]) = none := by
  obtain ⟨i, bound, name, before, free⟩ := d.exists_freeName_eq l mark suffix d.entries.length 0
  simp only [Nat.zero_add] at name before free
  refine ⟨i, name, ?_⟩
  by_contra taken
  have last : i = d.entries.length := by
    by_contra other
    exact taken (free (by omega))
  have all : ∀ j < d.entries.length + 1, d.entry? (l ++ [stagedName mark suffix j]) ≠ none := by
    intro j below
    rcases Nat.lt_or_ge j i with less | more
    · exact before j less
    · rwa [show j = i by omega]
  have distinct : ((List.range (d.entries.length + 1)).map fun j => l ++ [stagedName mark suffix j]).Nodup := by
    refine List.Nodup.map ?_ List.nodup_range
    intro j k same
    exact stagedName_injective mark suffix (by simpa using same)
  have inside : ((List.range (d.entries.length + 1)).map fun j => l ++ [stagedName mark suffix j]) ⊆
      d.entries.map Prod.fst := by
    intro key member
    obtain ⟨j, below, rfl⟩ := List.mem_map.mp member
    exact mem_entries_of_entry? (by simp) (all j (List.mem_range.mp below))
  have counted := (List.subperm_of_subset distinct inside).length_le
  simp at counted

theorem isName_stagedName {mark suffix : String} (unslashedMark : '/' ∉ mark.toList) (unslashed : '/' ∉ suffix.toList)
    (dash : '-' ∈ mark.toList) (n : Nat) : Path.IsName (stagedName mark suffix n) := by
  have digits : '/' ∉ Nat.toDigits 10 n := by
    intro slash
    exact absurd (Nat.isDigit_of_mem_toDigits (by decide) (by decide) slash) (by decide)
  have inside : '-' ∈ (stagedName mark suffix n).toList := by simp [stagedName, dash]
  exact Path.isName_of_mem inside (by decide) (by simp [stagedName, unslashedMark, unslashed, digits])

/-- A write puts a file, or loses what is written, at one location. -/
theorem of_write {p : Path} {content : Content} (written : d.write workingDirectory p content = .ok other) :
    ∃ l e, d.locate workingDirectory p = .ok l ∧ d.entry? l ≠ some .directory ∧ e ≠ .directory ∧
      ∀ m, other.entry? m = Function.update d.entry? l (some e) m := by
  unfold write at written
  cases located : d.locate workingDirectory p with
  | error e => simp [located, bind, Except.bind] at written
  | ok l =>
      cases checked : d.checkTarget l with
      | error e => simp [located, checked, bind, Except.bind] at written
      | ok passed =>
          have file : d.entry? l ≠ some .directory := by
            intro directory
            simp [checkTarget, directory] at checked
          have named : l ≠ [] := by
            rintro rfl
            exact file rfl
          have result : d.put l content = other := by
            simpa [located, checked, bind, Except.bind, pure, Except.pure] using written
          have inserted (e : Entry) (m : Location) :
              Disk.entry? (d.insert l e) m = Function.update d.entry? l (some e) m := by
            rw [Function.update_apply]
            exact entry?_insert d m e named
          obtain ⟨e, kind, placed⟩ : ∃ e, e ≠ .directory ∧
              ∀ m, other.entry? m = Function.update d.entry? l (some e) m := by
            rw [← result]
            cases there : d.entry? l with
            | none => exact ⟨.file content false, by simp, by simpa [put, there] using inserted _⟩
            | some e =>
                cases e with
                | directory => exact absurd there file
                | file old executable =>
                    exact ⟨.file content executable, by simp, by simpa [put, there] using inserted _⟩
                | sink =>
                    have kept : d.put l content = d := by simp [put, there]
                    refine ⟨.sink, by simp, fun m => ?_⟩
                    rw [kept, ← there, Function.update_eq_self]
          exact ⟨l, e, rfl, file, kind, placed⟩

theorem of_rename {source target : Location} (file : d.entry? source ≠ some .directory)
    (renamed : d.rename source target = .ok other) : ∃ e, d.entry? source = some e ∧
      d.entry? target ≠ some .directory ∧ (d.erase source).insert target e = other := by
  unfold rename at renamed
  cases there : d.entry? source with
  | none => simp [there, throw, throwThe, MonadExceptOf.throw] at renamed
  | some e =>
      have kind : e ≠ .directory := fun directory => file (directory ▸ there)
      cases checked : d.checkTarget target with
      | error fault => cases e <;> simp [there, checked, bind, Except.bind] at renamed kind
      | ok passed =>
          have free : d.entry? target ≠ some .directory := by
            intro directory
            simp [checkTarget, directory] at checked
          refine ⟨e, rfl, free, ?_⟩
          cases e <;> simp [there, checked, bind, Except.bind, pure, Except.pure] at renamed kind ⊢ <;> exact renamed

end Disk

namespace Job

variable {ε β : Type}

theorem act_cases (operation : Operation) (step : Host → Except IoError (β × Disk)) (h : Host) :
    (∃ e, (act operation step).run.run h = (.error e, h)) ∨
      ∃ b disk, step h = .ok (b, disk) ∧ (act operation step).run.run h = (.ok b, { h with disk }) := by
  unfold act
  rw [run_bind, run_get]
  cases refused : h.obstacle operation with
  | some e => exact .inl ⟨e, by simp only [refused, run_throw]⟩
  | none =>
      cases outcome : step h with
      | error e => exact .inl ⟨e, by simp only [refused, outcome, run_throw]⟩
      | ok result => exact .inr ⟨result.1, result.2, rfl, by simp only [refused, outcome]; rfl⟩

theorem stage_cases {mark suffix : String} (unslashedMark : '/' ∉ mark.toList) (unslashed : '/' ∉ suffix.toList)
    (dash : '-' ∈ mark.toList) (directory : Path) (h : Host) :
    (∃ e, (stage directory mark suffix).run.run h = (.error e, h)) ∨
      ∃ l n after, h.disk.Reaches h.workingDirectory directory.folders l ∧
        h.disk.entry? (l ++ [Disk.stagedName mark suffix n]) = none ∧
        (stage directory mark suffix).run.run h = (.ok (l ++ [Disk.stagedName mark suffix n]), after) ∧
        h.Becomes (Function.update h.disk.entry? (l ++ [Disk.stagedName mark suffix n])
          (some (.file .empty false))) after := by
  rcases act_cases (.stage directory) (fun h => do
      let l ← h.disk.locate h.workingDirectory (Disk.here directory)
      let name := h.disk.freeName l mark suffix h.disk.entries.length 0
      let staged ← h.disk.locate h.workingDirectory (directory.join name)
      h.disk.checkParent staged
      return (staged, h.disk.insert staged (.file .empty false))) h with failed | ⟨staged, disk, done, run⟩
  · exact .inl failed
  · obtain ⟨l, around, rest⟩ := (bind_eq_ok_iff _ _ _).mp done
    obtain ⟨n, name, free⟩ := h.disk.exists_free l mark suffix
    simp only [name] at rest
    obtain ⟨m, located, rest⟩ := (bind_eq_ok_iff _ _ _).mp rest
    obtain ⟨_, _, made⟩ := (bind_eq_ok_iff _ _ _).mp rest
    obtain ⟨k, reaches, rfl⟩ := Disk.of_locate_file (Disk.isName_stagedName unslashedMark unslashed dash n) located
    have passes := ((Disk.locate_eq_ok_iff _).mp around).1
    have same : l = k := by
      rw [(Disk.locate_here_iff reaches.directory).mpr ⟨passes, reaches⟩] at around
      exact (Except.ok.inj around).symm
    subst same
    obtain ⟨rfl, rfl⟩ := Prod.mk.inj (Except.ok.inj made)
    exact .inr ⟨l, n, _, reaches, free, run, Host.becomes_insert h _ (by simp)⟩

theorem write_cases (p : Path) (content : Content) (h : Host) :
    (∃ e, (write p content).run.run h = (.error e, h)) ∨
      ∃ l e after, h.disk.locate h.workingDirectory p = .ok l ∧ h.disk.entry? l ≠ some .directory ∧ e ≠ .directory ∧
        (write p content).run.run h = (.ok (), after) ∧
        h.Becomes (Function.update h.disk.entry? l (some e)) after := by
  rcases act_cases (.write p) (fun h => return ((), ← h.disk.write h.workingDirectory p content)) h with
    failed | ⟨⟨⟩, disk, done, run⟩
  · exact .inl failed
  · obtain ⟨other, written, made⟩ := (bind_eq_ok_iff _ _ _).mp done
    obtain rfl := (Prod.mk.inj (Except.ok.inj made)).2
    obtain ⟨l, e, located, file, kind, placed⟩ := Disk.of_write written
    exact .inr ⟨l, e, _, located, file, kind, run, rfl, placed⟩

theorem fill_cases {s : Location} {old : Content} {executable : Bool} (named : s ≠ []) (content : Content) (h : Host)
    (there : h.disk.entry? s = some (.file old executable)) :
    (∃ e, (fill s content).run.run h = (.error e, h)) ∨
      ∃ after, (fill s content).run.run h = (.ok (), after) ∧
        h.Becomes (Function.update h.disk.entry? s (some (.file content executable))) after := by
  rcases act_cases (.fill s) (fun h => .ok ((), h.disk.put s content)) h with failed | ⟨⟨⟩, disk, done, run⟩
  · exact .inl failed
  · obtain rfl := (Prod.mk.inj (Except.ok.inj done)).2
    refine .inr ⟨_, run, ?_⟩
    rw [Disk.put, there]
    exact Host.becomes_insert h _ named

theorem persist_cases {s : Location} (named : s ≠ []) (p : Path) (h : Host)
    (file : h.disk.entry? s ≠ some .directory) :
    (∃ e, (persist s p).run.run h = (.error ⟨e, s⟩, h)) ∨
      ∃ l e after, h.disk.locate h.workingDirectory p = .ok l ∧ h.disk.entry? s = some e ∧
        h.disk.entry? l ≠ some .directory ∧ (persist s p).run.run h = (.ok (), after) ∧
        h.Becomes (Function.update (Function.update h.disk.entry? s none) l (some e)) after := by
  rcases act_cases (.rename s p) (fun h => do
      return ((), ← h.disk.rename s (← h.disk.locate h.workingDirectory p))) h with ⟨e, run⟩ | ⟨⟨⟩, disk, done, run⟩
  · refine .inl ⟨e, ?_⟩
    rw [persist, run_adapt, run]
    rfl
  · obtain ⟨l, located, rest⟩ := (bind_eq_ok_iff _ _ _).mp done
    obtain ⟨other, renamed, made⟩ := (bind_eq_ok_iff _ _ _).mp rest
    obtain rfl := (Prod.mk.inj (Except.ok.inj made)).2
    obtain ⟨e, there, free, moved⟩ := Disk.of_rename file renamed
    subst moved
    have below : l ≠ [] := by
      rintro rfl
      exact free rfl
    have erased := Host.becomes_erase h named
    have inserted := Host.becomes_insert { h with disk := h.disk.erase s } e below
    rw [funext erased.entries] at inserted
    refine .inr ⟨l, e, _, located, there, free, ?_, erased.trans inserted⟩
    rw [persist, run_adapt, run]
    rfl

end Job

namespace Host

variable {ε δ β : Type} [Holds ε] [Holds δ] {h after : Host} {s : Location} {stuck : Location → Prop}
  {final : Location → Entry → Prop}

/-- What a job comes to that changes one location or none: it fails and everything is as it was, but for a file that
the error holds, or it succeeds and one location holds a new entry. -/
inductive Settles (h : Host) (stuck : Location → Prop) (final : Location → Entry → Prop) :
    Except ε β × Host → Prop where
  | failed (e : ε) (after : Host) (free : Holds.held? e = none) (unchanged : h.Becomes h.disk.entry? after) :
      Settles h stuck final (.error e, after)
  | held (e : ε) (after : Host) (t : Location) (left : Option Entry) (holds : Holds.held? e = some t)
      (allowed : stuck t) (fresh : h.disk.entry? t = none) (file : left ≠ some .directory)
      (changed : h.Becomes (Function.update h.disk.entry? t left) after) : Settles h stuck final (.error e, after)
  | done (b : β) (after : Host) (l : Location) (e : Entry) (made : final l e)
      (free : h.disk.entry? l ≠ some .directory)
      (changed : h.Becomes (Function.update h.disk.entry? l (some e)) after) : Settles h stuck final (.ok b, after)

/-- What work on a staged file comes to: the same but for what it leaves in that file, which the error may hold. -/
inductive Leaves (h : Host) (s : Location) (stuck : Location → Prop) (final : Location → Entry → Prop) :
    Except ε β × Host → Prop where
  | failed (e : ε) (after : Host) (left : Option Entry)
      (holds : Holds.held? e = none ∨ Holds.held? e = some s ∧ stuck s) (file : left ≠ some .directory)
      (unchanged : h.Becomes (Function.update h.disk.entry? s left) after) : Leaves h s stuck final (.error e, after)
  | held (e : ε) (after : Host) (left : Option Entry) (file : left ≠ some .directory) (t : Location)
      (other : Option Entry) (holds : Holds.held? e = some t) (allowed : stuck t) (apart : t ≠ s)
      (fresh : h.disk.entry? t = none) (kind : other ≠ some .directory)
      (changed : h.Becomes (Function.update (Function.update h.disk.entry? s left) t other) after) :
      Leaves h s stuck final (.error e, after)
  | done (b : β) (after : Host) (left : Option Entry) (file : left ≠ some .directory) (l : Location) (e : Entry)
      (made : final l e) (apart : l ≠ s) (free : h.disk.entry? l ≠ some .directory)
      (changed : h.Becomes (Function.update (Function.update h.disk.entry? s left) l (some e)) after) :
      Leaves h s stuck final (.ok b, after)

theorem Settles.adapt {job : Job ε β} (settles : h.Settles stuck final (job.run.run h)) (report : ε → δ)
    (same : ∀ e, Holds.held? (report e) = Holds.held? e) : h.Settles stuck final ((job.adapt report).run.run h) := by
  rw [Job.run_adapt]
  generalize job.run.run h = outcome at settles ⊢
  cases settles with
  | failed e after free unchanged => exact .failed (report e) after ((same e).trans free) unchanged
  | held e after t left holds allowed fresh file changed =>
      exact .held (report e) after t left ((same e).trans holds) allowed fresh file changed
  | done b after l e made free changed => exact .done b after l e made free changed

theorem Settles.mono {looser : Location → Prop} {weaker : Location → Entry → Prop} {outcome : Except ε β × Host}
    (settles : h.Settles stuck final outcome) (allows : ∀ t, stuck t → looser t)
    (implies : ∀ l e, final l e → weaker l e) : h.Settles looser weaker outcome := by
  cases settles with
  | failed e after free unchanged => exact .failed e after free unchanged
  | held e after t left holds allowed fresh file changed =>
      exact .held e after t left holds (allows t allowed) fresh file changed
  | done b after l e made free changed => exact .done b after l e (implies l e made) free changed

theorem Settles.leaves {between : Host} {old : Entry} {inner : Location → Entry → Prop}
    {outcome : Except ε β × Host} (becomes : h.Becomes (Function.update h.disk.entry? s (some old)) between)
    (file : old ≠ .directory) (settles : between.Settles stuck inner outcome)
    (made : ∀ l e, inner l e → l ≠ s ∧ final l e) : h.Leaves s stuck final outcome := by
  have left : some old ≠ some .directory := fun same => file (Option.some.inj same)
  cases settles with
  | failed e after free unchanged =>
      exact .failed e after _ (.inl free) left ((becomes.trans unchanged).congr becomes.entries)
  | held e after t other holds allowed fresh kind changed =>
      have apart : t ≠ s := by
        rintro rfl
        rw [becomes.entries, Function.update_self] at fresh
        cases fresh
      rw [becomes.entries, Function.update_of_ne apart] at fresh
      refine .held e after _ left t other holds allowed apart fresh kind ((becomes.trans changed).congr fun m => ?_)
      rw [funext becomes.entries]
  | done b after l e done free changed =>
      obtain ⟨apart, final⟩ := made l e done
      rw [becomes.entries, Function.update_of_ne apart] at free
      refine .done b after _ left l e final apart free ((becomes.trans changed).congr fun m => ?_)
      rw [funext becomes.entries]

theorem Leaves.discard (named : s ≠ []) (free : h.disk.entry? s = none) {result : Except ε β}
    (leaves : h.Leaves s stuck final (result, after)) :
    h.Settles stuck final (result, if Job.keeps s result then after else ((Job.discard s).run after).2) := by
  cases leaves with
  | failed e _ left holds file unchanged =>
      have there : after.disk.entry? s = left := by rw [unchanged.entries, Function.update_self]
      rcases holds with none | ⟨some, allowed⟩
      · have discards := unchanged.trans (Job.becomes_discard after named (there ▸ file))
        rw [if_neg (by simp [Job.keeps, none])]
        refine .failed e _ none (discards.congr fun m => ?_)
        rw [funext unchanged.entries, Function.update_idem, ← free, Function.update_eq_self]
      · rw [if_pos (by simp [Job.keeps, some])]
        exact .held e after s left some allowed free file unchanged
  | held e _ left file t other holds allowed apart fresh kind changed =>
      have there : after.disk.entry? s = left := by
        rw [changed.entries, Function.update_of_ne apart.symm, Function.update_self]
      have discards := changed.trans (Job.becomes_discard after named (there ▸ file))
      rw [if_neg (by simp [Job.keeps, holds, apart])]
      refine .held e _ t other holds allowed fresh kind (discards.congr fun m => ?_)
      rw [funext changed.entries, Function.update_comm apart, Function.update_idem, ← free, Function.update_eq_self]
  | done b _ left file l e made apart target changed =>
      have there : after.disk.entry? s = left := by
        rw [changed.entries, Function.update_of_ne apart.symm, Function.update_self]
      have discards := changed.trans (Job.becomes_discard after named (there ▸ file))
      rw [if_neg (by simp [Job.keeps])]
      refine .done b _ l e made target (discards.congr fun m => ?_)
      rw [funext changed.entries, Function.update_comm apart, Function.update_idem, ← free, Function.update_eq_self]

end Host

namespace Job

variable {ε β : Type} [Holds ε] {h : Host} {stuck : Location → Prop} {final : Location → Entry → Prop}

/-- Work that leaves nothing but a staged file changes one location or none in the end. -/
theorem settles_withStaged {mark suffix : String} (unslashedMark : '/' ∉ mark.toList) (unslashed : '/' ∉ suffix.toList)
    (dash : '-' ∈ mark.toList) (report : IoError → ε) (free : ∀ e, Holds.held? (report e) = none) (directory : Path)
    (work : Location → Job ε β)
    (leaves : ∀ l n first, h.disk.Reaches h.workingDirectory directory.folders l →
      h.disk.entry? (l ++ [Disk.stagedName mark suffix n]) = none →
      h.Becomes (Function.update h.disk.entry? (l ++ [Disk.stagedName mark suffix n])
        (some (.file .empty false))) first →
      h.Leaves (l ++ [Disk.stagedName mark suffix n]) stuck final
        ((work (l ++ [Disk.stagedName mark suffix n])).run.run first)) :
    h.Settles stuck final ((withStaged report directory mark suffix work).run.run h) := by
  rw [run_withStaged]
  rcases stage_cases unslashedMark unslashed dash directory h with ⟨e, run⟩ | ⟨l, n, first, reaches, fresh, run, becomes⟩
  · rw [run]
    exact .failed (report e) h (free e) (h.becomes_log h.log)
  · rw [run]
    exact (leaves l n first reaches fresh becomes).discard (by simp) fresh

theorem leaves_fill {s : Location} {first : Host} {content : Content} (named : s ≠ []) (report : IoError → ε)
    (free : ∀ e, Holds.held? (report e) = none) (rest : Job ε β)
    (becomes : h.Becomes (Function.update h.disk.entry? s (some (.file .empty false))) first)
    (leaves : ∀ second, h.Becomes (Function.update h.disk.entry? s (some (.file content false))) second →
      h.Leaves s stuck final (rest.run.run second)) :
    h.Leaves s stuck final ((do (fill s content).adapt report; rest : Job ε β).run.run first) := by
  have there : first.disk.entry? s = some (.file .empty false) := by rw [becomes.entries, Function.update_self]
  rw [run_bind, run_adapt]
  rcases fill_cases named content first there with ⟨e, run⟩ | ⟨second, run, fills⟩
  · rw [run]
    exact .failed _ first _ (.inl (free e)) (by simp) becomes
  · rw [run]
    refine leaves second ((becomes.trans fills).congr fun m => ?_)
    rw [funext becomes.entries, Function.update_idem]

end Job

end AutoDiff
