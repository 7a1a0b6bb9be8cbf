import AutoDiff.Proofs.Paths

namespace AutoDiff

namespace Disk

variable {d other : Disk} {workingDirectory l m : Location}

theorem lookup_filter_ne (entries : List (Location × Entry)) (l m : Location) :
    (entries.filter (·.1 ≠ l)).lookup m = if m = l then none else entries.lookup m := by
  induction entries with
  | nil => simp
  | cons entry entries ih =>
      obtain ⟨at_, e⟩ := entry
      by_cases gone : at_ = l
      · subst gone
        by_cases same : m = at_
        · simpa [same] using ih
        · simpa [same, List.lookup_cons, beq_false_of_ne same] using ih
      · by_cases same : m = at_
        · subst same
          simp [gone]
        · simpa [gone, List.lookup_cons, beq_false_of_ne same] using ih

theorem entry?_erase (d : Disk) (m : Location) (some : l ≠ []) :
    Disk.entry? (d.erase l) m = if m = l then none else d.entry? m := by
  unfold entry? erase
  by_cases root : m = []
  · simp [root, some.symm]
  · simp only [root, if_false]
    exact lookup_filter_ne d.entries l m

theorem entry?_insert (d : Disk) (m : Location) (e : Entry) (named : l ≠ []) :
    Disk.entry? (d.insert l e) m = if m = l then some e else d.entry? m := by
  by_cases same : m = l
  · simp [insert, entry?, same, named]
  · have erased := entry?_erase d m named
    simp only [same, if_false] at erased ⊢
    rw [← erased]
    simp [insert, entry?, List.lookup_cons, beq_false_of_ne same]

def step (l : Location) (part : String) : Except IoError Location :=
  if part = "" ∨ part = "." then .ok l
  else if part = ".." then .ok l.dropLast
  else if 255 < part.utf8ByteSize then .error .nameTooLong
  else .ok (l ++ [part])

theorem walk_cons (there : d.entry? l = some .directory) (part : String) (parts : List String) :
    d.walk l (part :: parts) = (step l part).bind fun next => d.walk next parts := by
  simp only [walk, there, step]
  split
  · rfl
  · split
    · rfl
    · split <;> rfl

theorem of_walk_cons {part : String} {parts : List String} (walks : d.walk l (part :: parts) = .ok m) :
    d.entry? l = some .directory ∧ ∃ next, step l part = .ok next ∧ d.walk next parts = .ok m := by
  have there : d.entry? l = some .directory := by
    unfold walk at walks
    split at walks
    · simp at walks
    · assumption
    · simp at walks
  rw [walk_cons there] at walks
  cases next : step l part with
  | error e => simp [next, Except.bind] at walks
  | ok n => exact ⟨there, n, rfl, by simpa [next, Except.bind] using walks⟩

theorem step_of_not_leads {part : String} (blank : Path.leads part = false) (l : Location) : step l part = .ok l := by
  have skipped : part = "" ∨ part = "." := by
    by_contra neither
    simp only [not_or] at neither
    simp [Path.leads, neither] at blank
  simp [step, skipped]

theorem step_of_leads {part : String} (led : Path.leads part = true) (down : part ≠ "..") (l : Location) :
    step l part = if 255 < part.utf8ByteSize then .error .nameTooLong else .ok (l ++ [part]) := by
  simp only [Path.leads, decide_eq_true_eq] at led
  simp [step, led, down]

theorem eq_of_step {part : String} (led : Path.leads part = true) (down : part ≠ "..")
    (taken : step l part = .ok m) : l ++ [part] = m := by
  rw [step_of_leads led down] at taken
  split at taken
  · simp at taken
  · exact Except.ok.inj taken

theorem walk_append_of_ok {ps : List String} (walks : d.walk l ps = .ok m) (qs : List String) :
    d.walk l (ps ++ qs) = d.walk m qs := by
  induction ps generalizing l with
  | nil =>
      obtain rfl : l = m := Except.ok.inj walks
      rfl
  | cons part parts ih =>
      obtain ⟨there, next, taken, rest⟩ := of_walk_cons walks
      rw [List.cons_append, walk_cons there, taken]
      exact ih rest

theorem of_walk_append {ps qs : List String} {n : Location} (walks : d.walk l (ps ++ qs) = .ok n) :
    ∃ m, d.walk l ps = .ok m ∧ d.walk m qs = .ok n := by
  induction ps generalizing l with
  | nil => exact ⟨l, rfl, walks⟩
  | cons part parts ih =>
      obtain ⟨there, next, taken, rest⟩ := of_walk_cons walks
      obtain ⟨m, start, finish⟩ := ih rest
      have whole : d.walk l (part :: parts) = .ok m := by
        rw [walk_cons there, taken]
        exact start
      exact ⟨m, whole, finish⟩

theorem walk_filter_leads {parts : List String} (walks : d.walk l parts = .ok m) :
    d.walk l (parts.filter Path.leads) = .ok m := by
  induction parts generalizing l with
  | nil => exact walks
  | cons part parts ih =>
      obtain ⟨there, next, taken, rest⟩ := of_walk_cons walks
      cases led : Path.leads part with
      | false =>
          rw [step_of_not_leads led] at taken
          obtain rfl : l = next := Except.ok.inj taken
          simpa [led] using ih rest
      | true =>
          rw [List.filter_cons_of_pos led, walk_cons there, taken]
          exact ih rest

theorem walk_mono (kept : ∀ l, d.entry? l = some .directory → other.entry? l = some .directory)
    {parts : List String} (walks : d.walk l parts = .ok m) : other.walk l parts = .ok m := by
  induction parts generalizing l with
  | nil => exact walks
  | cons part parts ih =>
      obtain ⟨there, next, taken, rest⟩ := of_walk_cons walks
      rw [walk_cons (kept l there), taken]
      exact ih rest

theorem walk_congr (same : ∀ l, d.entry? l = other.entry? l) (l : Location) (parts : List String) :
    d.walk l parts = other.walk l parts := by
  induction parts generalizing l with
  | nil => rfl
  | cons part parts ih =>
      unfold walk
      rw [same l]
      split <;> simp only [ih]

theorem find_congr (same : ∀ l, d.entry? l = other.entry? l) (p : Path) :
    d.find workingDirectory p = other.find workingDirectory p := by
  unfold find locate
  simp only [walk_congr same, same]

/-- Where the way through folders begins, and what is left of it. -/
def origin (workingDirectory : Location) : List String → Location × List String
  | [] => (workingDirectory, [])
  | first :: rest => if first = "" then ([], rest) else (workingDirectory, first :: rest)

/-- Folders lead to a directory. -/
structure Reaches (d : Disk) (workingDirectory : Location) (folders : List String) (l : Location) : Prop where
  walks : d.walk (origin workingDirectory folders).1 (origin workingDirectory folders).2 = .ok l
  directory : d.entry? l = some .directory

theorem Reaches.mono {folders : List String} (reaches : d.Reaches workingDirectory folders l)
    (kept : ∀ l, d.entry? l = some .directory → other.entry? l = some .directory) :
    other.Reaches workingDirectory folders l := by
  constructor
  · exact walk_mono kept reaches.walks
  · exact kept l reaches.directory

theorem Reaches.trail {folders : List String} (reaches : d.Reaches workingDirectory folders l) :
    d.Reaches workingDirectory (Path.trail folders) l := by
  obtain ⟨walks, directory⟩ := reaches
  refine ⟨?_, directory⟩
  cases folders with
  | nil => exact walks
  | cons first rest =>
      by_cases root : first = ""
      · simp only [origin, Path.trail, root, if_true] at walks ⊢
        exact walk_filter_leads walks
      · simp only [origin, Path.trail, root, if_false] at walks ⊢
        obtain ⟨there, next, taken, rest⟩ := of_walk_cons walks
        rw [walk_cons there, taken]
        exact walk_filter_leads rest

theorem walk_of_filter_leads {parts : List String} (walks : d.walk l (parts.filter Path.leads) = .ok m)
    (directory : d.entry? m = some .directory) : d.walk l parts = .ok m := by
  induction parts generalizing l with
  | nil => exact walks
  | cons part parts ih =>
      cases led : Path.leads part with
      | true =>
          rw [List.filter_cons_of_pos led] at walks
          obtain ⟨there, next, taken, rest⟩ := of_walk_cons walks
          rw [walk_cons there, taken]
          exact ih rest
      | false =>
          rw [List.filter_cons_of_neg (by simp [led])] at walks
          have there : d.entry? l = some .directory := by
            cases more : parts.filter Path.leads with
            | nil =>
                rw [more] at walks
                rwa [Except.ok.inj walks]
            | cons first rest =>
                rw [more] at walks
                exact (of_walk_cons walks).1
          rw [walk_cons there, step_of_not_leads led]
          exact ih walks

theorem Reaches.of_trail {folders : List String} (reaches : d.Reaches workingDirectory (Path.trail folders) l) :
    d.Reaches workingDirectory folders l := by
  obtain ⟨walks, directory⟩ := reaches
  refine ⟨?_, directory⟩
  cases folders with
  | nil => exact walks
  | cons first rest =>
      by_cases root : first = ""
      · simp only [origin, Path.trail, root, if_true] at walks ⊢
        exact walk_of_filter_leads walks directory
      · simp only [origin, Path.trail, root, if_false] at walks ⊢
        obtain ⟨there, next, taken, rest⟩ := of_walk_cons walks
        rw [walk_cons there, taken]
        exact walk_of_filter_leads rest directory

theorem start_join (p : Path) {tail : String} (relative : tail.toList.head? ≠ some '/') :
    start workingDirectory (p.join tail) = ((origin workingDirectory p.folders).1,
      (origin workingDirectory p.folders).2 ++ (Path.splitSlashes tail.toList).map String.ofList) := by
  unfold start
  rw [Path.isAbsolute_join p relative, Path.parts_join]
  cases p.folders with
  | nil => rfl
  | cons first rest => by_cases root : first = "" <;> simp [origin, root]

/-- Where the path of a file in a directory leads. -/
theorem locate_join {p : Path} {tail : String} (reaches : d.Reaches workingDirectory p.folders l)
    (relative : tail.toList.head? ≠ some '/') : d.locate workingDirectory (p.join tail) =
      (checkPath (p.join tail)).bind fun _ => d.walk l ((Path.splitSlashes tail.toList).map String.ofList) := by
  unfold locate
  rw [start_join p relative]
  cases checkPath (p.join tail) with
  | error e => rfl
  | ok passed => exact walk_append_of_ok reaches.walks _

theorem start_eq_origin {p : Path} (filled : p.text.isEmpty = false) :
    start workingDirectory p = origin workingDirectory p.parts := by
  unfold start Path.isAbsolute Path.parts
  cases chars : p.text.toList with
  | nil => simp [String.toList_eq_nil_iff.mp chars] at filled
  | cons c cs =>
      by_cases slash : c = '/'
      · simp [Path.splitSlashes, slash, origin]
      · cases split : Path.splitSlashes cs with
        | nil => exact absurd split (Path.splitSlashes_ne_nil cs)
        | cons part parts => simp [Path.splitSlashes, slash, split, origin]

theorem origin_append {folders : List String} (filled : folders ≠ []) (more : List String) :
    origin workingDirectory (folders ++ more) =
      ((origin workingDirectory folders).1, (origin workingDirectory folders).2 ++ more) := by
  cases folders with
  | nil => exact absurd rfl filled
  | cons first rest => by_cases root : first = "" <;> simp [origin, root]

theorem walk_blanks (there : d.entry? l = some .directory) : d.walk l [""] = .ok l := by
  rw [walk_cons there, step_of_not_leads rfl]
  rfl

theorem walk_start_iff {p : Path} (filled : p.text.isEmpty = false) (there : d.entry? l = some .directory) :
    d.walk (start workingDirectory p).1 (start workingDirectory p).2 = .ok l ↔
      d.Reaches workingDirectory p.folders l := by
  obtain ⟨some, same | slash⟩ := Path.parts_eq_folders filled
  · rw [start_eq_origin filled, same]
    exact ⟨fun walks => ⟨walks, there⟩, fun reaches => reaches.walks⟩
  · rw [start_eq_origin filled, slash, origin_append some]
    constructor
    · intro walks
      obtain ⟨m, start, finish⟩ := of_walk_append walks
      obtain ⟨directory, next, taken, rest⟩ := of_walk_cons finish
      rw [step_of_not_leads rfl] at taken
      obtain rfl : m = next := Except.ok.inj taken
      obtain rfl : m = l := Except.ok.inj rest
      exact ⟨start, there⟩
    · intro reaches
      rw [walk_append_of_ok reaches.walks]
      exact walk_blanks there

theorem locate_eq_ok_iff (p : Path) : d.locate workingDirectory p = .ok l ↔ checkPath p = .ok () ∧
    d.walk (start workingDirectory p).1 (start workingDirectory p).2 = .ok l := by
  unfold locate
  cases checkPath p with
  | error e => simp [bind, Except.bind]
  | ok passed => simp [bind, Except.bind]

def here (p : Path) : Path := if p.text.isEmpty then ⟨"."⟩ else p

theorem locate_here_iff {p : Path} (there : d.entry? l = some .directory) :
    d.locate workingDirectory (here p) = .ok l ↔
      checkPath (here p) = .ok () ∧ d.Reaches workingDirectory p.folders l := by
  rw [locate_eq_ok_iff]
  unfold here
  cases empty : p.text.isEmpty with
  | false => simp [walk_start_iff empty there]
  | true =>
      have dot : start workingDirectory ⟨"."⟩ = (workingDirectory, ["."]) := rfl
      have nothing : p.folders = [] := by simp [Path.folders, empty]
      simp only [if_true, dot, nothing]
      refine and_congr_right fun _ => ?_
      constructor
      · intro walks
        obtain ⟨directory, next, taken, rest⟩ := of_walk_cons walks
        rw [step_of_not_leads rfl] at taken
        obtain rfl : workingDirectory = next := Except.ok.inj taken
        exact ⟨rest, there⟩
      · rintro ⟨walks, directory⟩
        obtain rfl : workingDirectory = l := Except.ok.inj walks
        rw [walk_cons directory, step_of_not_leads rfl]
        rfl

/-- Slashes at the end of a path to a directory make no difference. -/
theorem walk_stripped {parts : List String} (walks : d.walk l parts = .ok m) :
    d.walk l (parts.reverse.dropWhile (· = "")).reverse = .ok m := by
  induction parts using List.reverseRecOn generalizing m with
  | nil => exact walks
  | append_singleton parts last ih =>
      by_cases blank : last = ""
      · obtain ⟨n, start, finish⟩ := of_walk_append walks
        obtain ⟨_, next, taken, rest⟩ := of_walk_cons finish
        rw [blank, step_of_not_leads rfl] at taken
        obtain rfl : n = next := Except.ok.inj taken
        obtain rfl : n = m := Except.ok.inj rest
        simpa [blank] using ih start
      · simpa [blank] using walks

theorem locate_file {p : Path} {file : String} (reaches : d.Reaches workingDirectory p.folders l)
    (plain : '/' ∉ file.toList) (led : Path.leads file = true) (down : file ≠ "..") :
    d.locate workingDirectory (p.join file) = (checkPath (p.join file)).bind fun _ =>
      if 255 < file.utf8ByteSize then .error .nameTooLong else .ok (l ++ [file]) := by
  have relative : file.toList.head? ≠ some '/' := fun head => plain (List.mem_of_mem_head? head)
  rw [locate_join reaches relative, Path.splitSlashes_of_not_mem plain]
  simp only [List.map_cons, String.ofList_toList, List.map_nil, walk_cons reaches.directory,
    step_of_leads led down]
  cases checkPath (p.join file) with
  | error e => rfl
  | ok passed => split <;> rfl

end Disk

end AutoDiff
