import AutoDiff.Config.Toml
import AutoDiff.Proofs.TomlStrings

namespace AutoDiff

namespace Toml

abbrev lineChars (s : String) : List Char := [' ', ' ', ' ', ' '] ++ quote s ++ [',', '\n']

theorem joinLineEnds_eq_self {cs : List Char} (none : '\r' ∉ cs) : joinLineEnds cs = cs := by
  induction cs with
  | nil => rfl
  | cons c cs ih =>
      rw [List.mem_cons, not_or] at none
      rw [joinLineEnds, ih none.2]
      rintro _ rfl
      exact absurd rfl none.1

section

variable {c : Char} {cs rest : List Char}

def Starts (c : Char) : Prop := c ≠ '#' ∧ isBlank c = false ∧ c ≠ '\n'

instance (c : Char) : Decidable (Starts c) := inferInstanceAs (Decidable (_ ∧ _))

theorem skipSpace_of_starts (starts : Starts c) : skipSpace false (c :: cs) = c :: cs := by
  obtain ⟨comment, blank, lineEnd⟩ := starts
  simp [skipSpace, comment, blank, lineEnd]

theorem skipBlanks_of_starts (starts : Starts c) : skipBlanks (c :: cs) = c :: cs := by
  simp [skipBlanks, starts.2.1]

theorem skipSpace_lineEnd (cs : List Char) : skipSpace false ('\n' :: cs) = skipSpace false cs := rfl

theorem skipSpace_indented (cs : List Char) :
    skipSpace false (' ' :: ' ' :: ' ' :: ' ' :: cs) = skipSpace false cs := rfl

theorem skipSpace_quote (text : String) (rest : List Char) :
    skipSpace false (quote text ++ rest) = quote text ++ rest := by
  obtain ⟨m, v, starts, isMark⟩ := exists_quote text
  rw [starts, List.cons_append]
  apply skipSpace_of_starts
  rcases isMark with rfl | rfl <;> decide

theorem clear_cons (double : c ≠ '"') (single : c ≠ '\'') : Clear (c :: rest) := by
  intro d found
  obtain rfl : c = d := by simpa using found
  exact ⟨double, single⟩

end

theorem strings?_quote (fuel : Nat) {cs : List Char} (s : String) {rest : List Char} (clear : Clear rest)
    (next : skipSpace false cs = quote s ++ rest) :
    strings? (fuel + 1) cs = match skipSpace false rest with
      | ']' :: rest => some ([s], rest)
      | ',' :: rest => do
        let (ss, rest) ← strings? fuel rest
        return (s :: ss, rest)
      | _ => none := by
  have read := string?_quote s clear
  obtain ⟨m, v, starts, isMark⟩ := exists_quote s
  rw [starts, List.cons_append] at next read
  have first : ∀ tail, m :: (v ++ rest) = ']' :: tail → False := by
    rcases isMark with rfl | rfl <;> simp
  rw [strings?, next]
  split
  · next same => exact (first _ same).elim
  · rw [read]
    rfl

theorem strings?_lines (ss : List String) (rest : List Char) {fuel : Nat} (enough : ss.length < fuel) :
    strings? fuel ('\n' :: (ss.flatMap lineChars ++ ']' :: rest)) = some (ss, rest) := by
  induction ss generalizing fuel with
  | nil =>
      obtain ⟨fuel, rfl⟩ := Nat.exists_eq_succ_of_ne_zero (Nat.ne_of_gt enough)
      rfl
  | cons s ss ih =>
      obtain ⟨fuel, rfl⟩ := Nat.exists_eq_succ_of_ne_zero (Nat.ne_of_gt (Nat.zero_lt_of_lt enough))
      have next : skipSpace false ('\n' :: ((s :: ss).flatMap lineChars ++ ']' :: rest)) =
          quote s ++ (',' :: '\n' :: (ss.flatMap lineChars ++ ']' :: rest)) := by
        rw [← skipSpace_quote s, skipSpace_lineEnd, ← skipSpace_indented (quote s ++ _)]
        simp [lineChars]
      rw [strings?_quote fuel s (clear_cons (by decide) (by decide)) next]
      have comma : skipSpace false (',' :: '\n' :: (ss.flatMap lineChars ++ ']' :: rest)) =
          ',' :: '\n' :: (ss.flatMap lineChars ++ ']' :: rest) := rfl
      simp only [comma, ih (Nat.lt_of_succ_lt_succ enough), Option.bind_eq_bind, Option.bind_some]
      rfl

theorem listChars_lines (s t : String) (ss : List String) :
    listChars (s :: t :: ss) = '[' :: '\n' :: ((s :: t :: ss).flatMap lineChars ++ [']']) := rfl

theorem length_le_flatMap {β : Type} {f : β → List Char} (each : ∀ item, f item ≠ []) (items : List β) :
    items.length ≤ (items.flatMap f).length := by
  induction items with
  | nil => exact Nat.le_refl 0
  | cons item items ih =>
      have own := List.length_pos_iff.mpr (each item)
      rw [List.flatMap_cons, List.length_append, List.length_cons]
      omega

theorem strings?_listChars (ss : List String) (rest : List Char) :
    ∃ cs, listChars ss ++ rest = '[' :: cs ∧ strings? (cs.length + 1) cs = some (ss, rest) := by
  match ss with
  | [] => exact ⟨']' :: rest, rfl, rfl⟩
  | [s] =>
      refine ⟨quote s ++ ']' :: rest, by simp [listChars], ?_⟩
      rw [strings?_quote _ s (clear_cons (by decide) (by decide)) (skipSpace_quote s _)]
      rfl
  | s :: t :: ss =>
      refine ⟨'\n' :: ((s :: t :: ss).flatMap lineChars ++ ']' :: rest), ?_, ?_⟩
      · rw [listChars_lines]
        simp
      · apply strings?_lines
        have lines := length_le_flatMap (f := lineChars) (by simp) (s :: t :: ss)
        rw [List.length_cons (a := '\n'), List.length_append, List.length_cons (a := ']')]
        omega

theorem value?_chars (v : Value) {rest : List Char} (clear : Clear rest) :
    value? (v.chars ++ rest) = some (v, rest) := by
  cases v with
  | text s =>
      have read := string?_quote s clear
      obtain ⟨m, v, starts, isMark⟩ := exists_quote s
      rw [starts, List.cons_append] at read
      rw [Value.chars, starts, List.cons_append]
      have last : value? (m :: (v ++ rest)) =
          (string? (m :: (v ++ rest))).bind fun read => some (.text read.1, read.2) := by
        rcases isMark with rfl | rfl <;> rfl
      rw [last, read, Option.bind_some]
  | flag b => cases b <;> rfl
  | texts ss =>
      obtain ⟨cs, starts, read⟩ := strings?_listChars ss rest
      rw [Value.chars, starts]
      simp only [value?, read, Option.bind_eq_bind, Option.bind_some]
      rfl

/-- A key that needs no quotes. -/
def Bare (key : String) : Prop := key.toList ≠ [] ∧ ∀ c ∈ key.toList, isKeyChar c = true

-- The characters of the key are looked at one by one. An instance for all characters would enumerate them.
instance (key : String) : Decidable (Bare key) :=
  decidable_of_iff (key.toList ≠ [] ∧ key.toList.all isKeyChar = true) (by rw [Bare, List.all_eq_true])

theorem Bare.exists_cons {key : String} (bare : Bare key) :
    ∃ c cs, key.toList = c :: cs ∧ ∀ d ∈ c :: cs, isKeyChar d = true := by
  obtain ⟨c, cs, letters⟩ := List.exists_cons_of_ne_nil bare.1
  exact ⟨c, cs, letters, letters ▸ bare.2⟩

theorem isKeyChar_ne {c d : Char} (inKey : isKeyChar c = true) (other : isKeyChar d = false) : c ≠ d := by
  rintro rfl
  rw [other] at inKey
  cases inKey

theorem starts_of_isKeyChar {c : Char} (inKey : isKeyChar c = true) : Starts c := by
  refine ⟨isKeyChar_ne inKey (by decide), ?_, isKeyChar_ne inKey (by decide)⟩
  have space := isKeyChar_ne (d := ' ') inKey (by decide)
  have tab := isKeyChar_ne (d := '\t') inKey (by decide)
  simp [isBlank, space, tab]

theorem key?_bare {key : String} (bare : Bare key) {c : Char} (ends : isKeyChar c = false) (rest : List Char) :
    key? (key.toList ++ c :: rest) = some (key, c :: rest) := by
  obtain ⟨d, ds, letters, each⟩ := bare.exists_cons
  have double := isKeyChar_ne (d := '"') (each d (by simp)) (by decide)
  have single := isKeyChar_ne (d := '\'') (each d (by simp)) (by decide)
  have word : (d :: (ds ++ c :: rest)).takeWhile isKeyChar = d :: ds := by
    rw [← List.cons_append, List.takeWhile_append_of_pos each, List.takeWhile_cons_of_neg (by simp [ends]),
      List.append_nil]
  have after : (d :: (ds ++ c :: rest)).dropWhile isKeyChar = c :: rest := by
    rw [← List.cons_append, List.dropWhile_append_of_pos each, List.dropWhile_cons_of_neg (by simp [ends])]
  have same : String.ofList (d :: ds) = key := by rw [← letters, String.ofList_toList]
  rw [letters, List.cons_append]
  unfold key?
  split
  · next isDouble => exact absurd (List.cons.inj isDouble).1 double
  · next isSingle => exact absurd (List.cons.inj isSingle).1 single
  · simp [word, after, same, guard]

theorem skipBlanks_chars (v : Value) (rest : List Char) : skipBlanks (v.chars ++ rest) = v.chars ++ rest := by
  cases v with
  | text s =>
      obtain ⟨m, v, starts, isMark⟩ := exists_quote s
      rw [Value.chars, starts, List.cons_append]
      apply skipBlanks_of_starts
      rcases isMark with rfl | rfl <;> decide
  | flag b => cases b <;> rfl
  | texts ss =>
      obtain ⟨cs, starts, _⟩ := strings?_listChars ss rest
      rw [Value.chars, starts]
      exact skipBlanks_of_starts (by decide)

theorem entries?_lineEnd (fuel : Nat) (cs : List Char) : entries? fuel ('\n' :: cs) = entries? fuel cs := by
  cases fuel <;> rfl

theorem entries?_entryChars (fuel : Nat) {key : String} (bare : Bare key) (v : Value) (rest : List Char) :
    entries? (fuel + 1) (entryChars (key, v) ++ rest) = (entries? fuel rest).map ((key, v) :: ·) := by
  have written : entryChars (key, v) ++ rest = key.toList ++ ' ' :: '=' :: ' ' :: (v.chars ++ '\n' :: rest) := by
    simp [entryChars]
  have next : skipSpace false (key.toList ++ ' ' :: '=' :: ' ' :: (v.chars ++ '\n' :: rest)) =
      key.toList ++ ' ' :: '=' :: ' ' :: (v.chars ++ '\n' :: rest) := by
    obtain ⟨c, cs, letters, each⟩ := bare.exists_cons
    rw [letters, List.cons_append]
    exact skipSpace_of_starts (starts_of_isKeyChar (each c (by simp)))
  have equals : skipBlanks (' ' :: '=' :: ' ' :: (v.chars ++ '\n' :: rest)) =
      '=' :: ' ' :: (v.chars ++ '\n' :: rest) := rfl
  have value : skipBlanks (' ' :: (v.chars ++ '\n' :: rest)) = v.chars ++ '\n' :: rest :=
    skipBlanks_chars v ('\n' :: rest)
  have read : value? (v.chars ++ '\n' :: rest) = some (v, '\n' :: rest) :=
    value?_chars v (clear_cons (by decide) (by decide))
  have ended : endsLine ('\n' :: rest) = true := rfl
  rw [written, entries?, next]
  split
  · next empty => simp at empty
  · rw [key?_bare bare (by decide)]
    simp only [Option.bind_eq_bind, Option.bind_some, equals, value, read, ended, guard, if_true, entries?_lineEnd]
    cases entries? fuel rest <;> rfl

theorem entries?_flatMap (d : Document) (bare : ∀ entry ∈ d, Bare entry.1) {fuel : Nat} (enough : d.length < fuel) :
    entries? fuel (d.flatMap entryChars) = some d := by
  induction d generalizing fuel with
  | nil =>
      obtain ⟨fuel, rfl⟩ := Nat.exists_eq_succ_of_ne_zero (Nat.ne_of_gt enough)
      rfl
  | cons entry d ih =>
      obtain ⟨fuel, rfl⟩ := Nat.exists_eq_succ_of_ne_zero (Nat.ne_of_gt (Nat.zero_lt_of_lt enough))
      rw [List.flatMap_cons, entries?_entryChars fuel (bare entry (by simp)),
        ih (fun other member => bare other (by simp [member])) (Nat.lt_of_succ_lt_succ enough)]
      rfl

theorem not_mem_chars (v : Value) : '\r' ∉ v.chars := by
  cases v with
  | text s => exact not_mem_quote s
  | flag b => cases b <;> decide
  | texts ss =>
      match ss with
      | [] => decide
      | [s] => simp [Value.chars, listChars, not_mem_quote]
      | s :: t :: ss => simp [Value.chars, listChars_lines, not_mem_quote]

theorem not_mem_entryChars {key : String} (bare : Bare key) (v : Value) : '\r' ∉ entryChars (key, v) := by
  have word : '\r' ∉ key.toList := by
    intro member
    exact isKeyChar_ne (bare.2 '\r' member) (by decide) rfl
  simp [entryChars, word, not_mem_chars]

theorem parse?_render (d : Document) (bare : ∀ entry ∈ d, Bare entry.1) (distinct : (d.map Prod.fst).Nodup) :
    parse? (render d) = some d := by
  have joined : joinLineEnds (d.flatMap entryChars) = d.flatMap entryChars := by
    apply joinLineEnds_eq_self
    rw [List.mem_flatMap]
    rintro ⟨entry, member, inside⟩
    exact not_mem_entryChars (bare entry member) entry.2 inside
  have enough : d.length < (d.flatMap entryChars).length + 1 :=
    Nat.lt_succ_of_le (length_le_flatMap (by simp [entryChars]) d)
  have read : parseChars? (d.flatMap entryChars) = some d := by
    simp only [parseChars?, joined, entries?_flatMap d bare enough, Option.bind_eq_bind, Option.bind_some, distinct,
      guard, if_true]
    rfl
  unfold parse? render
  rw [String.toList_ofList]
  split
  · next marked =>
      cases d with
      | nil => simp at marked
      | cons entry d =>
          obtain ⟨c, cs, letters, each⟩ := (bare entry (by simp)).exists_cons
          have first : c = '\ufeff' := by
            simp [entryChars, letters] at marked
            exact marked.1
          exact absurd first (isKeyChar_ne (each c (by simp)) (by decide))
  · exact read

end Toml

namespace Config

theorem keys_toDocument (c : Config) : (c.toDocument.map Prod.fst).Sublist
    ["optimization_flags", "artifact_directory", "compiler", "keep_sources", "verbose"] := by
  unfold toDocument
  cases c.compiler with
  | none =>
      show List.Sublist ["optimization_flags", "artifact_directory", "keep_sources", "verbose"] _
      decide
  | some compiler => exact .refl _

theorem bare_toDocument (c : Config) : ∀ entry ∈ c.toDocument, Toml.Bare entry.1 := by
  intro entry member
  have key := c.keys_toDocument.subset (List.mem_map_of_mem member)
  have bare : ∀ key ∈ ["optimization_flags", "artifact_directory", "compiler", "keep_sources", "verbose"],
      Toml.Bare key := by decide
  exact bare entry.1 key

theorem foldlM_assign? (c : Config) : c.toDocument.foldlM assign? {} = some c := by
  obtain ⟨flags, directory, compiler, keepSources, verbose⟩ := c
  cases compiler <;> rfl

/-- Settings come back from their own text, whatever their flags and paths are made of. -/
theorem ofToml?_toToml (c : Config) : ofToml? c.toToml = some c := by
  have distinct : (c.toDocument.map Prod.fst).Nodup := by
    exact c.keys_toDocument.nodup (by decide)
  rw [ofToml?, toToml, Toml.parse?_render _ c.bare_toDocument distinct]
  exact c.foldlM_assign?

end Config

end AutoDiff
