import AutoDiff.Disk
import Mathlib.Data.List.Flatten
import Mathlib.Data.List.Induction
import Mathlib.Data.String.Basic

namespace AutoDiff.Path

theorem splitSlashes_ne_nil (cs : List Char) : splitSlashes cs ≠ [] := by
  cases cs with
  | nil => simp [splitSlashes]
  | cons c cs =>
      unfold splitSlashes
      split
      · simp
      · split <;> simp

theorem splitSlashes_append (cs rest : List Char) :
    splitSlashes (cs ++ '/' :: rest) = splitSlashes cs ++ splitSlashes rest := by
  induction cs with
  | nil => simp [splitSlashes]
  | cons c cs ih =>
      by_cases slash : c = '/'
      · simp [splitSlashes, slash, ih]
      · simp only [List.cons_append, splitSlashes, slash, if_false, ih]
        cases parts : splitSlashes cs with
        | nil => exact absurd parts (splitSlashes_ne_nil cs)
        | cons part parts => rfl

theorem splitSlashes_of_not_mem {cs : List Char} (plain : '/' ∉ cs) : splitSlashes cs = [cs] := by
  induction cs with
  | nil => rfl
  | cons c cs ih =>
      simp only [List.mem_cons, not_or] at plain
      obtain ⟨other, rest⟩ := plain
      simp [splitSlashes, Ne.symm other, ih rest]

theorem exists_splitSlashes_cons {c : Char} (other : c ≠ '/') (cs : List Char) :
    ∃ part parts, splitSlashes (c :: cs) = (c :: part) :: parts := by
  simp only [splitSlashes, other, if_false]
  cases splitSlashes cs with
  | nil => exact ⟨[], [], rfl⟩
  | cons part parts => exact ⟨part, parts, rfl⟩

theorem not_mem_of_mem_splitSlashes {cs part : List Char} (member : part ∈ splitSlashes cs) : '/' ∉ part := by
  induction cs generalizing part with
  | nil =>
      obtain rfl : part = [] := by simpa [splitSlashes] using member
      simp
  | cons c cs ih =>
      by_cases slash : c = '/'
      · simp only [splitSlashes, slash, if_true, List.mem_cons] at member
        rcases member with rfl | rest
        · simp
        · exact ih rest
      · simp only [splitSlashes, slash, if_false] at member
        cases parts : splitSlashes cs with
        | nil => exact absurd parts (splitSlashes_ne_nil cs)
        | cons first others =>
            rw [parts] at ih
            simp only [parts, List.mem_cons] at member
            rcases member with rfl | rest
            · simpa [Ne.symm slash] using @ih first (by simp)
            · exact ih (by simp [rest])

def joined (parts : List String) : List Char := parts.flatMap fun part => part.toList ++ ['/']

theorem splitSlashes_joined (parts : List String) (plain : ∀ part ∈ parts, '/' ∉ part.toList)
    (rest : List Char) : splitSlashes (joined parts ++ rest) = parts.map String.toList ++ splitSlashes rest := by
  induction parts with
  | nil => rfl
  | cons part parts ih =>
      have first := splitSlashes_of_not_mem (plain part (by simp))
      have text : joined (part :: parts) ++ rest = part.toList ++ '/' :: (joined parts ++ rest) := by
        simp [joined]
      rw [text, splitSlashes_append, first, ih fun other member => plain other (by simp [member])]
      rfl

theorem joined_splitSlashes (cs : List Char) : joined ((splitSlashes cs).map String.ofList) = cs ++ ['/'] := by
  induction cs with
  | nil => rfl
  | cons c cs ih =>
      by_cases slash : c = '/'
      · simpa [splitSlashes, slash, joined] using ih
      · cases split : splitSlashes cs with
        | nil => exact absurd split (splitSlashes_ne_nil cs)
        | cons part parts =>
            rw [split] at ih
            simpa [splitSlashes, slash, split, joined] using ih

theorem joined_parts (p : Path) : joined p.parts = p.text.toList ++ ['/'] := joined_splitSlashes p.text.toList

/-- The parts that come before the name of a file in a directory. -/
def folders (p : Path) : List String :=
  if p.text.isEmpty then [] else if p.endsWithSlash then p.parts.dropLast else p.parts

theorem plain_of_mem_parts {p : Path} {part : String} (member : part ∈ p.parts) : '/' ∉ part.toList := by
  obtain ⟨cs, inside, rfl⟩ := List.mem_map.mp member
  simpa using not_mem_of_mem_splitSlashes inside

theorem plain_of_mem_folders {p : Path} {part : String} (member : part ∈ p.folders) : '/' ∉ part.toList := by
  unfold folders at member
  split at member
  · simp at member
  · split at member
    · exact plain_of_mem_parts (List.dropLast_subset _ member)
    · exact plain_of_mem_parts member

theorem parts_of_endsWithSlash {p : Path} (slash : p.endsWithSlash = true) :
    p.parts = p.parts.dropLast ++ [""] ∧ joined p.parts.dropLast = p.text.toList := by
  obtain ⟨start, text⟩ := List.getLast?_eq_some_iff.mp (eq_of_beq slash)
  have split : p.parts = (splitSlashes start).map String.ofList ++ [""] := by
    rw [parts, text, splitSlashes_append]
    simp [splitSlashes]
  constructor
  · simp [split]
  · rw [split, List.dropLast_concat, joined_splitSlashes, text]

theorem parts_eq_folders {p : Path} (filled : p.text.isEmpty = false) :
    p.folders ≠ [] ∧ (p.parts = p.folders ∨ p.parts = p.folders ++ [""]) := by
  cases slash : p.endsWithSlash with
  | false =>
      have folders : p.folders = p.parts := by simp [folders, filled, slash]
      refine ⟨?_, .inl folders.symm⟩
      simp [folders, parts, splitSlashes_ne_nil]
  | true =>
      obtain ⟨split, joins⟩ := parts_of_endsWithSlash slash
      have folders : p.folders = p.parts.dropLast := by simp [folders, filled, slash]
      refine ⟨fun none => ?_, .inr (folders ▸ split)⟩
      have empty : p.text = "" := by simpa [← folders, none, joined] using joins.symm
      simp [empty] at filled

theorem toList_join (p : Path) (name : String) : (p.join name).text.toList = joined p.folders ++ name.toList := by
  unfold join folders
  by_cases empty : p.text.isEmpty = true
  · have nothing : p.text = "" := String.isEmpty_iff.mp empty
    simp [nothing, joined]
  · cases slash : p.endsWithSlash with
    | true => simp [empty, (parts_of_endsWithSlash slash).2]
    | false => simp [empty, joined_parts]

theorem joined_inj {fs gs : List String} (plain : ∀ part ∈ fs, '/' ∉ part.toList)
    (plain' : ∀ part ∈ gs, '/' ∉ part.toList) (same : joined fs = joined gs) : fs = gs := by
  have left := splitSlashes_joined fs plain []
  have right := splitSlashes_joined gs plain' []
  rw [same, right] at left
  have parts : gs.map String.toList = fs.map String.toList := List.append_cancel_right left
  exact (List.map_injective_iff.mpr (fun _ _ => String.toList_injective) parts).symm

theorem folders_of_joined {p : Path} {fs : List String} (plain : ∀ part ∈ fs, '/' ∉ part.toList)
    (text : p.text.toList = joined fs) : p.folders = fs := by
  refine joined_inj (fun part member => plain_of_mem_folders member) plain ?_
  cases fs using List.reverseRecOn with
  | nil =>
      have nothing : p.text = "" := String.toList_eq_nil_iff.mp text
      simp [folders, nothing]
  | append_singleton start last =>
      have ends : p.text.toList = joined start ++ last.toList ++ ['/'] := by simp [text, joined]
      have slash : p.endsWithSlash = true := by simp [endsWithSlash, ends]
      have some : p.text.isEmpty = false := by
        cases empty : p.text.isEmpty with
        | false => rfl
        | true => simp [String.isEmpty_iff.mp empty] at ends
      rw [folders, some, slash, if_neg Bool.false_ne_true, if_pos rfl, (parts_of_endsWithSlash slash).2, text]

theorem folders_of_joined_slash {p : Path} {fs : List String} {last : String}
    (plain : ∀ part ∈ fs ++ [last], '/' ∉ part.toList) (named : last ≠ "")
    (text : p.text.toList ++ ['/'] = joined (fs ++ [last])) : p.folders = fs ++ [last] := by
  have chars : p.text.toList = joined fs ++ last.toList := by
    have whole : p.text.toList ++ ['/'] = (joined fs ++ last.toList) ++ ['/'] := by simp [text, joined]
    exact List.append_cancel_right whole
  have filled : last.toList ≠ [] := fun empty => named (String.toList_eq_nil_iff.mp empty)
  have slash : p.endsWithSlash = false := by
    have final : p.text.toList.getLast? = last.toList.getLast? := by
      rw [chars, List.getLast?_append_of_ne_nil _ filled]
    have plainLast : '/' ∉ last.toList := plain last (by simp)
    unfold endsWithSlash
    rw [final]
    refine beq_false_of_ne fun ends => plainLast (List.mem_of_getLast? ends)
  have some : p.text.isEmpty = false := by
    cases empty : p.text.isEmpty with
    | false => rfl
    | true => simp [String.isEmpty_iff.mp empty, filled] at chars
  have parts : p.folders = p.parts := by simp [folders, slash, some]
  rw [parts]
  refine joined_inj (fun part member => plain_of_mem_parts member) plain ?_
  rw [joined_parts, text]

theorem parts_join (p : Path) (tail : String) :
    (p.join tail).parts = p.folders ++ (splitSlashes tail.toList).map String.ofList := by
  have split := splitSlashes_joined p.folders (fun part member => plain_of_mem_folders member) tail.toList
  rw [parts, toList_join, split]
  simp

theorem isAbsolute_join (p : Path) {tail : String} (relative : tail.toList.head? ≠ some '/') :
    (p.join tail).isAbsolute = (p.folders.head? == some "") := by
  unfold isAbsolute
  rw [toList_join]
  cases folders : p.folders with
  | nil => simpa [joined] using relative
  | cons first rest =>
      cases chars : first.toList with
      | nil =>
          obtain rfl : first = "" := String.toList_eq_nil_iff.mp chars
          simp [joined]
      | cons c cs =>
          have plain : '/' ∉ first.toList := plain_of_mem_folders (folders ▸ List.mem_cons_self)
          have named : first ≠ "" := fun nothing => by simp [nothing] at chars
          simp only [chars, List.mem_cons, not_or] at plain
          simp [joined, chars, Ne.symm plain.1, named]

def leads (part : String) : Bool := part ≠ "" ∧ part ≠ "."

theorem filter_leads (fs : List String) : (fs.filter fun part => !decide (part = "") && leads part) = fs.filter leads := by
  refine List.filter_congr fun part _ => ?_
  by_cases empty : part = "" <;> simp [leads, empty]

/-- Folders without the parts that lead nowhere. The first one stays: it tells an absolute path. -/
def trail : List String → List String
  | [] => []
  | first :: rest => first :: rest.filter leads

theorem trail_sublist (fs : List String) : (trail fs).Sublist fs := by
  cases fs with
  | nil => exact .slnil
  | cons first rest => exact List.filter_sublist.cons_cons first

theorem joined_intercalate {fs : List String} (some : fs ≠ []) : ("/".intercalate fs).toList ++ ['/'] = joined fs := by
  rw [String.toList_intercalate]
  induction fs with
  | nil => exact absurd rfl some
  | cons first rest ih =>
      cases rest with
      | nil => simp [joined]
      | cons second rest =>
          have tail := ih (List.cons_ne_nil second rest)
          have slash : "/".toList = ['/'] := rfl
          rw [List.map_cons] at tail ⊢
          rw [List.map_cons, List.intercalate_cons_cons, List.append_assoc, List.append_assoc, tail, slash]
          simp [joined]

theorem trail_eq (fs : List String) :
    trail fs = (if fs.head? == some "" then [""] else []) ++ (trail fs).filter (· ≠ "") := by
  cases fs with
  | nil => rfl
  | cons first rest =>
      by_cases root : first = "" <;> simp [trail, root, filter_leads]

theorem components_join (p : Path) {file : String} (plain : '/' ∉ file.toList) (led : leads file = true) :
    (p.join file).components = (trail p.folders).filter (· ≠ "") ++ [file] := by
  have relative : file.toList.head? ≠ some '/' := fun head => plain (List.mem_of_mem_head? head)
  have same : (fun part => decide (part ≠ "" ∧ part ≠ ".")) = leads := rfl
  have named : file ≠ "" := by
    simp only [leads, decide_eq_true_eq] at led
    exact led.1
  unfold components
  rw [parts_join, isAbsolute_join p relative, splitSlashes_of_not_mem plain, same]
  cases p.folders with
  | nil => simp [trail, named]
  | cons first rest =>
      by_cases root : first = ""
      · subst root
        have blank : leads "" = false := rfl
        simp [trail, blank, filter_leads, led]
      · simp [trail, root, filter_leads, led]

theorem exists_parent (p : Path) {file : String} (plain : '/' ∉ file.toList) (led : leads file = true) :
    ∃ parent, (p.join file).parent? = some parent ∧ parent.folders = trail p.folders ∧
      parent.text.toList.Sublist (joined p.folders) := by
  have relative : file.toList.head? ≠ some '/' := fun head => plain (List.mem_of_mem_head? head)
  have sub : (joined (trail p.folders)).Sublist (joined p.folders) := (trail_sublist p.folders).flatMap _
  have plains : ∀ part ∈ trail p.folders, '/' ∉ part.toList := fun part member =>
    plain_of_mem_folders ((trail_sublist p.folders).subset member)
  have whole := trail_eq p.folders
  unfold parent?
  rw [components_join p plain led, isAbsolute_join p relative, List.dropLast_concat]
  generalize kept : (trail p.folders).filter (· ≠ "") = names at whole ⊢
  refine ⟨_, if_neg (by simp), ?_⟩
  cases names using List.reverseRecOn with
  | nil =>
      have text : ((if (p.folders.head? == some "") = true then "/" else "") ++ "/".intercalate []).toList =
          joined (trail p.folders) := by
        rw [whole]
        split <;> simp [joined]
      constructor
      · exact folders_of_joined plains text
      · rwa [← text] at sub
  | append_singleton start last =>
      have named : last ≠ "" := by
        have member : last ∈ (trail p.folders).filter (· ≠ "") := by rw [kept]; simp
        simpa using (List.mem_filter.mp member).2
      have text : ((if (p.folders.head? == some "") = true then "/" else "") ++
          "/".intercalate (start ++ [last])).toList ++ ['/'] = joined (trail p.folders) := by
        rw [whole, String.toList_append, List.append_assoc, joined_intercalate (by simp)]
        split <;> simp [joined]
      constructor
      · rw [whole, ← List.append_assoc] at plains text ⊢
        exact folders_of_joined_slash plains named text
      · rw [← text] at sub
        exact (List.sublist_append_left _ _).trans sub

end AutoDiff.Path
