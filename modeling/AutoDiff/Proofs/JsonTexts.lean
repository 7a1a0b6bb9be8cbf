import AutoDiff.Proofs.Numerals

namespace AutoDiff.Json

/-- The blanks of a text: those before an item or a closing bracket at a depth, and those after a colon. -/
structure Spacing where
  line : Nat → List Char
  colon : List Char
  line_blank : ∀ depth, ∀ c ∈ line depth, isBlank c = true
  colon_blank : ∀ c ∈ colon, isBlank c = true

namespace Spacing

def pretty : Spacing where
  line := newline
  colon := [' ']
  line_blank depth c member := by
    rcases List.mem_cons.mp member with rfl | later
    · decide
    · rw [List.eq_of_mem_replicate later]
      decide
  colon_blank := by simp [isBlank]

def compact : Spacing where
  line _ := []
  colon := []
  line_blank := by simp
  colon_blank := by simp

@[simp] theorem line_pretty : pretty.line = newline := rfl
@[simp] theorem colon_pretty : pretty.colon = [' '] := rfl
@[simp] theorem line_compact (depth : Nat) : compact.line depth = [] := rfl
@[simp] theorem colon_compact : compact.colon = [] := rfl

end Spacing

mutual

def spacedChars (s : Spacing) (depth : Nat) : Json → List Char
  | array [] => ['[', ']']
  | object [] => ['{', '}']
  | array items => '[' :: spacedItems s (depth + 1) items ++ s.line depth ++ [']']
  | object members => '{' :: spacedMembers s (depth + 1) members ++ s.line depth ++ ['}']
  | leaf => chars leaf

def spacedItems (s : Spacing) (depth : Nat) : List Json → List Char
  | [] => []
  | item :: items =>
    s.line depth ++ spacedChars s depth item ++ (if items.isEmpty then [] else ',' :: spacedItems s depth items)

def spacedMembers (s : Spacing) (depth : Nat) : List (Option String × Json) → List Char
  | [] => []
  | (key, item) :: members =>
    s.line depth ++ (quote key ++ ':' :: (s.colon ++ (spacedChars s depth item
      ++ (if members.isEmpty then [] else ',' :: spacedMembers s depth members))))

end

mutual

theorem spacedChars_pretty (depth : Nat) : ∀ j, spacedChars .pretty depth j = prettyChars depth j
  | null | bool _ | number _ | string _ | array [] | object [] => rfl
  | array (item :: items) => by
      rw [spacedChars, prettyChars, spacedItems_pretty]
      all_goals simp
  | object (member :: members) => by
      rw [spacedChars, prettyChars, spacedMembers_pretty]
      all_goals simp

theorem spacedItems_pretty (depth : Nat) : ∀ items, spacedItems .pretty depth items = prettyItems depth items
  | [] => rfl
  | [item] => by simp [spacedItems, prettyItems, spacedChars_pretty depth item]
  | item :: next :: items => by
      rw [spacedItems, prettyItems, spacedChars_pretty depth item, spacedItems_pretty depth (next :: items)]
      all_goals simp

theorem spacedMembers_pretty (depth : Nat) :
    ∀ members, spacedMembers .pretty depth members = prettyMembers depth members
  | [] => rfl
  | [(key, item)] => by simp [spacedMembers, prettyMembers, spacedChars_pretty depth item]
  | (key, item) :: next :: members => by
      rw [spacedMembers, prettyMembers, spacedChars_pretty depth item, spacedMembers_pretty depth (next :: members)]
      all_goals simp

end

mutual

theorem spacedChars_compact (depth : Nat) : ∀ j, spacedChars .compact depth j = chars j
  | null | bool _ | number _ | string _ | array [] | object [] => by rfl
  | array (item :: items) => by
      rw [spacedChars, chars, spacedItems_compact]
      all_goals simp
  | object (member :: members) => by
      rw [spacedChars, chars, spacedMembers_compact]
      all_goals simp

theorem spacedItems_compact (depth : Nat) : ∀ items, spacedItems .compact depth items = itemChars items
  | [] => rfl
  | [item] => by simp [spacedItems, itemChars, spacedChars_compact depth item]
  | item :: next :: items => by
      rw [spacedItems, itemChars, spacedChars_compact depth item, spacedItems_compact depth (next :: items)]
      all_goals simp

theorem spacedMembers_compact (depth : Nat) :
    ∀ members, spacedMembers .compact depth members = memberChars members
  | [] => rfl
  | [(key, item)] => by simp [spacedMembers, memberChars, spacedChars_compact depth item]
  | (key, item) :: next :: members => by
      rw [spacedMembers, memberChars, spacedChars_compact depth item, spacedMembers_compact depth (next :: members)]
      all_goals simp

end

/-- A character that stands for itself in a string. -/
def Plain (c : Char) : Prop := c ≠ '"' ∧ c ≠ '\\' ∧ 0x20 ≤ c.val

instance (c : Char) : Decidable (Plain c) := inferInstanceAs (Decidable (_ ∧ _))

inductive Printable : Json → Prop where
  | null : Printable null
  | bool (b : Bool) : Printable (bool b)
  | number (n : Numeral) (whole : isWhole n.whole = true) : Printable (number n)
  | string (s : String) (plain : ∀ c ∈ s.toList, Plain c) : Printable (ofString s)
  | array (items : List Json) (each : ∀ item ∈ items, Printable item) : Printable (array items)
  | record (members : List (String × Json)) (keys : ∀ m ∈ members, ∀ c ∈ m.1.toList, Plain c)
    (each : ∀ m ∈ members, Printable m.2) : Printable (record members)

theorem escapeChar_of_plain {c : Char} (plain : Plain c) : escapeChar c = [c] := by
  obtain ⟨quote, backslash, printing⟩ := plain
  unfold escapeChar
  split
  · exact absurd rfl quote
  · exact absurd rfl backslash
  · exact absurd printing (by decide)
  · exact absurd printing (by decide)
  · exact absurd printing (by decide)
  · exact absurd printing (by decide)
  · exact absurd printing (by decide)
  · rw [if_neg (UInt32.not_lt.mpr printing)]

theorem flatMap_escapeChar (cs : List Char) (plain : ∀ c ∈ cs, Plain c) : cs.flatMap escapeChar = cs := by
  induction cs with
  | nil => rfl
  | cons c cs ih =>
      rw [List.flatMap_cons, escapeChar_of_plain (plain c (by simp)),
        ih fun d member => plain d (by simp [member])]
      rfl

theorem elements_of_plain (cs : List Char) (plain : ∀ c ∈ cs, Plain c) (rest : List Char) (fuel : Nat)
    (enough : cs.length < fuel) : elements fuel (cs ++ '"' :: rest) = some (cs.map .char, rest) := by
  induction cs generalizing fuel with
  | nil =>
      obtain ⟨fuel, rfl⟩ := Nat.exists_eq_succ_of_ne_zero (Nat.ne_of_gt enough)
      rfl
  | cons c cs ih =>
      obtain ⟨fuel, rfl⟩ := Nat.exists_eq_succ_of_ne_zero (Nat.ne_of_gt (Nat.zero_lt_of_lt enough))
      obtain ⟨quote, backslash, printing⟩ := plain c (by simp)
      have rest := ih (fun d member => plain d (by simp [member])) fuel (by simpa using enough)
      rw [List.cons_append, elements]
      · simp [rest, guard, backslash, printing]
      · exact quote
      · intro _ same _
        exact backslash same
      · intro _ _ same _
        exact backslash same

theorem text?_map_char (cs : List Char) : text? (cs.map .char) = some cs := by
  induction cs with
  | nil => rfl
  | cons c cs ih => simp [text?, ih]

theorem stringBody?_quote {s : String} (plain : ∀ c ∈ s.toList, Plain c) (rest : List Char) :
    ∃ body, quote (some s) ++ rest = '"' :: body ∧ stringBody? body = some (some s, rest) := by
  have escaped := flatMap_escapeChar s.toList plain
  have enough : s.toList.length < (s.toList ++ '"' :: rest).length + 1 := by
    rw [List.length_append]
    omega
  have read := elements_of_plain s.toList plain rest _ enough
  refine ⟨s.toList ++ '"' :: rest, by simp [quote, escaped], ?_⟩
  simp only [stringBody?, read, Option.bind_eq_bind, Option.bind_some, text?_map_char, Option.map_some,
    String.ofList_toList]
  rfl

theorem skipBlanks_append {blanks : List Char} (blank : ∀ c ∈ blanks, isBlank c = true) (rest : List Char) :
    skipBlanks (blanks ++ rest) = skipBlanks rest := by
  induction blanks with
  | nil => rfl
  | cons c blanks ih =>
      have skipped : skipBlanks (c :: (blanks ++ rest)) = skipBlanks (blanks ++ rest) :=
        List.dropWhile_cons_of_pos (blank c (by simp))
      rw [List.cons_append, skipped, ih fun d member => blank d (by simp [member])]

theorem skipBlanks_cons {c : Char} (solid : isBlank c = false) (rest : List Char) :
    skipBlanks (c :: rest) = c :: rest := by
  simp [skipBlanks, solid]

theorem value?_congr {fuel : Nat} {cs ds : List Char} (same : skipBlanks cs = skipBlanks ds) :
    value? fuel cs = value? fuel ds := by
  cases fuel with
  | zero => rfl
  | succ fuel => simp only [value?, same]

theorem ends_cons {c : Char} (separator : Digit.ofChar? c = none ∧ c ≠ '.' ∧ c ≠ 'e' ∧ c ≠ 'E')
    (rest : List Char) : Numeral.Ends (c :: rest) := by
  intro d first
  obtain rfl : c = d := Option.some.inj first
  exact separator

/-- No number goes on after blanks and a separator. -/
theorem ends_append {blanks : List Char} (blank : ∀ c ∈ blanks, isBlank c = true) {c : Char}
    (separator : Digit.ofChar? c = none ∧ c ≠ '.' ∧ c ≠ 'e' ∧ c ≠ 'E') (rest : List Char) :
    Numeral.Ends (blanks ++ c :: rest) := by
  cases blanks with
  | nil => exact ends_cons separator rest
  | cons d blanks =>
      have isBlank := blank d (by simp)
      simp only [Json.isBlank, Bool.or_eq_true, beq_iff_eq] at isBlank
      apply ends_cons
      rcases isBlank with ((rfl | rfl) | rfl) | rfl <;> decide

section

variable (s : Spacing)

/-- A value that is read from its text, whatever its depth and whatever follows it. -/
def Reads (j : Json) : Prop := ∀ (depth fuel : Nat) (rest : List Char), (spacedChars s depth j).length ≤ fuel →
  Numeral.Ends rest → value? fuel (spacedChars s depth j ++ rest) = some (j, rest)

theorem items?_spacedItems {items : List Json} (some : items ≠ []) (reads : ∀ item ∈ items, Reads s item)
    (depth outer fuel : Nat) (rest cs : List Char) (enough : (spacedItems s depth items).length < fuel)
    (same : skipBlanks cs = skipBlanks (spacedItems s depth items ++ (s.line outer ++ ']' :: rest))) :
    items? fuel cs = .some (items, rest) := by
  induction items generalizing fuel cs with
  | nil => exact absurd rfl some
  | cons item items ih =>
      rw [spacedItems] at enough same
      simp only [List.append_assoc, skipBlanks_append (s.line_blank depth)] at same
      simp only [List.length_append] at enough
      obtain ⟨fuel, rfl⟩ : ∃ n, fuel = n + 1 := ⟨fuel - 1, by omega⟩
      cases items with
      | nil =>
          have first : value? fuel cs = .some (item, s.line outer ++ ']' :: rest) := by
            rw [value?_congr same]
            exact reads item (by simp) depth fuel _ (by omega) (ends_append (s.line_blank outer) (by decide) rest)
          have close : skipBlanks (s.line outer ++ ']' :: rest) = ']' :: rest :=
            (skipBlanks_append (s.line_blank outer) _).trans (skipBlanks_cons (by decide) rest)
          simp [items?, first, close]
      | cons next items =>
          have first : value? fuel cs = .some (item,
              ',' :: (spacedItems s depth (next :: items) ++ (s.line outer ++ ']' :: rest))) := by
            rw [value?_congr same]
            exact reads item (by simp) depth fuel _ (by omega) (ends_cons (by decide) _)
          have comma := skipBlanks_cons (c := ',') (by decide)
            (spacedItems s depth (next :: items) ++ (s.line outer ++ ']' :: rest))
          have others := ih (by simp) (fun other member => reads other (by simp [member])) fuel
            (spacedItems s depth (next :: items) ++ (s.line outer ++ ']' :: rest)) (by simp at enough; omega) rfl
          simp [items?, first, comma, others]

def members (fields : List (String × Json)) : List (Option String × Json) := fields.map fun (k, v) => (some k, v)

theorem members?_spacedMembers {fields : List (String × Json)} (some : fields ≠ [])
    (plain : ∀ m ∈ fields, ∀ c ∈ m.1.toList, Plain c) (reads : ∀ m ∈ fields, Reads s m.2) (depth outer fuel : Nat)
    (rest cs : List Char) (enough : (spacedMembers s depth (members fields)).length < fuel)
    (same : skipBlanks cs =
      skipBlanks (spacedMembers s depth (members fields) ++ (s.line outer ++ '}' :: rest))) :
    members? fuel cs = .some (members fields, rest) := by
  induction fields generalizing fuel cs with
  | nil => exact absurd rfl some
  | cons field fields ih =>
      obtain ⟨key, item⟩ := field
      simp only [members, List.map_cons] at enough same ⊢
      rw [spacedMembers] at enough same
      simp only [List.append_assoc, skipBlanks_append (s.line_blank depth), List.cons_append] at same
      simp only [List.length_append, List.length_cons] at enough
      obtain ⟨fuel, rfl⟩ : ∃ n, fuel = n + 1 := ⟨fuel - 1, by omega⟩
      obtain ⟨after, isAfter⟩ : ∃ after, after = (if (fields.map fun (k, v) => (Option.some k, v)).isEmpty then []
          else ',' :: spacedMembers s depth (fields.map fun (k, v) => (Option.some k, v)))
          ++ (s.line outer ++ '}' :: rest) := ⟨_, rfl⟩
      rw [← isAfter] at same
      obtain ⟨body, quoted, read⟩ := stringBody?_quote (plain (key, item) (by simp))
        (':' :: (s.colon ++ (spacedChars s depth item ++ after)))
      rw [quoted, skipBlanks_cons (by decide)] at same
      have colon : skipBlanks (':' :: (s.colon ++ (spacedChars s depth item ++ after))) =
          ':' :: (s.colon ++ (spacedChars s depth item ++ after)) := skipBlanks_cons (by decide) _
      have itemReads : Reads s item := reads (key, item) (by simp)
      have value (ends : Numeral.Ends after) :
          value? fuel (s.colon ++ (spacedChars s depth item ++ after)) = .some (item, after) := by
        rw [value?_congr (skipBlanks_append s.colon_blank _)]
        exact itemReads depth fuel after (by omega) ends
      cases fields with
      | nil =>
          have close : skipBlanks after = '}' :: rest := by
            rw [isAfter]
            exact (skipBlanks_append (s.line_blank outer) _).trans (skipBlanks_cons (by decide) rest)
          have ends : Numeral.Ends after := isAfter ▸ ends_append (s.line_blank outer) (by decide) rest
          simp [members?, same, read, colon, value ends, close]
      | cons next fields =>
          have comma : skipBlanks after =
              ',' :: (spacedMembers s depth (members (next :: fields)) ++ (s.line outer ++ '}' :: rest)) := by
            rw [isAfter]
            exact skipBlanks_cons (by decide) _
          have ends : Numeral.Ends after := isAfter ▸ ends_cons (by decide) _
          have others := ih (by simp) (fun other member => plain other (by simp [member]))
            (fun other member => reads other (by simp [member])) fuel
            (spacedMembers s depth (members (next :: fields)) ++ (s.line outer ++ '}' :: rest))
            (by simp [members] at enough ⊢; omega) rfl
          simp [members?, same, read, colon, value ends, comma, others]
          rfl

end

def startsNumber (c : Char) : Bool := c == '-' || (Digit.ofChar? c).isSome

theorem exists_head_number {n : Numeral} (whole : isWhole n.whole = true) :
    ∃ c cs, n.chars true = c :: cs ∧ startsNumber c = true := by
  obtain ⟨negative, digits, fraction, exponent⟩ := n
  cases digits with
  | nil => cases whole
  | cons d ds =>
      cases negative with
      | true => exact ⟨_, _, rfl, by decide⟩
      | false => exact ⟨d.toChar, _, rfl, by simp [startsNumber, Digit.ofChar?_toChar]⟩

theorem startsNumber_ne {c : Char} (starts : startsNumber c = true) : isBlank c = false ∧ c ≠ ']' ∧
    c ≠ 'n' ∧ c ≠ 't' ∧ c ≠ 'f' ∧ c ≠ '"' ∧ c ≠ '[' ∧ c ≠ '{' := by
  have apart (other : Char) (not : startsNumber other = false) : c ≠ other := by
    rintro rfl
    rw [starts] at not
    cases not
  have solid : isBlank c = false := by
    simp only [isBlank, Bool.or_eq_false_iff, beq_eq_false_iff_ne]
    exact ⟨⟨⟨apart _ (by decide), apart _ (by decide)⟩, apart _ (by decide)⟩, apart _ (by decide)⟩
  exact ⟨solid, apart _ (by decide), apart _ (by decide), apart _ (by decide), apart _ (by decide),
    apart _ (by decide), apart _ (by decide), apart _ (by decide)⟩

section

variable (s : Spacing)

theorem Printable.exists_head {j : Json} (printable : Printable j) (depth : Nat) :
    ∃ c cs, spacedChars s depth j = c :: cs ∧ isBlank c = false ∧ c ≠ ']' := by
  cases printable with
  | null => exact ⟨_, _, rfl, by decide⟩
  | bool b => cases b <;> exact ⟨_, _, rfl, by decide⟩
  | number n whole =>
      obtain ⟨c, cs, same, starts⟩ := exists_head_number whole
      obtain ⟨solid, bracket, _⟩ := startsNumber_ne starts
      exact ⟨c, cs, same, solid, bracket⟩
  | string text plain => exact ⟨_, _, rfl, by decide⟩
  | array items each => cases items <;> exact ⟨_, _, rfl, by decide⟩
  | record fields keys each => cases fields <;> exact ⟨_, _, rfl, by decide⟩

theorem reads_number {n : Numeral} (whole : isWhole n.whole = true) : Reads s (number n) := by
  intro depth fuel rest enough ends
  obtain ⟨c, cs, text, starts⟩ := exists_head_number whole
  obtain ⟨solid, bracket, null, true_, false_, quote, array, object⟩ := startsNumber_ne starts
  have read := Numeral.numeral?_chars n whole ends
  have spaced : spacedChars s depth (number n) = c :: cs := text
  rw [text] at read
  rw [spaced] at enough ⊢
  obtain ⟨fuel, rfl⟩ : ∃ n, fuel = n + 1 := ⟨fuel - 1, by simp at enough; omega⟩
  rw [List.cons_append] at read ⊢
  have skipped := skipBlanks_cons solid (cs ++ rest)
  simp only [value?, skipped]
  split
  · next same => cases same
  · next same => exact absurd (List.cons.inj same).1 null
  · next same => exact absurd (List.cons.inj same).1 true_
  · next same => exact absurd (List.cons.inj same).1 false_
  · next same => exact absurd (List.cons.inj same).1 quote
  · next same => exact absurd (List.cons.inj same).1 array
  · next same => exact absurd (List.cons.inj same).1 object
  · rw [read]
    rfl

theorem reads_string {text : String} (plain : ∀ c ∈ text.toList, Plain c) : Reads s (ofString text) := by
  intro depth fuel rest enough _
  obtain ⟨body, quoted, read⟩ := stringBody?_quote plain rest
  have spaced : spacedChars s depth (ofString text) = quote (some text) := rfl
  obtain ⟨fuel, rfl⟩ : ∃ n, fuel = n + 1 := ⟨fuel - 1, by simp [spaced, quote] at enough; omega⟩
  have skipped := skipBlanks_cons (c := '"') (by decide) body
  rw [spaced, quoted]
  simp only [value?, skipped, read]
  rfl

theorem spacedChars_array {items : List Json} (some : items ≠ []) (depth : Nat) :
    spacedChars s depth (array items) = '[' :: (spacedItems s (depth + 1) items ++ (s.line depth ++ [']'])) := by
  cases items with
  | nil => exact absurd rfl some
  | cons => simp [spacedChars]

theorem spacedChars_record {fields : List (String × Json)} (some : fields ≠ []) (depth : Nat) :
    spacedChars s depth (record fields) =
      '{' :: (spacedMembers s (depth + 1) (members fields) ++ (s.line depth ++ ['}'])) := by
  cases fields with
  | nil => exact absurd rfl some
  | cons => simp [spacedChars, record, members]

theorem skipBlanks_skipBlanks (cs : List Char) : skipBlanks (skipBlanks cs) = skipBlanks cs := by
  induction cs with
  | nil => rfl
  | cons c cs ih =>
      cases solid : isBlank c with
      | true =>
          have skipped : skipBlanks (c :: cs) = skipBlanks cs := List.dropWhile_cons_of_pos solid
          rw [skipped, ih]
      | false => rw [skipBlanks_cons solid, skipBlanks_cons solid]

theorem reads_array {items : List Json} (printable : ∀ item ∈ items, Printable item)
    (reads : ∀ item ∈ items, Reads s item) : Reads s (array items) := by
  intro depth fuel rest enough _
  cases items with
  | nil =>
      obtain ⟨fuel, rfl⟩ : ∃ n, fuel = n + 1 := ⟨fuel - 1, by simp [spacedChars] at enough; omega⟩
      rfl
  | cons item items =>
      rw [spacedChars_array s (by simp)] at enough ⊢
      obtain ⟨fuel, rfl⟩ : ∃ n, fuel = n + 1 := ⟨fuel - 1, by simp at enough; omega⟩
      obtain ⟨c, cs, head, solid, bracket⟩ := (printable item (by simp)).exists_head s (depth + 1)
      simp only [List.cons_append, List.append_assoc, List.nil_append]
      have opened := skipBlanks_cons (c := '[') (by decide)
        (spacedItems s (depth + 1) (item :: items) ++ (s.line depth ++ ']' :: rest))
      have all := items?_spacedItems s (List.cons_ne_nil item items) reads (depth + 1) depth fuel rest _
        (by simp at enough; omega) (skipBlanks_skipBlanks _)
      simp only [value?, opened]
      split
      · next inner same =>
          rw [spacedItems, List.append_assoc, List.append_assoc, skipBlanks_append (s.line_blank _), head,
            List.cons_append, skipBlanks_cons solid] at same
          exact absurd (List.cons.inj same).1 bracket
      · rw [all]
        rfl

theorem reads_record {fields : List (String × Json)} (plain : ∀ m ∈ fields, ∀ c ∈ m.1.toList, Plain c)
    (reads : ∀ m ∈ fields, Reads s m.2) : Reads s (record fields) := by
  intro depth fuel rest enough _
  cases fields with
  | nil =>
      obtain ⟨fuel, rfl⟩ : ∃ n, fuel = n + 1 := ⟨fuel - 1, by simp [spacedChars, record] at enough; omega⟩
      rfl
  | cons field fields =>
      rw [spacedChars_record s (by simp)] at enough ⊢
      obtain ⟨fuel, rfl⟩ : ∃ n, fuel = n + 1 := ⟨fuel - 1, by simp at enough; omega⟩
      simp only [List.cons_append, List.append_assoc, List.nil_append]
      have opened := skipBlanks_cons (c := '{') (by decide)
        (spacedMembers s (depth + 1) (members (field :: fields)) ++ (s.line depth ++ '}' :: rest))
      have all := members?_spacedMembers s (List.cons_ne_nil field fields) plain reads (depth + 1) depth fuel rest _
        (by simp at enough; omega) (skipBlanks_skipBlanks _)
      simp only [value?, opened]
      split
      · next inner same =>
          rw [members, List.map_cons, spacedMembers, List.append_assoc, List.append_assoc,
            skipBlanks_append (s.line_blank _), quote, List.append_assoc, List.append_assoc, List.singleton_append,
            skipBlanks_cons (c := '"') (by decide)] at same
          exact absurd (List.cons.inj same).1 (by decide)
      · rw [all]
        rfl

/-- Printable values are read as they were written. -/
theorem Printable.reads {j : Json} (printable : Printable j) : Reads s j := by
  induction printable with
  | null =>
      intro depth fuel rest enough _
      obtain ⟨fuel, rfl⟩ : ∃ n, fuel = n + 1 := ⟨fuel - 1, by simp [spacedChars, chars] at enough; omega⟩
      rfl
  | bool b =>
      intro depth fuel rest enough _
      obtain ⟨fuel, rfl⟩ : ∃ n, fuel = n + 1 :=
        ⟨fuel - 1, by cases b <;> simp [spacedChars, chars] at enough <;> omega⟩
      cases b <;> rfl
  | number n whole => exact reads_number s whole
  | string text plain => exact reads_string s plain
  | array items each ih => exact reads_array s each ih
  | record fields keys each ih => exact reads_record s keys ih

theorem Printable.parseChars?_spacedChars {j : Json} (printable : Printable j) :
    parseChars? (spacedChars s 0 j) = some j := by
  have read := printable.reads s 0 ((spacedChars s 0 j).length + 1) [] (by omega) (by simp [Numeral.Ends])
  rw [List.append_nil] at read
  simp only [parseChars?, read, Option.bind_eq_bind, Option.bind_some]
  rfl

end

theorem Printable.parse?_pretty {j : Json} (printable : Printable j) : parse? j.pretty = some j := by
  rw [parse?, pretty, String.toList_ofList, ← spacedChars_pretty]
  exact printable.parseChars?_spacedChars _

theorem Printable.parse?_compact {j : Json} (printable : Printable j) : parse? j.compact = some j := by
  rw [parse?, compact, String.toList_ofList, ← spacedChars_compact 0]
  exact printable.parseChars?_spacedChars _

end AutoDiff.Json
