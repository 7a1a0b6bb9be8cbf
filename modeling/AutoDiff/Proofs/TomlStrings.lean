import AutoDiff.Toml.Parser
import Mathlib.Data.List.TakeWhile
import Mathlib.Data.Option.Basic

namespace AutoDiff.Toml

/-- What may follow a string: no mark, which could be taken for one of its own. -/
def Clear (rest : List Char) : Prop := ∀ c ∈ rest.head?, c ≠ '"' ∧ c ≠ '\''

theorem Clear.takeWhile_mark {rest : List Char} (clear : Clear rest) (f : Form) :
    rest.takeWhile (· = f.mark) = [] := by
  cases rest with
  | nil => rfl
  | cons c rest =>
      obtain ⟨double, single⟩ := clear c rfl
      have other : c ≠ f.mark := by
        unfold Form.mark
        split
        · exact double
        · exact single
      simp [other]

namespace Form

inductive Writes (f : Form) (c : Char) : List Char → Prop where
  | plain (admitted : f.admits c = true) (noEscape : f.escapes = true → c ≠ '\\') : Writes f c [c]
  | escape {e : List Char} (escapes : f.escapes = true) (read : ∀ rest, escape? (e ++ rest) = some (c, rest))
    (goesOn : ∀ rest, continuation? (e ++ rest) = none) (oneLine : '\r' ∉ e) : Writes f c ('\\' :: e)

/-- The characters between the marks for a text, `run` marks having been written before. No more marks stand in a row
than may stand in the string. -/
inductive Spells (f : Form) : Nat → List Char → List Char → Prop where
  | nil {run : Nat} : Spells f run [] []
  | mark {run : Nat} {cs w : List Char} (few : run < f.quotable) (rest : Spells f (run + 1) cs w) :
    Spells f run (f.mark :: cs) (f.mark :: w)
  | other {run : Nat} {c : Char} {u cs w : List Char} (writes : Writes f c u) (different : u.head? ≠ some f.mark)
    (rest : Spells f 0 cs w) : Spells f run (c :: cs) (u ++ w)

variable {f : Form} {run : Nat} {c : Char} {u cs w rest : List Char}

theorem mark_ne_backslash (f : Form) : f.mark ≠ '\\' := by
  unfold mark
  split <;> decide

theorem mark_ne_lineEnd (f : Form) : f.mark ≠ '\n' := by
  unfold mark
  split <;> decide

theorem mark_ne_return (f : Form) : f.mark ≠ '\r' := by
  unfold mark
  split <;> decide

theorem exists_delimiter (f : Form) : ∃ v, f.delimiter = f.mark :: v := by
  unfold delimiter
  split <;> exact ⟨_, rfl⟩

theorem admits_mark (f : Form) : f.admits f.mark = true := by
  unfold admits mark
  split <;> simp [isControl]

theorem quotable_lt (f : Form) : f.quotable < f.delimiter.length := by
  unfold quotable delimiter
  split <;> simp

theorem Writes.exists_head (writes : Writes f c u) (different : u.head? ≠ some f.mark) :
    ∃ d v, u = d :: v ∧ d ≠ f.mark := by
  cases writes with
  | plain => exact ⟨c, [], rfl, by simpa using different⟩
  | escape => exact ⟨'\\', _, rfl, f.mark_ne_backslash.symm⟩

theorem Writes.head?_ne (writes : Writes f c u) (different : c ≠ f.mark) : u.head? ≠ some f.mark := by
  cases writes with
  | plain => simpa using different
  | escape => simpa using f.mark_ne_backslash.symm

theorem Writes.oneLine (writes : Writes f c u) : '\r' ∉ u := by
  cases writes with
  | plain admitted =>
      intro member
      rw [← List.mem_singleton.mp member] at admitted
      simp [admits, isControl] at admitted
  | escape _ _ _ oneLine => simpa using oneLine

theorem Writes.head?_lineEnd (writes : Writes f c u) (found : u.head? = some '\n') : c = '\n' := by
  cases writes with
  | plain => simpa using found
  | escape => simp at found

namespace Spells

theorem marks_le (spells : f.Spells run cs w) (few : run ≤ f.quotable) :
    run + (w.takeWhile (· = f.mark)).length ≤ f.quotable ∨ (w.takeWhile (· = f.mark)).length = 0 := by
  induction spells with
  | nil => exact .inr rfl
  | mark less _ ih =>
      left
      rw [List.takeWhile_cons_of_pos (by simp), List.length_cons]
      rcases ih less with sum | none <;> omega
  | other writes different =>
      obtain ⟨d, v, rfl, other⟩ := writes.exists_head different
      simp [other]

theorem eq_of_marks (spells : f.Spells run cs w) (marks : ∀ c ∈ w, c = f.mark) : w = cs := by
  induction spells with
  | nil => rfl
  | mark _ _ ih => rw [ih fun c member => marks c (by simp [member])]
  | other writes different =>
      obtain ⟨d, v, rfl, other⟩ := writes.exists_head different
      exact absurd (marks d (by simp)) other

theorem head?_ne_mark (spells : f.Spells run cs w) (none : f.quotable = 0) : w.head? ≠ some f.mark := by
  cases spells with
  | nil => simp
  | mark few => omega
  | other writes different =>
      obtain ⟨d, v, rfl, other⟩ := writes.exists_head different
      simpa using other

theorem oneLine (spells : f.Spells run cs w) : '\r' ∉ w := by
  induction spells with
  | nil => simp
  | mark _ _ ih =>
      rw [List.mem_cons, not_or]
      exact ⟨f.mark_ne_return.symm, ih⟩
  | other writes _ _ ih =>
      rw [List.mem_append, not_or]
      exact ⟨writes.oneLine, ih⟩

theorem head?_ne_lineEnd (spells : f.Spells run cs w) (single : '\n' ∉ cs) : w.head? ≠ some '\n' := by
  cases spells with
  | nil => simp
  | mark =>
      intro found
      rw [List.head?_cons] at found
      exact single (by rw [← Option.some.inj found]; simp)
  | other writes different =>
      obtain ⟨d, v, rfl, _⟩ := writes.exists_head different
      intro found
      exact single (by rw [← writes.head?_lineEnd found]; simp)

end Spells

/-- A row of marks within the text does not close the string. -/
theorem close?_of_other (few : (w.takeWhile (· = f.mark)).length ≤ f.quotable) (marks : ¬∀ c ∈ w, c = f.mark) :
    f.close? (w ++ (f.delimiter ++ rest)) = none := by
  have closing := f.quotable_lt
  have row : (w ++ (f.delimiter ++ rest)).takeWhile (· = f.mark) = w.takeWhile (· = f.mark) := by
    rw [List.takeWhile_append, if_neg]
    intro full
    apply marks
    have same : w.takeWhile (· = f.mark) = w := List.Sublist.eq_of_length (List.takeWhile_sublist _) full
    simpa using List.takeWhile_eq_self_iff.mp same
  simp only [close?, row, Nat.lt_of_le_of_lt few closing, if_true]

section

variable (clear : Clear rest)
include clear

/-- A row of marks before the last ones belongs to the text. -/
theorem close?_of_marks (few : w.length ≤ f.quotable) (marks : ∀ c ∈ w, c = f.mark) :
    f.close? (w ++ (f.delimiter ++ rest)) = some (w, rest) := by
  have delimited : ∀ c ∈ f.delimiter, decide (c = f.mark) = true := by
    intro c member
    simpa using List.eq_of_mem_replicate member
  have whole : ∀ c ∈ w, decide (c = f.mark) = true := by simpa using marks
  have row : ((w ++ (f.delimiter ++ rest)).takeWhile (· = f.mark)).length = w.length + f.delimiter.length := by
    rw [List.takeWhile_append_of_pos whole, List.takeWhile_append_of_pos delimited, clear.takeWhile_mark f]
    simp
  have own : min (w.length + f.delimiter.length - f.delimiter.length) f.quotable = w.length := by omega
  simp only [close?, row, own, Nat.not_lt.mpr (Nat.le_add_left _ _), if_false, List.take_left]
  rw [← List.append_assoc, ← List.length_append, List.drop_left]

theorem Spells.close? (spells : f.Spells run cs w) (few : run ≤ f.quotable) :
    f.close? (w ++ (f.delimiter ++ rest)) = some (cs, rest) ∨
      f.close? (w ++ (f.delimiter ++ rest)) = none ∧ w ≠ [] := by
  have row : (w.takeWhile (· = f.mark)).length ≤ f.quotable := by
    rcases spells.marks_le few with sum | none <;> omega
  by_cases marks : ∀ c ∈ w, c = f.mark
  · left
    have whole : w.takeWhile (· = f.mark) = w := List.takeWhile_eq_self_iff.mpr (by simpa using marks)
    rw [close?_of_marks clear (whole ▸ row) marks, spells.eq_of_marks marks]
  · right
    refine ⟨close?_of_other row marks, ?_⟩
    rintro rfl
    simp at marks

end

theorem body_of_writes (writes : Writes f c u) (opened : f.close? (u ++ rest) = none) (fuel : Nat) :
    f.body (fuel + 1) (u ++ rest) = (f.body fuel rest).map fun (cs, rest) => (c :: cs, rest) := by
  cases writes with
  | plain admitted noEscape =>
      have plain : ¬(f.escapes = true ∧ c = '\\') := fun ⟨escapes, same⟩ => noEscape escapes same
      simp only [List.singleton_append] at opened ⊢
      simp only [body, opened, if_neg plain, admitted, guard, if_true, Option.bind_eq_bind]
      cases f.body fuel rest <;> rfl
  | @escape e escapes read goesOn _ =>
      have stops : (if f.lines = true then continuation? (e ++ rest) else none) = none := by
        rw [goesOn, ite_self]
      simp only [List.cons_append] at opened ⊢
      simp only [body, opened, escapes, and_self, if_true, stops, read, Option.bind_eq_bind, Option.bind_some]
      cases f.body fuel rest <;> rfl

theorem body_of_close? {ended : List Char × List Char} (closed : f.close? rest = some ended) (fuel : Nat) :
    f.body (fuel + 1) rest = some ended := by
  simp only [body, closed]

theorem body_of_spells (spells : f.Spells run cs w) (few : run ≤ f.quotable) (clear : Clear rest) {fuel : Nat}
    (enough : w.length < fuel) : f.body fuel (w ++ (f.delimiter ++ rest)) = some (cs, rest) := by
  induction spells generalizing fuel with
  | @nil run =>
      obtain ⟨fuel, rfl⟩ := Nat.exists_eq_succ_of_ne_zero (Nat.ne_of_gt enough)
      rcases (Spells.nil (f := f)).close? clear few with closed | ⟨_, more⟩
      · exact body_of_close? closed fuel
      · exact absurd rfl more
  | @mark run cs w less spells ih =>
      obtain ⟨fuel, rfl⟩ := Nat.exists_eq_succ_of_ne_zero (Nat.ne_of_gt (Nat.zero_lt_of_lt enough))
      rcases (Spells.mark less spells).close? clear few with closed | ⟨opened, _⟩
      · exact body_of_close? closed fuel
      · have writes : Writes f f.mark [f.mark] := .plain f.admits_mark fun _ => f.mark_ne_backslash
        have further := ih less (by simpa using enough)
        have unclosed : f.close? ([f.mark] ++ (w ++ (f.delimiter ++ rest))) = none := opened
        have read := body_of_writes writes unclosed fuel
        rw [further] at read
        exact read
  | @other run c u cs w writes different spells ih =>
      obtain ⟨fuel, rfl⟩ := Nat.exists_eq_succ_of_ne_zero (Nat.ne_of_gt (Nat.zero_lt_of_lt enough))
      obtain ⟨d, v, isUnit, _⟩ := writes.exists_head different
      rcases (Spells.other writes different spells).close? clear few with closed | ⟨opened, _⟩
      · exact body_of_close? closed fuel
      · rw [List.append_assoc] at opened ⊢
        have shorter : w.length < fuel := by
          rw [isUnit, List.length_append, List.length_cons] at enough
          omega
        rw [body_of_writes writes opened, ih (Nat.zero_le _) shorter]
        rfl

theorem spells_of_fits (literal : f.escapes = false) (admitted : cs.all f.admits = true)
    (fits : runsWithin f.mark f.quotable run cs = true) : f.Spells run cs cs := by
  induction cs generalizing run with
  | nil => exact .nil
  | cons c cs ih =>
      rw [List.all_cons, Bool.and_eq_true] at admitted
      rw [runsWithin] at fits
      split_ifs at fits with same
      · rw [Bool.and_eq_true, decide_eq_true_eq] at fits
        subst same
        exact .mark fits.1 (ih admitted.2 fits.2)
      · have writes : Writes f c [c] := .plain admitted.1 (by simp [literal])
        exact .other writes (by simpa using same) (ih admitted.2 fits)

theorem hexValue?_toUpper (n : Nat) : Text.hexValue? (Text.hexDigit n).toUpper = some (n % 16) := by
  have digits : ∀ m < 16, Text.hexValue? (Nat.digitChar m).toUpper = some m := by decide
  exact digits (n % 16) (Nat.mod_lt n (by decide))

theorem toUpper_hexDigit_ne (n : Nat) : '\r' ≠ (Text.hexDigit n).toUpper := by
  intro same
  have value := hexValue?_toUpper n
  rw [← same] at value
  cases value

theorem codePoint?_control (control : isControl c = true) (rest : List Char) :
    codePoint? 4 ('0' :: '0' :: (Text.hexDigit (c.toNat / 16)).toUpper :: (Text.hexDigit c.toNat).toUpper :: rest) =
      some (c, rest) := by
  have zero : Text.hexValue? '0' = some 0 := by decide
  have small : c.toNat < 256 := by
    simp only [isControl, Bool.or_eq_true, Bool.and_eq_true, decide_eq_true_eq, beq_iff_eq] at control
    rcases control with ⟨low, _⟩ | delete
    · exact Nat.lt_trans (UInt32.lt_iff_toNat_lt.mp low) (by decide)
    · rw [Char.toNat, delete]
      decide
  have code : c.toNat / 16 % 16 * 16 + c.toNat % 16 = c.toNat := by omega
  have valid : c.toNat.isValidChar := c.valid
  simp [codePoint?, zero, hexValue?_toUpper, code, guard, valid]

theorem writes_escapeChar (escapes : f.escapes = true) (different : c ≠ '"') : Writes f c (f.escapeChar c) := by
  unfold escapeChar
  split
  · exact .escape escapes (fun _ => rfl) (fun _ => rfl) (by decide)
  · exact .escape escapes (fun _ => rfl) (fun _ => rfl) (by decide)
  · split_ifs with lines
    · exact .plain (by simp [admits, lines]) fun _ => by decide
    · exact .escape escapes (fun _ => rfl) (fun _ => rfl) (by decide)
  · exact .escape escapes (fun _ => rfl) (fun _ => rfl) (by decide)
  · exact .escape escapes (fun _ => rfl) (fun _ => rfl) (by decide)
  · exact .escape escapes (fun _ => rfl) (fun _ => rfl) (by decide)
  · next backslash =>
      split_ifs with control
      · exact .escape escapes (codePoint?_control control) (fun _ => rfl) (by simp [toUpper_hexDigit_ne])
      · exact .plain (by simp [admits, control]) fun _ => backslash

theorem spells_escaped (escapes : f.escapes = true) (run : Nat) (cs : List Char) :
    f.Spells run cs (f.escaped run cs) := by
  have isMark : f.mark = '"' := by simp [mark, escapes]
  induction cs generalizing run with
  | nil => exact .nil
  | cons c cs ih =>
      rw [escaped]
      split_ifs with same few
      · subst same
        rw [← isMark]
        exact .mark few (ih _)
      · subst same
        have writes : Writes f '"' ['\\', '"'] := .escape escapes (fun _ => rfl) (fun _ => rfl) (by decide)
        exact .other writes (by simp [isMark]) (ih 0)
      · have writes := writes_escapeChar escapes same
        exact .other writes (writes.head?_ne (isMark ▸ same)) (ih 0)

/-- A text can be written in a form if the form has escapes or the text needs none. -/
def Suits (f : Form) (cs : List Char) : Prop := f.escapes = false → f.fits cs = true

theorem choose_suits (cs : List Char) : (choose cs).Suits cs := by
  unfold choose
  cases found : [basic, literal, basicLines, literalLines].find? (·.fits cs) with
  | some f =>
      intro _
      have fits := List.find?_some found
      simpa using fits
  | none =>
      intro literal
      rw [Option.getD_none] at literal
      split at literal <;> cases literal

def content (f : Form) (cs : List Char) : List Char := if f.escapes then f.escaped 0 cs else cs

theorem spells_content (suits : f.Suits cs) : f.Spells 0 cs (f.content cs) := by
  unfold content
  split_ifs with escapes
  · exact spells_escaped escapes 0 cs
  · rw [Bool.not_eq_true] at escapes
    have fits := suits escapes
    rw [Form.fits, Bool.and_eq_true, Bool.and_eq_true] at fits
    exact spells_of_fits escapes fits.1.1 fits.1.2

theorem write_eq (f : Form) (cs : List Char) : f.write cs = f.delimiter ++
    ((if f.lines && cs.contains '\n' then ['\n'] else []) ++ (f.content cs ++ f.delimiter)) := by
  simp only [write, content, List.append_assoc]

theorem read?_of_body {written : List Char} (single : f.lines = true → written.head? ≠ some '\n')
    (read : f.body (written.length + 1) written = some (cs, rest)) :
    f.read? written = some (String.ofList cs, rest) := by
  unfold read?
  split
  · next same => simp [same] at single
  · simp only [read, Option.bind_eq_bind, Option.bind_some]
    rfl

theorem read?_lineEnd {written : List Char} (lines : f.lines = true)
    (read : f.body (written.length + 1) written = some (cs, rest)) :
    f.read? ('\n' :: written) = some (String.ofList cs, rest) := by
  unfold read?
  simp only [lines, read, Option.bind_eq_bind, Option.bind_some]
  rfl

theorem read?_content (suits : f.Suits cs) (clear : Clear rest) :
    f.read? ((if f.lines && cs.contains '\n' then ['\n'] else []) ++ (f.content cs ++ (f.delimiter ++ rest))) =
      some (String.ofList cs, rest) := by
  have spells := spells_content suits
  have enough : (f.content cs).length < (f.content cs ++ (f.delimiter ++ rest)).length + 1 := by
    rw [List.length_append]
    omega
  have read := body_of_spells spells (Nat.zero_le _) clear enough
  split_ifs with several
  · rw [Bool.and_eq_true] at several
    exact read?_lineEnd several.1 read
  · apply read?_of_body _ read
    intro lines
    have single : '\n' ∉ cs := by simpa [lines] using several
    have inside := spells.head?_ne_lineEnd single
    cases w : f.content cs with
    | nil =>
        obtain ⟨v, starts⟩ := f.exists_delimiter
        simpa [starts] using f.mark_ne_lineEnd
    | cons c w => simpa [w] using inside

theorem content_ne_marks (suits : f.Suits cs) (clear : Clear rest) (single : f.lines = false) (r : List Char) :
    f.content cs ++ (f.delimiter ++ rest) ≠ f.mark :: f.mark :: r := by
  have none : f.quotable = 0 := by simp [quotable, single]
  have delimiter : f.delimiter = [f.mark] := by simp [Form.delimiter, single]
  have inside := (spells_content suits).head?_ne_mark none
  cases w : f.content cs with
  | nil =>
      intro same
      have after : rest = f.mark :: r := by simpa [delimiter] using same
      have empty := clear.takeWhile_mark f
      simp [after] at empty
  | cons c w =>
      intro same
      rw [w, List.head?_cons] at inside
      rw [List.cons_append] at same
      exact inside (congrArg some (List.cons.inj same).1)

/-- Every form of a string is read as it was written. -/
theorem string?_write (suits : f.Suits cs) (clear : Clear rest) :
    string? (f.write cs ++ rest) = some (String.ofList cs, rest) := by
  have read := read?_content suits clear
  have marks := content_ne_marks suits clear
  rw [write_eq]
  simp only [List.append_assoc]
  obtain ⟨escapes, lines⟩ := f
  match escapes, lines with
  | true, true | false, true => exact read
  | true, false =>
      refine (string?.eq_3 _ fun r same => ?_).trans read
      exact marks rfl r same
  | false, false =>
      refine (string?.eq_4 _ fun r same => ?_).trans read
      exact marks rfl r same

theorem not_mem_write (suits : f.Suits cs) : '\r' ∉ f.write cs := by
  have inside := (spells_content suits).oneLine
  have marks : '\r' ∉ f.delimiter := fun member => f.mark_ne_return (List.eq_of_mem_replicate member).symm
  rw [write_eq]
  split_ifs <;> simp [inside, marks]

end Form

theorem not_mem_quote (text : String) : '\r' ∉ quote text := Form.not_mem_write (Form.choose_suits _)

theorem exists_quote (text : String) : ∃ m v, quote text = m :: v ∧ (m = '"' ∨ m = '\'') := by
  obtain ⟨v, starts⟩ := (Form.choose text.toList).exists_delimiter
  rw [quote, Form.write_eq, starts, List.cons_append]
  refine ⟨_, _, rfl, ?_⟩
  unfold Form.mark
  split
  · exact .inl rfl
  · exact .inr rfl

/-- A quoted text is read as this text. -/
theorem string?_quote (text : String) {rest : List Char} (clear : Clear rest) :
    string? (quote text ++ rest) = some (text, rest) := by
  rw [quote, Form.string?_write (Form.choose_suits _) clear, String.ofList_toList]

end AutoDiff.Toml
