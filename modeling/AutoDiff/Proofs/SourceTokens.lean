import AutoDiff.CSource.Token
import AutoDiff.Proofs.Numerals
import Mathlib.Data.List.Chain

namespace AutoDiff

namespace Digit

theorem digitChar_eq {n : Nat} (small : n < 10) : n.digitChar = toChar ⟨n, small⟩ := by
  revert n
  decide

theorem toDigits_eq (n : Nat) : Nat.toDigits 10 n = (ofNat n).map toChar := by
  induction n using Nat.strongRecOn with
  | ind n ih =>
      rw [Nat.toDigits_eq_if (by decide), ofNat]
      split
      · next small => simp only [List.map_cons, List.map_nil, Nat.mod_eq_of_lt small, digitChar_eq small]
      · next large =>
          rw [ih (n / 10) (by omega), digitChar_eq (Nat.mod_lt n (by decide)), List.map_append]
          rfl

theorem toList_toString (n : Nat) : (toString n).toList = (ofNat n).map toChar := by
  rw [Nat.toString_eq_ofList_toDigits, String.toList_ofList, toDigits_eq]

theorem isDigit_toChar (d : Digit) : d.toChar.isDigit = true := by
  revert d
  decide

theorem isWordChar_toChar (d : Digit) : CSource.isWordChar d.toChar = true ∧ d.toChar ≠ 'e' ∧ d.toChar ≠ 'E' := by
  revert d
  decide

end Digit

namespace CSource

open Artifact (isLetter isModelName)

section Numbers

theorem numberTail_cons {c : Char} (goes : isWordChar c = true ∨ c = '.') (plain : c ≠ 'e' ∧ c ≠ 'E')
    (rest : List Char) : numberTail (c :: rest) = (c :: (numberTail rest).1, (numberTail rest).2) := by
  have continues : (isWordChar c || c == '.') = true := by simpa using goes
  cases rest with
  | nil => simp [numberTail, continues]
  | cons next rest => simp [numberTail, plain.1, plain.2, continues]

theorem numberTail_exponent {next : Char} (rest : List Char) :
    numberTail ('e' :: next :: rest) =
      if Numeral.isSign next then ('e' :: next :: (numberTail rest).1, (numberTail rest).2)
      else ('e' :: (numberTail (next :: rest)).1, (numberTail (next :: rest)).2) := by
  cases sign : Numeral.isSign next with
  | true => simp [numberTail, sign]
  | false =>
      have letter : isWordChar 'e' = true := by decide
      simp [numberTail, sign, letter]

theorem numberTail_digits (ds : List Digit) (rest : List Char) :
    numberTail (ds.map Digit.toChar ++ rest) =
      (ds.map Digit.toChar ++ (numberTail rest).1, (numberTail rest).2) := by
  induction ds with
  | nil => rfl
  | cons d ds ih =>
      have ⟨word, plain⟩ := Digit.isWordChar_toChar d
      rw [List.map_cons, List.cons_append, numberTail_cons (.inl word) plain, ih]
      rfl

def Apart (rest : List Char) : Prop :=
  ∀ c, rest.head? = some c → isWordChar c = false ∧ c ≠ '.' ∧ Numeral.isSign c = false

theorem numberTail_of_apart {rest : List Char} (apart : Apart rest) : numberTail rest = ([], rest) := by
  match rest with
  | [] => rfl
  | [c] =>
      obtain ⟨word, point, -⟩ := apart c rfl
      simp [numberTail, word, point]
  | c :: next :: rest =>
      obtain ⟨word, point, -⟩ := apart c rfl
      have lower : c ≠ 'e' := by rintro rfl; cases word
      have upper : c ≠ 'E' := by rintro rfl; cases word
      simp [numberTail, word, point, lower, upper]

theorem numberTail_fractionText (ds : List Digit) (rest : List Char) :
    numberTail (Numeral.fractionText ds ++ rest) =
      (Numeral.fractionText ds ++ (numberTail rest).1, (numberTail rest).2) := by
  cases ds with
  | nil => rfl
  | cons d ds =>
      have point : 'e' ≠ '.' ∧ 'E' ≠ '.' := by decide
      show numberTail ('.' :: ((d :: ds).map Digit.toChar ++ rest)) = _
      rw [numberTail_cons (.inr rfl) ⟨point.1.symm, point.2.symm⟩, numberTail_digits]
      rfl

theorem numberTail_exponentText (exponent : Option Int) {rest : List Char} (apart : Apart rest) :
    numberTail (Numeral.exponentText false exponent ++ rest) = (Numeral.exponentText false exponent, rest) := by
  cases exponent with
  | none => exact numberTail_of_apart apart
  | some e =>
      have digits := numberTail_digits (Digit.ofNat e.natAbs) rest
      rw [numberTail_of_apart apart, List.append_nil] at digits
      by_cases negative : e < 0
      · simp [Numeral.exponentText, Numeral.exponentChars, negative, numberTail_exponent, Numeral.isSign, digits]
      · obtain ⟨d, ds, same⟩ := List.exists_cons_of_ne_nil (Digit.ofNat_ne_nil e.natAbs)
        obtain ⟨minus, plus⟩ := Digit.toChar_ne d
        rw [same, List.map_cons, List.cons_append] at digits
        simp [Numeral.exponentText, Numeral.exponentChars, negative, same, numberTail_exponent, Numeral.isSign,
          minus, plus, digits]

end Numbers

namespace Token

def chars : Token → List Char
  | word name => name.toList
  | number spelling => spelling.toList
  | mark c => [c]
  | operator symbol => symbol.toList
  | quoted text => '"' :: (text.toList ++ ['"'])
  | comment text => '/' :: '*' :: (text.toList ++ ['*', '/'])

/-- The tokens of which sources are made. -/
inductive Proper : Token → Prop
  | word {name : String} (named : isModelName name = true) : Proper (.word name)
  | number {n : Numeral} (unsigned : n.negative = false) (whole : n.whole ≠ []) : Proper (.number (n.text false))
  | mark {c : Char} (known : isMark c = true) : Proper (.mark c)
  | operator {c : Char} (known : isOperatorChar c = true) : Proper (.operator (String.singleton c))
  | quoted {text : String} (plain : ∀ c ∈ text.toList, c ≠ '"' ∧ c ≠ '\\' ∧ c ≠ '\n') : Proper (.quoted text)
  | comment {text : String} (plain : ∀ c ∈ text.toList, c ≠ '*' ∧ c ≠ '\n') : Proper (.comment text)

/-- Whether a token written right before a character would go on with it. -/
def goesOn : Token → Char → Bool
  | word _, c => isWordChar c
  | number _, c => isWordChar c || c == '.' || Numeral.isSign c
  | operator _, c => isOperatorChar c
  | _, _ => false

def joins : Token → Token → Bool
  | word _, word _ | word _, number _ => true
  | number _, word _ | number _, number _ | number _, operator _ => true
  | number _, mark c => c == '.'
  | operator _, operator _ | operator _, comment _ => true
  | _, _ => false

end Token

theorem takeWhile_append_of_stops {p : Char → Bool} (cs : List Char) {rest : List Char} (all : ∀ c ∈ cs, p c = true)
    (stops : ∀ c, rest.head? = some c → p c = false) :
    (cs ++ rest).takeWhile p = cs ∧ (cs ++ rest).dropWhile p = rest := by
  have none : rest.takeWhile p = [] ∧ rest.dropWhile p = rest := by
    cases rest with
    | nil => exact ⟨rfl, rfl⟩
    | cons c rest => simp [stops c rfl]
  rw [List.takeWhile_append_of_pos all, List.dropWhile_append_of_pos all, none.1, none.2, List.append_nil]
  exact ⟨rfl, rfl⟩

theorem commentTail_append {cs : List Char} (plain : '*' ∉ cs) (rest : List Char) :
    commentTail (cs ++ '*' :: '/' :: rest) = some (cs, rest) := by
  induction cs with
  | nil => rfl
  | cons c cs ih =>
      have other : c ≠ '*' := fun same => plain (same ▸ List.mem_cons_self)
      rw [List.cons_append, commentTail.eq_3 _ _ (fun tail same _ => absurd same other),
        ih fun member => plain (List.mem_cons_of_mem c member)]
      rfl

theorem exists_of_isModelName {name : String} (named : isModelName name = true) :
    ∃ c cs, name.toList = c :: cs ∧ isLetter c = true ∧ ∀ d ∈ cs, isWordChar d = true := by
  unfold isModelName at named
  split at named
  · cases named
  · next c cs same =>
      rw [Bool.and_eq_true, List.all_eq_true] at named
      exact ⟨c, cs, same, named.1, named.2⟩

theorem exists_numberTail {n : Numeral} (unsigned : n.negative = false) (whole : n.whole ≠ []) :
    ∃ d tail, n.chars false = Digit.toChar d :: tail ∧
      ∀ rest, Apart rest → numberTail (tail ++ rest) = (tail, rest) := by
  obtain ⟨d, ds, same⟩ := List.exists_cons_of_ne_nil whole
  refine ⟨d, ds.map Digit.toChar ++ (Numeral.fractionText n.fraction ++ Numeral.exponentText false n.exponent),
    ?_, fun rest apart => ?_⟩
  · have text := n.chars_eq false []
    rw [List.append_nil] at text
    simp [text, unsigned, same]
  · rw [List.append_assoc, List.append_assoc, numberTail_digits, numberTail_fractionText,
      numberTail_exponentText n.exponent apart]

theorem isOperatorChar_apart {c : Char} (known : isOperatorChar c = true) :
    c ≠ ' ' ∧ c ≠ '"' ∧ c ≠ '.' ∧ isLetter c = false ∧ c.isDigit = false := by
  simp only [isOperatorChar, List.contains_eq_mem, decide_eq_true_eq, List.mem_cons, List.not_mem_nil,
    or_false] at known
  rcases known with rfl | rfl | rfl | rfl | rfl | rfl | rfl | rfl | rfl | rfl | rfl | rfl | rfl <;> decide

theorem isMark_apart {c : Char} (known : isMark c = true) : c ≠ ' ' ∧ c ≠ '"' ∧ c ≠ '/' ∧
    isLetter c = false ∧ c.isDigit = false ∧ isOperatorChar c = false ∧ Numeral.isSign c = false := by
  simp only [isMark, List.contains_eq_mem, decide_eq_true_eq, List.mem_cons, List.not_mem_nil, or_false] at known
  rcases known with rfl | rfl | rfl | rfl | rfl | rfl | rfl | rfl | rfl | rfl | rfl | rfl <;> decide

theorem next?_of_plain {c : Char} {rest : List Char} (unquoted : c ≠ '"')
    (noComment : ∀ tail, c = '/' → rest ≠ '*' :: tail) :
    next? (c :: rest) =
      if isLetter c then some (.word (String.ofList (c :: rest.takeWhile isWordChar)), rest.dropWhile isWordChar)
      else if c.isDigit then some (.number (String.ofList (c :: (numberTail rest).1)), (numberTail rest).2)
      else if isOperatorChar c then
        some (.operator (String.ofList (c :: rest.takeWhile isOperatorChar)), rest.dropWhile isOperatorChar)
      else if isMark c then some (.mark c, rest)
      else none :=
  next?.eq_4 c rest (fun same => unquoted same) (fun tail same follows => noComment tail same follows)

/-- A token is as long as it can be. -/
theorem next?_chars {t : Token} (proper : t.Proper) {rest : List Char}
    (stops : ∀ c, rest.head? = some c → t.goesOn c = false) : next? (t.chars ++ rest) = some (t, rest) := by
  cases proper with
  | @word name named =>
      obtain ⟨c, cs, same, first, tail⟩ := exists_of_isModelName named
      obtain ⟨taken, dropped⟩ := takeWhile_append_of_stops cs tail stops
      have unquoted : c ≠ '"' := by rintro rfl; cases first
      have slash : c ≠ '/' := by rintro rfl; cases first
      rw [Token.chars, same, List.cons_append, next?_of_plain unquoted fun _ same => absurd same slash, if_pos first,
        taken, dropped, ← same, String.ofList_toList]
  | @number n unsigned whole =>
      obtain ⟨d, tail, same, run⟩ := exists_numberTail unsigned whole
      have apart : Apart rest := by
        intro c first
        simpa [Token.goesOn, and_assoc] using stops c first
      have ⟨unquoted, slash, letter, digit⟩ : Digit.toChar d ≠ '"' ∧ Digit.toChar d ≠ '/' ∧
          isLetter (Digit.toChar d) = false ∧ (Digit.toChar d).isDigit = true := by
        clear same
        revert d
        decide
      rw [Token.chars, Numeral.text, String.toList_ofList, same, List.cons_append,
        next?_of_plain unquoted fun _ same => absurd same slash, if_neg (by simp [letter]), if_pos digit,
        run rest apart]
  | @mark c known =>
      obtain ⟨-, unquoted, slash, letter, digit, operator, -⟩ := isMark_apart known
      rw [Token.chars, List.cons_append, List.nil_append,
        next?_of_plain unquoted fun _ same => absurd same slash]
      simp [letter, digit, operator, known]
  | @operator c known =>
      obtain ⟨-, unquoted, -, letter, digit⟩ := isOperatorChar_apart known
      have noComment (tail : List Char) (_ : c = '/') : rest ≠ '*' :: tail := by
        rintro rfl
        cases stops '*' rfl
      obtain ⟨taken, dropped⟩ := takeWhile_append_of_stops (p := isOperatorChar) [] (by simp) stops
      rw [List.nil_append] at taken dropped
      rw [Token.chars, String.toList_singleton, List.cons_append, List.nil_append,
        next?_of_plain unquoted noComment]
      simp only [letter, digit, known, taken, dropped, Bool.false_eq_true, if_false, if_true]
      rfl
  | @quoted text plain =>
      have closed (c : Char) (first : ('"' :: rest).head? = some c) : (c != '"' && c != '\\') = false := by
        obtain rfl := Option.some.inj first
        rfl
      obtain ⟨taken, dropped⟩ := takeWhile_append_of_stops (p := fun c => c != '"' && c != '\\') text.toList
        (fun c member => by simp [(plain c member).1, (plain c member).2.1]) closed
      simp [Token.chars, next?, taken, dropped]
  | @comment text plain =>
      have noStar : '*' ∉ text.toList := fun member => (plain '*' member).1 rfl
      simp [Token.chars, next?, commentTail_append noStar]

namespace Token

variable {t u : Token}

theorem isOperatorChar_of_isWordChar {c : Char} (letter : isWordChar c = true) :
    isOperatorChar c = false := by
  rw [← Bool.not_eq_true]
  intro known
  obtain ⟨-, -, -, noLetter, noDigit⟩ := isOperatorChar_apart known
  simp [isWordChar, noLetter, noDigit] at letter

theorem exists_first (proper : t.Proper) : ∃ c cs, t.chars = c :: cs ∧ c ≠ ' ' ∧
    ∀ s : Token, s.joins t = false → s.goesOn c = false := by
  cases proper with
  | @word name named =>
      obtain ⟨c, cs, same, first, -⟩ := exists_of_isModelName named
      have operator := isOperatorChar_of_isWordChar (c := c) (by simp [isWordChar, first])
      refine ⟨c, cs, same, ?_, fun s apart => ?_⟩
      · rintro rfl
        cases first
      · cases s <;> simp_all [joins, goesOn]
  | @number n unsigned whole =>
      obtain ⟨d, tail, same, -⟩ := exists_numberTail unsigned whole
      have operator := isOperatorChar_of_isWordChar (Digit.isWordChar_toChar d).1
      refine ⟨d.toChar, tail, ?_, ?_, fun s apart => ?_⟩
      · rw [chars, Numeral.text, String.toList_ofList, same]
      · clear same operator
        revert d
        decide
      · cases s <;> simp_all [joins, goesOn]
  | @mark c known =>
      obtain ⟨blank, -, -, letter, digit, operator, sign⟩ := isMark_apart known
      refine ⟨c, [], rfl, blank, fun s apart => ?_⟩
      cases s <;> simp_all [joins, goesOn, isWordChar]
  | @operator c known =>
      obtain ⟨blank, -, point, letter, digit⟩ := isOperatorChar_apart known
      refine ⟨c, [], String.toList_singleton c, blank, fun s apart => ?_⟩
      cases s <;> simp_all [joins, goesOn, isWordChar]
  | @quoted text plain =>
      refine ⟨'"', _, rfl, by decide, fun s _ => ?_⟩
      cases s <;> rfl
  | @comment text plain =>
      refine ⟨'/', _, rfl, by decide, fun s apart => ?_⟩
      cases s with
      | operator => cases apart
      | _ => rfl

theorem newline_not_mem (proper : t.Proper) : '\n' ∉ t.chars := by
  intro member
  cases proper with
  | @word name named =>
      obtain ⟨c, cs, same, first, tail⟩ := exists_of_isModelName named
      rw [chars, same] at member
      rcases List.mem_cons.mp member with rfl | member
      · cases first
      · cases tail _ member
  | @number n unsigned whole =>
      have digits (ds : List Digit) : '\n' ∉ ds.map Digit.toChar := by
        intro member
        obtain ⟨d, -, same⟩ := List.mem_map.mp member
        exact absurd (Digit.isDigit_toChar d) (by rw [same]; decide)
      rw [chars, Numeral.text, String.toList_ofList, ← List.append_nil (n.chars false), Numeral.chars_eq] at member
      cases exponent : n.exponent <;>
        simp_all [Numeral.fractionText, Numeral.exponentText, Numeral.exponentChars]
  | @mark c known =>
      obtain rfl := List.mem_singleton.mp member
      cases known
  | @operator c known =>
      rw [chars, String.toList_singleton] at member
      obtain rfl := List.mem_singleton.mp member
      cases known
  | @quoted text plain =>
      have inside : '\n' ∈ text.toList := by simpa [chars] using member
      exact (plain '\n' inside).2.2 rfl
  | @comment text plain =>
      have inside : '\n' ∈ text.toList := by simpa [chars] using member
      exact (plain '\n' inside).2 rfl

end Token

abbrev Piece := Option Token

def spell (ps : List Piece) : List Char :=
  ps.flatMap fun
    | none => [' ']
    | some t => t.chars

section Spelling

variable (ps qs : List Piece)

@[simp] theorem spell_nil : spell [] = [] := rfl

@[simp] theorem spell_cons_none : spell (none :: ps) = ' ' :: spell ps := rfl

@[simp] theorem spell_cons_some (t : Token) : spell (some t :: ps) = t.chars ++ spell ps := rfl

@[simp] theorem spell_append : spell (ps ++ qs) = spell ps ++ spell qs := List.flatMap_append

end Spelling

/-- Neighbours that may be written so. -/
def Beside : Piece → Piece → Prop
  | some t, some u => t.joins u = false
  | _, _ => True

@[simp] theorem none_beside (p : Piece) : Beside none p := trivial

@[simp] theorem beside_none (p : Piece) : Beside p none := by
  cases p <;> trivial

@[simp] theorem some_beside_some (t u : Token) : Beside (some t) (some u) ↔ t.joins u = false := Iff.rfl

@[simp] theorem mark_beside (c : Char) (p : Piece) : Beside (some (.mark c)) p := by
  cases p with
  | none => trivial
  | some t => rfl

structure Spaced (ps : List (Piece)) : Prop where
  proper : ∀ t, some t ∈ ps → t.Proper
  beside : ps.IsChain Beside

namespace Spaced

variable {p : Piece} {ps qs : List (Piece)}

theorem nil : Spaced [] := ⟨by simp, .nil⟩

theorem tail (spaced : Spaced (p :: ps)) : Spaced ps :=
  ⟨fun t member => spaced.proper t (List.mem_cons_of_mem p member), spaced.beside.tail⟩

@[simp] theorem cons_none : Spaced (none :: ps) ↔ Spaced ps := by
  constructor
  · exact tail
  · intro spaced
    constructor
    · intro t member
      exact spaced.proper t (by simpa using member)
    · exact spaced.beside.cons fun p _ => trivial

@[simp] theorem cons_some {t : Token} :
    Spaced (some t :: ps) ↔ t.Proper ∧ (∀ q ∈ ps.head?, Beside (some t) q) ∧ Spaced ps := by
  constructor
  · intro spaced
    exact ⟨spaced.proper t List.mem_cons_self, (List.isChain_cons.mp spaced.beside).1, spaced.tail⟩
  · intro ⟨proper, beside, spaced⟩
    constructor
    · intro u member
      rcases List.mem_cons.mp member with same | member
      · exact Option.some.inj same ▸ proper
      · exact spaced.proper u member
    · exact spaced.beside.cons beside

theorem append (left : Spaced ps) (right : Spaced qs)
    (between : ∀ p ∈ ps.getLast?, ∀ q ∈ qs.head?, Beside p q) : Spaced (ps ++ qs) where
  proper t member := (List.mem_append.mp member).elim (left.proper t) (right.proper t)
  beside := List.isChain_append.mpr ⟨left.beside, right.beside, between⟩

theorem append_mark {c : Char} (spaced : Spaced ps) (known : isMark c = true) (other : c ≠ '.') :
    Spaced (ps ++ [some (.mark c)]) := by
  apply spaced.append
  · rw [cons_some]
    exact ⟨.mark known, by simp, .nil⟩
  · intro p _ q last
    obtain rfl := Option.some.inj last
    cases p with
    | none => trivial
    | some t => cases t <;> simp [Beside, Token.joins, other]

theorem stops {t : Token} (spaced : Spaced (some t :: ps)) (c : Char) (first : (spell ps).head? = some c) :
    t.goesOn c = false := by
  cases ps with
  | nil => cases first
  | cons p ps =>
      cases p with
      | none =>
          obtain rfl : ' ' = c := Option.some.inj first
          cases t <;> rfl
      | some u =>
          obtain ⟨d, ds, same, -, apart⟩ := u.exists_first (spaced.proper u (by simp))
          have beside : t.joins u = false := (List.isChain_cons_cons.mp spaced.beside).1
          obtain rfl : d = c := by simpa [spell, same] using first
          exact apart t beside

/-- Lines are split into the tokens that they are spelled from. -/
theorem lex_spell (spaced : Spaced ps) : lex (spell ps) = some ps.reduceOption := by
  induction ps with
  | nil => 
      rw [spell, List.flatMap_nil, lex]
      rfl
  | cons p ps ih =>
      have rest := ih spaced.tail
      cases p with
      | none =>
          show lex (' ' :: spell ps) = some ps.reduceOption
          rw [lex, rest]
      | some t =>
          obtain ⟨c, cs, same, blank, -⟩ := t.exists_first (spaced.proper t List.mem_cons_self)
          have found := next?_chars (spaced.proper t List.mem_cons_self) spaced.stops
          show lex (t.chars ++ spell ps) = some (t :: ps.reduceOption)
          rw [same, List.cons_append] at found ⊢
          rw [lex.eq_3 _ _ blank]
          split
          · next none => rw [found] at none; cases none
          · next some => 
              rw [found] at some
              obtain ⟨rfl, rfl⟩ := Prod.mk.inj (Option.some.inj some)
              rw [rest]
              rfl

theorem newline_not_mem (spaced : Spaced ps) : '\n' ∉ spell ps := by
  intro member
  obtain ⟨p, known, inside⟩ := List.mem_flatMap.mp member
  cases p with
  | none => simp at inside
  | some t => exact t.newline_not_mem (spaced.proper t known) inside

end Spaced

end CSource

end AutoDiff
