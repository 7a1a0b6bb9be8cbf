import AutoDiff.Json.Number
import AutoDiff.Json.Parser
import Mathlib.Data.Option.Basic

namespace AutoDiff

namespace Digit

theorem ofChar?_toChar (d : Digit) : ofChar? d.toChar = some d := by
  revert d
  decide

theorem toChar_ne (d : Digit) : d.toChar ≠ '-' ∧ d.toChar ≠ '+' := by
  revert d
  decide

/-- A text that goes on with something else than a digit. -/
def Stops (rest : List Char) : Prop := ∀ c, rest.head? = some c → ofChar? c = none

theorem run_of_stops {rest : List Char} (stops : Stops rest) : run rest = ([], rest) := by
  cases rest with
  | nil => rfl
  | cons c rest =>
      have other : ofChar? c = none := stops c rfl
      simp [run, other]

theorem run_map_append (ds : List Digit) {rest : List Char} (stops : Stops rest) :
    run (ds.map toChar ++ rest) = (ds, rest) := by
  induction ds with
  | nil => exact run_of_stops stops
  | cons d ds ih => simp [run, ofChar?_toChar, ih]

theorem value_append_singleton (ds : List Digit) (d : Digit) : value (ds ++ [d]) = 10 * value ds + d.val := by
  simp [value, List.foldl_append]

theorem value_ofNat (n : Nat) : value (ofNat n) = n := by
  induction n using Nat.strongRecOn with
  | ind n ih =>
      rw [ofNat]
      split
      · next small =>
          have same : n % 10 = n := Nat.mod_eq_of_lt small
          simp [value, same]
      · next large =>
          rw [value_append_singleton, ih (n / 10) (by omega)]
          exact Nat.div_add_mod n 10

theorem exists_head_ofNat {n : Nat} (positive : 0 < n) : ∃ d ds, ofNat n = d :: ds ∧ 0 < d.val := by
  induction n using Nat.strongRecOn with
  | ind n ih =>
      rw [ofNat]
      split
      · next small =>
          refine ⟨_, [], rfl, ?_⟩
          show 0 < n % 10
          omega
      · next large =>
          obtain ⟨d, ds, same, head⟩ := ih (n / 10) (by omega) (by omega)
          exact ⟨d, _, by rw [same]; rfl, head⟩

theorem ofNat_ne_nil (n : Nat) : ofNat n ≠ [] := by
  rw [ofNat]
  split <;> simp

theorem isWhole_ofNat (n : Nat) : Json.isWhole (ofNat n) = true := by
  rcases Nat.eq_zero_or_pos n with rfl | positive
  · rw [ofNat]
    rfl
  · obtain ⟨d, ds, same, head⟩ := exists_head_ofNat positive
    rw [same]
    cases ds with
    | nil => rfl
    | cons => exact decide_eq_true head

end Digit

namespace Numeral

open Digit

theorem sign_toChar (d : Digit) (rest : List Char) : sign (d.toChar :: rest) = (false, d.toChar :: rest) := by
  obtain ⟨minus, plus⟩ := toChar_ne d
  exact sign.eq_3 _ (fun tail same => minus (List.cons.inj same).1) (fun tail same => plus (List.cons.inj same).1)

/-- What may follow a number in a text. -/
def Ends (rest : List Char) : Prop :=
  ∀ c, rest.head? = some c → ofChar? c = none ∧ c ≠ '.' ∧ c ≠ 'e' ∧ c ≠ 'E'

theorem Ends.stops {rest : List Char} (ends : Ends rest) : Stops rest := fun c first => (ends c first).1

theorem exponent?_of_ends {rest : List Char} (ends : Ends rest) : exponent? rest = some (none, rest) := by
  cases rest with
  | nil => rfl
  | cons c rest =>
      obtain ⟨_, _, lower, upper⟩ := ends c rfl
      simp [exponent?, lower, upper]

theorem exponent?_exponentChars (plus : Bool) (e : Int) {rest : List Char} (ends : Ends rest) :
    exponent? (exponentChars plus e ++ rest) = some (some e, rest) := by
  have digits := run_map_append (Digit.ofNat e.natAbs) ends.stops
  obtain ⟨d, ds, list⟩ := List.exists_cons_of_ne_nil (Digit.ofNat_ne_nil e.natAbs)
  rw [list] at digits
  have value : Digit.value (d :: ds) = e.natAbs := list ▸ value_ofNat e.natAbs
  by_cases negative : e < 0
  · simp only [exponentChars, negative, if_true, list, List.cons_append, List.nil_append, exponent?, sign,
      true_or, digits]
    rw [value]
    simp only [Option.some.injEq, Prod.mk.injEq, and_true]
    omega
  · have unsigned : sign ((if plus then ['+'] else []) ++ (d.toChar :: (ds.map toChar ++ rest))) =
        (false, d.toChar :: (ds.map toChar ++ rest)) := by
      cases plus with
      | true => rfl
      | false => exact sign_toChar d _
    simp only [List.map_cons, List.cons_append] at digits
    simp only [exponentChars, negative, if_false, list, List.map_cons, List.cons_append, List.append_assoc,
      exponent?, true_or, if_true, unsigned, digits]
    rw [value]
    simp only [Option.some.injEq, Prod.mk.injEq, and_true, Bool.false_eq_true, if_false]
    omega

def fractionText (ds : List Digit) : List Char := if ds.isEmpty then [] else '.' :: ds.map toChar

def exponentText (plus : Bool) : Option Int → List Char
  | some e => exponentChars plus e
  | none => []

theorem chars_eq (plus : Bool) (n : Numeral) (rest : List Char) : n.chars plus ++ rest =
    (if n.negative then ['-'] else []) ++
      (n.whole.map toChar ++ (fractionText n.fraction ++ (exponentText plus n.exponent ++ rest))) := by
  cases exponent : n.exponent <;> simp [chars, fractionText, exponentText, exponent]

theorem exponent?_exponentText (plus : Bool) (exponent : Option Int) {rest : List Char} (ends : Ends rest) :
    exponent? (exponentText plus exponent ++ rest) = some (exponent, rest) := by
  cases exponent with
  | some e => exact exponent?_exponentChars plus e ends
  | none => exact exponent?_of_ends ends

theorem head?_exponentText (plus : Bool) (exponent : Option Int) {rest : List Char} (ends : Ends rest) {c : Char}
    (first : (exponentText plus exponent ++ rest).head? = some c) : ofChar? c = none ∧ c ≠ '.' := by
  cases exponent with
  | some e =>
      obtain rfl : 'e' = c := Option.some.inj first
      decide
  | none =>
      obtain ⟨other, point, _⟩ := ends c first
      exact ⟨other, point⟩

theorem stops_fractionText (ds : List Digit) {after : List Char}
    (first : ∀ c, after.head? = some c → ofChar? c = none ∧ c ≠ '.') : Stops (fractionText ds ++ after) := by
  intro c head
  cases ds with
  | nil => exact (first c head).1
  | cons d ds =>
      obtain rfl : '.' = c := Option.some.inj head
      decide

theorem numeral?_chars (n : Numeral) (whole : Json.isWhole n.whole = true) {rest : List Char}
    (ends : Ends rest) : Json.numeral? (n.chars true ++ rest) = some (n, rest) := by
  rw [chars_eq]
  obtain ⟨negative, digits, fraction, exponent⟩ := n
  have read := exponent?_exponentText true exponent ends
  have first (c : Char) := head?_exponentText true exponent ends (c := c)
  generalize exponentText true exponent ++ rest = after at read first
  have outer := run_map_append digits (stops_fractionText fraction first)
  have plain (tail body : List Char) : digits.map toChar ++ tail ≠ '-' :: body := by
    cases digits with
    | nil => cases whole
    | cons d ds =>
        intro same
        exact (toChar_ne d).1 (List.cons.inj same).1
  cases fraction with
  | nil =>
      have point (tail : List Char) : after ≠ '.' :: tail := by
        rintro rfl
        exact (first '.' rfl).2 rfl
      have after := plain after
      cases negative <;> simp_all [Json.numeral?, fractionText, guard]
  | cons d ds =>
      have inner := run_map_append (d :: ds) fun c head => (first c head).1
      have after := plain (fractionText (d :: ds) ++ after)
      cases negative <;> simp_all [Json.numeral?, fractionText, guard]

/-- A numeral with digits before the point is read as it is written. -/
theorem parse?_chars (plus : Bool) {n : Numeral} (whole : n.whole ≠ []) : parse? (n.chars plus) = some n := by
  have ends : Ends [] := fun c first => by cases first
  rw [← List.append_nil (n.chars plus), chars_eq]
  obtain ⟨negative, digits, fraction, exponent⟩ := n
  have read := exponent?_exponentText plus exponent ends
  have first (c : Char) := head?_exponentText plus exponent ends (c := c)
  generalize exponentText plus exponent ++ [] = after at read first
  have outer := run_map_append digits (stops_fractionText fraction first)
  have signed (tail : List Char) : sign ((if negative then ['-'] else []) ++ (digits.map toChar ++ tail)) =
      (negative, digits.map toChar ++ tail) := by
    obtain ⟨d, ds, rfl⟩ := List.exists_cons_of_ne_nil whole
    cases negative with
    | true => rfl
    | false => exact sign_toChar d _
  cases fraction with
  | nil =>
      have point (tail : List Char) : after ≠ '.' :: tail := by
        rintro rfl
        exact (first '.' rfl).2 rfl
      simp_all [parse?, fractionText, guard]
  | cons d ds =>
      have inner := run_map_append (d :: ds) fun c head => (first c head).1
      simp_all [parse?, fractionText, guard]

theorem integer?_ofInt (i : Int) : (Numeral.ofInt i).integer? = some i := by
  unfold Numeral.ofInt integer?
  by_cases negative : i < 0
  · have positive : i.natAbs ≠ 0 := by omega
    simp only [List.isEmpty_nil, Option.isNone_none, and_self, if_true, negative, decide_true, Bool.not_true,
      Bool.false_eq_true, if_false, value_ofNat, positive, Option.some.injEq]
    omega
  · simp only [List.isEmpty_nil, Option.isNone_none, and_self, if_true, negative, decide_false, Bool.not_false,
      value_ofNat, Option.some.injEq]
    omega

end Numeral

namespace Json

theorem guard_bind {β : Type} (p : Prop) [Decidable p] (b : β) :
    ((guard p : Option Unit) >>= fun _ => pure b) = if p then some b else none := by
  unfold guard
  split <;> rfl

theorem word?_number (m : Numeral) : (number m).word? =
    m.integer?.bind fun i => if 0 ≤ i ∧ i < UInt64.size then some i.toNat else none := by
  simp only [word?, guard_bind]
  rfl

theorem word?_ofNat {n : Nat} (word : n < UInt64.size) : (Json.ofNat n).word? = some n := by
  have bounds : (0 : Int) ≤ n ∧ (n : Int) < UInt64.size := ⟨Int.natCast_nonneg n, Int.ofNat_lt.mpr word⟩
  rw [Json.ofNat, word?_number, Numeral.integer?_ofInt, Option.bind_some, if_pos bounds, Int.toNat_natCast]

theorem int32?_number (m : Numeral) : (number m).int32? = m.integer?.bind fun i =>
    if Int32.minValue.toInt ≤ i ∧ i ≤ Int32.maxValue.toInt then some (Int32.ofInt i) else none := by
  simp only [int32?, guard_bind]
  rfl

theorem int32?_ofInt (i : Int32) : (Json.ofInt i.toInt).int32? = some i := by
  have bounds : Int32.minValue.toInt ≤ i.toInt ∧ i.toInt ≤ Int32.maxValue.toInt :=
    ⟨Int32.minValue_le_toInt i, Int32.toInt_le i⟩
  rw [Json.ofInt, int32?_number, Numeral.integer?_ofInt, Option.bind_some, if_pos bounds, Int32.ofInt_toInt]

end Json

namespace Binary64

theorem exists_head_trimZeros {d : Digit} (ds : List Digit) (head : 0 < d.val) :
    ∃ rest, Decimal.trimZeros (d :: ds) = d :: rest := by
  have other : (d == 0) = false := by
    apply beq_false_of_ne
    rintro rfl
    exact absurd head (by decide)
  refine ⟨(ds.reverse.dropWhile (· == 0)).reverse, ?_⟩
  rw [Decimal.trimZeros, List.reverse_cons, List.dropWhile_append]
  split
  · next empty =>
      have nothing : ds.reverse.dropWhile (· == 0) = [] := List.isEmpty_iff.mp empty
      simp [nothing, other]
  · simp

theorem exists_head_ofScaled {coefficient : Nat} (positive : 0 < coefficient) (exponent : Int) :
    ∃ d ds, (Decimal.ofScaled coefficient exponent).digits = d :: ds ∧ 0 < d.val := by
  obtain ⟨d, ds, same, head⟩ := Digit.exists_head_ofNat positive
  obtain ⟨rest, trimmed⟩ := exists_head_trimZeros ds head
  exact ⟨d, rest, by rw [Decimal.ofScaled, same, trimmed], head⟩

variable {x : Binary64}

/-- Zero does not read back as another number. -/
theorem readsBack_zero (some : x.significand ≠ 0) (exponent : Int) : x.readsBack 0 exponent = false := by
  have near : x.reach.1 ≤ 2 := by
    unfold reach
    split <;> decide
  have low : 0 < 4 * x.significand - x.reach.1 := by omega
  have unit : 0 < (if x.scale - 2 < 0 then 1 else Nat.pow 2 (x.scale - 2).natAbs) *
      (if exponent < 0 then Nat.pow 10 exponent.natAbs else 1) := by
    apply Nat.mul_pos
    · split
      · exact Nat.one_pos
      · exact Nat.pow_pos (by decide)
    · split
      · exact Nat.pow_pos (by decide)
      · exact Nat.one_pos
  have above := Nat.mul_pos low unit
  unfold readsBack
  simp only [Nat.zero_mul]
  split
  · rw [decide_eq_false (Nat.not_le.mpr above), Bool.false_and]
  · rw [decide_eq_false (Nat.not_lt.mpr (Nat.zero_le _)), Bool.false_and]

theorem pos_of_gridNeighbour? (some : x.significand ≠ 0) {tie : Tie} {exponent : Int} {n : Nat}
    (found : gridNeighbour? tie x exponent = .some n) : 0 < n := by
  unfold gridNeighbour? at found
  dsimp only at found
  split at found
  · next below _ =>
      obtain rfl := Option.some.inj found
      split
      · exact Nat.succ_pos _
      · apply Nat.pos_of_ne_zero
        intro zero
        rw [zero, readsBack_zero some] at below
        cases below
  · next below _ =>
      obtain rfl := Option.some.inj found
      apply Nat.pos_of_ne_zero
      intro zero
      rw [zero, readsBack_zero some] at below
      cases below
  · obtain rfl := Option.some.inj found
    exact Nat.succ_pos _
  · cases found

theorem magnitude_pos (some : x.significand ≠ 0) : 0 < x.magnitude.1 := by
  unfold magnitude
  split
  · exact Nat.pos_of_ne_zero some
  · exact Nat.mul_pos (Nat.pos_of_ne_zero some) (Nat.pow_pos (by decide))

theorem exists_head_shortestFrom (some : x.significand ≠ 0) (tie : Tie) (leading : Int) (left : Nat) :
    ∃ d ds, (shortestFrom tie x leading left).digits = d :: ds ∧ 0 < d.val := by
  induction left with
  | zero =>
      apply exists_head_ofScaled
      unfold shifted
      split
      · exact Nat.mul_pos (magnitude_pos some) (Nat.pow_pos (by decide))
      · exact magnitude_pos some
  | succ left ih =>
      unfold shortestFrom
      dsimp only
      split
      · next n found => exact exists_head_ofScaled (pos_of_gridNeighbour? some found) _
      · exact ih

theorem isWhole_cons {d : Digit} (ds : List Digit) (head : 0 < d.val) : Json.isWhole (d :: ds) = true := by
  cases ds with
  | nil => rfl
  | cons => exact decide_eq_true head

theorem isWhole_positional {decimal : Decimal} {d : Digit} {ds : List Digit} (digits : decimal.digits = d :: ds)
    (head : 0 < d.val) : Json.isWhole (positional decimal).whole = true := by
  unfold positional
  split
  · rfl
  · next point =>
      obtain ⟨n, places⟩ : ∃ n, decimal.point.toNat = n + 1 := ⟨decimal.point.toNat - 1, by omega⟩
      simp only [digits, places, List.take_succ_cons, List.cons_append]
      exact isWhole_cons _ head

theorem isWhole_scientific {decimal : Decimal} {d : Digit} {ds : List Digit} (digits : decimal.digits = d :: ds) :
    Json.isWhole (scientific decimal).whole = true := by
  simp [scientific, digits, Json.isWhole]

theorem isWhole_numeral (layout : Layout) (x : Binary64) : Json.isWhole (x.numeral layout).whole = true := by
  unfold numeral
  dsimp only
  split
  · rfl
  · next some =>
      obtain ⟨d, ds, digits, head⟩ := exists_head_shortestFrom some layout.tie
        (leadingExponent x.magnitude.1 x.magnitude.2) 17
      split
      · exact isWhole_positional digits head
      · exact isWhole_scientific digits

end Binary64

end AutoDiff
