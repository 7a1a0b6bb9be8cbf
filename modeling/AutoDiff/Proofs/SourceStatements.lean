import AutoDiff.CSource.Reader
import AutoDiff.CSource.Text
import AutoDiff.Proofs.SourceTokens
import Mathlib.Data.List.ReduceOption

namespace AutoDiff.CSource

open Artifact (isLetter isModelName)

namespace Token

def natural (n : Nat) : Token := number (toString n)

def numbered (v : Nat) : Token := word ("v" ++ toString v)

@[simp] theorem joins_mark (t : Token) {c : Char} (other : c ≠ '.') : t.joins (mark c) = false := by
  cases t <;> simp [joins, other]

@[simp] theorem operator_joins_word (symbol name : String) : (operator symbol).joins (word name) = false := rfl

@[simp] theorem operator_joins_number (symbol spelling : String) :
    (operator symbol).joins (number spelling) = false := rfl

@[simp] theorem operator_joins_numbered (symbol : String) (v : Nat) :
    (operator symbol).joins (numbered v) = false := rfl

theorem toString_eq (n : Nat) : toString n = (Numeral.ofInt n).text false := by
  have natural : ¬((n : Int) < 0) := by omega
  apply String.toList_injective
  rw [Digit.toList_toString]
  simp [Numeral.text, Numeral.chars, Numeral.ofInt, natural]

theorem toList_numbered (v : Nat) : ("v" ++ toString v).toList = 'v' :: (Digit.ofNat v).map Digit.toChar := by
  rw [String.toList_append, Digit.toList_toString]
  rfl

theorem isModelName_numbered (v : Nat) : isModelName ("v" ++ toString v) = true := by
  have letter : isLetter 'v' = true := by decide
  rw [isModelName, toList_numbered]
  simp [letter, Digit.isDigit_toChar]

@[simp] theorem proper_word {name : String} : (word name).Proper ↔ isModelName name = true :=
  ⟨fun | .word named => named, .word⟩

@[simp] theorem proper_mark {c : Char} : (mark c).Proper ↔ isMark c = true :=
  ⟨fun | .mark known => known, .mark⟩

@[simp] theorem proper_operator (op : Operator) : (operator op.name).Proper := by
  cases op with
  | plus => exact .operator (c := '+') (by decide)
  | minus => exact .operator (c := '-') (by decide)
  | times => exact .operator (c := '*') (by decide)
  | divided => exact .operator (c := '/') (by decide)

@[simp] theorem proper_minus : (operator "-").Proper := proper_operator .minus

@[simp] theorem proper_times : (operator "*").Proper := proper_operator .times

@[simp] theorem proper_equals : (operator "=").Proper := .operator (c := '=') (by decide)

@[simp] theorem proper_natural (n : Nat) : (natural n).Proper := by
  rw [natural, toString_eq]
  exact .number (by simp [Numeral.ofInt]) (Digit.ofNat_ne_nil n)

@[simp] theorem proper_numbered (v : Nat) : (numbered v).Proper := .word (isModelName_numbered v)

end Token

theorem natural?_toString (n : Nat) : natural? (toString n).toList = some n := by
  have stops : Digit.Stops [] := fun c first => by cases first
  have digits := Digit.run_map_append (Digit.ofNat n) stops
  rw [List.append_nil] at digits
  rw [natural?, Digit.toList_toString, digits]
  simp [Digit.value_ofNat]

theorem numbered?_name (v : Nat) : numbered? ("v" ++ toString v) = some v := by
  have digits := natural?_toString v
  rw [Digit.toList_toString] at digits
  rw [numbered?, Token.toList_numbered]
  exact digits

@[simp] theorem Buffer.read?_name (b : Buffer) : Buffer.read? b.name = some b := by
  cases b <;> rfl

@[simp] theorem Operator.read?_name (op : Operator) : Operator.read? op.name = some op := by
  cases op <;> rfl

@[simp] theorem MathFunction.read?_name (f : MathFunction) : MathFunction.read? f.name = some f := by
  cases f <;> rfl

@[simp] theorem Buffer.isModelName_name (b : Buffer) : isModelName b.name = true := by
  cases b <;> decide

@[simp] theorem MathFunction.isModelName_name (f : MathFunction) : isModelName f.name = true := by
  cases f <;> decide

namespace Literal

def signed (negative : Bool) (t : Token) : List Piece :=
  if negative then [some (.mark '('), some (.operator "-"), some t, some (.mark ')')] else [some t]

def pieces : Literal → List Piece
  | nan => [some (.word "NAN")]
  | infinity negative => signed negative (.word "INFINITY")
  | decimal n => signed n.negative (.number (Numeral.text false { n with negative := false }))

def Readable : Literal → Prop
  | decimal n => n.whole ≠ [] ∧ (n.fraction ≠ [] ∨ n.exponent ≠ none)
  | _ => True

variable {value : Literal}

theorem spell_pieces (value : Literal) : spell value.pieces = value.text.toList := by
  cases value with
  | nan => rfl
  | infinity negative => cases negative <;> rfl
  | decimal n =>
      obtain ⟨negative, whole, fraction, exponent⟩ := n
      cases negative <;>
        simp [pieces, signed, Token.chars, text, Numeral.text, Numeral.chars]

theorem spaced_signed (negative : Bool) {t : Token} (proper : t.Proper)
    (before : (Token.operator "-").joins t = false) : Spaced (signed negative t) := by
  cases negative with
  | false => simp [signed, proper, Spaced.nil]
  | true => simp +decide [signed, proper, before, Spaced.nil]

theorem spaced_pieces (readable : value.Readable) : Spaced value.pieces := by
  cases value with
  | nan => simp [pieces, Spaced.nil, show isModelName "NAN" = true by decide]
  | infinity negative => exact spaced_signed negative (.word (by decide)) rfl
  | decimal n => exact spaced_signed n.negative (.number rfl readable.1) rfl

theorem floating?_text {n : Numeral} (readable : (decimal n).Readable) :
    floating? n.negative (Numeral.text false { n with negative := false }) = some (decimal n) := by
  have parsed := Numeral.parse?_chars false (n := { n with negative := false }) readable.1
  have typed : ¬n.fraction = [] ∨ n.exponent.isSome = true := by
    simpa [Option.isSome_iff_ne_none] using readable.2
  rw [floating?, Numeral.text, String.toList_ofList, parsed]
  simp [guard, typed]

theorem read?_pieces (readable : value.Readable) : Expr.read? value.pieces.reduceOption = some (.literal value) := by
  cases value with
  | nan => rfl
  | infinity negative => cases negative <;> rfl
  | decimal n =>
      have read := floating?_text readable
      cases negative : n.negative <;> rw [negative] at read <;>
        simp [pieces, signed, negative, Expr.read?, read]

end Literal

namespace Expr

def whole (n : Nat) : Numeral := { whole := Digit.ofNat n, fraction := [⟨0, by decide⟩] }

def pieces : Expr → List Piece
  | element buffer index => [some (.word buffer.name), some (.mark '['), some (.natural index), some (.mark ']')]
  | literal value => value.pieces
  | negation v => [some (.operator "-"), some (.numbered v)]
  | call f v => [some (.word f.name), some (.mark '('), some (.numbered v), some (.mark ')')]
  | operation op u v => [some (.numbered u), none, some (.operator op.name), none, some (.numbered v)]
  | pow u v =>
    [some (.word "pow"), some (.mark '('), some (.numbered u), some (.mark ','), none, some (.numbered v),
      some (.mark ')')]
  | wholePow v exponent =>
    [some (.word "pow"), some (.mark '('), some (.numbered v), some (.mark ','), none]
      ++ (if exponent.toInt < 0 then [some (.operator "-")] else [])
      ++ [some (.number ((whole exponent.toInt.natAbs).text false)), some (.mark ')')]

def Readable : Expr → Prop
  | literal value => value.Readable
  | _ => True

variable {e : Expr}

theorem text_whole (i : Int) : toString i ++ ".0" =
    (if i < 0 then "-" else "") ++ (whole i.natAbs).text false := by
  apply String.toList_injective
  have digits : (toString i).toList = (if i < 0 then ['-'] else []) ++ (toString i.natAbs).toList := by
    cases i with
    | ofNat n =>
        rw [if_neg (by simp), List.nil_append]
        rfl
    | negSucc n => simp [toString, Int.negSucc_lt_zero, Int.repr]
  rw [String.toList_append, digits, Digit.toList_toString]
  by_cases negative : i < 0 <;> simp [negative, whole, Numeral.text, Numeral.chars] <;> rfl

theorem wholeExponent?_text (exponent : Int32) :
    wholeExponent? (decide (exponent.toInt < 0)) ((whole exponent.toInt.natAbs).text false) = some exponent := by
  have parsed := Numeral.parse?_chars false (n := whole exponent.toInt.natAbs) (Digit.ofNat_ne_nil _)
  have low : -2147483648 ≤ exponent.toInt := Int32.minValue_le_toInt exponent
  have high : exponent.toInt ≤ Int32.maxValue.toInt := Int32.toInt_le exponent
  have same : (if decide (exponent.toInt < 0) = true then -(Digit.value (Digit.ofNat exponent.toInt.natAbs) : Int)
      else Digit.value (Digit.ofNat exponent.toInt.natAbs)) = exponent.toInt := by
    simp only [Digit.value_ofNat, decide_eq_true_eq]
    split <;> omega
  have range : Int32.minValue.toInt ≤ exponent.toInt ∧ exponent.toInt ≤ Int32.maxValue.toInt := ⟨low, high⟩
  rw [wholeExponent?, Numeral.text, String.toList_ofList, parsed]
  simp only [whole, Option.bind_eq_bind, Option.bind_some, same, guard, range, and_self, if_true]
  simp

theorem spell_pieces (e : Expr) : spell e.pieces = e.text.toList := by
  cases e with
  | literal value => exact value.spell_pieces
  | element buffer index => simp [pieces, text, Token.chars, Token.natural, toString]
  | negation v => simp [pieces, text, Token.chars, Token.numbered, toString]
  | call f v => simp [pieces, text, Token.chars, Token.numbered, toString]
  | operation op u v => simp [pieces, text, Token.chars, Token.numbered, toString]
  | pow u v => simp [pieces, text, Token.chars, Token.numbered, toString]
  | wholePow v exponent =>
      have shape : text (wholePow v exponent) =
          "pow(v" ++ toString v ++ ", " ++ (toString exponent.toInt ++ ".0") ++ ")" := by
        simp [text, String.append_assoc, toString]
      rw [shape, text_whole]
      by_cases negative : exponent.toInt < 0 <;>
        simp [pieces, Token.chars, Token.numbered, negative, toString]

theorem spaced_pieces (readable : e.Readable) : Spaced e.pieces := by
  cases e with
  | literal value => exact Literal.spaced_pieces readable
  | element buffer index => simp +decide [pieces, Spaced.nil]
  | negation v => simp [pieces, Spaced.nil]
  | call f v => simp +decide [pieces, Spaced.nil]
  | operation op u v => simp [pieces, Spaced.nil]
  | pow u v => simp +decide [pieces, Spaced.nil]
  | wholePow v exponent =>
      have number : (Token.number ((whole exponent.toInt.natAbs).text false)).Proper :=
        .number rfl (Digit.ofNat_ne_nil _)
      by_cases negative : exponent.toInt < 0 <;> simp +decide [pieces, negative, number, Spaced.nil]

theorem read?_pieces (readable : e.Readable) : read? e.pieces.reduceOption = some e := by
  cases e with
  | literal value => exact Literal.read?_pieces readable
  | element buffer index => simp [-Nat.toString_eq_repr, pieces, read?, Token.natural, natural?_toString]
  | negation v => simp [-Nat.toString_eq_repr, pieces, read?, Token.numbered, numbered?_name]
  | call f v => simp [-Nat.toString_eq_repr, pieces, read?, Token.numbered, numbered?_name]
  | operation op u v => simp [-Nat.toString_eq_repr, pieces, read?, Token.numbered, numbered?_name]
  | pow u v => simp [-Nat.toString_eq_repr, pieces, read?, Token.numbered, numbered?_name]
  | wholePow v exponent =>
      have exponent? := wholeExponent?_text exponent
      by_cases negative : exponent.toInt < 0 <;>
        simp only [negative, decide_true, decide_false] at exponent? <;>
        simp [-Nat.toString_eq_repr, pieces, read?, Token.numbered, numbered?_name, negative, exponent?]

end Expr

namespace Statement

def pieces : Statement → List Piece
  | mention buffer => [some (.mark '('), some (.word "void"), some (.mark ')'), some (.word buffer.name)]
  | declare v value =>
    [some (.word "const"), none, some (.word "double"), none, some (.numbered v), none, some (.operator "="), none]
      ++ value.pieces
  | store buffer slot v =>
    [some (.word buffer.name), some (.mark '['), some (.natural slot), some (.mark ']'), none, some (.operator "="),
      none, some (.numbered v)]

def line (s : Statement) : List Piece := none :: none :: none :: none :: (s.pieces ++ [some (.mark ';')])

def Readable : Statement → Prop
  | declare _ value => value.Readable
  | _ => True

variable {s : Statement}

theorem spell_line (s : Statement) : s.text.toList = spell s.line ++ ['\n'] := by
  cases s with
  | mention buffer =>
      have shape : text (mention buffer) = "    (void)" ++ buffer.name ++ ";\n" := rfl
      simp [line, pieces, shape, Token.chars]
  | declare v value =>
      have shape : text (declare v value) = "    const double v" ++ toString v ++ " = " ++ value.text ++ ";\n" := rfl
      simp [line, pieces, shape, value.spell_pieces, Token.chars, Token.numbered]
  | store buffer slot v =>
      have shape : text (store buffer slot v) =
          "    " ++ buffer.name ++ "[" ++ toString slot ++ "] = v" ++ toString v ++ ";\n" := rfl
      simp [line, pieces, shape, Token.chars, Token.natural, Token.numbered]

theorem spaced_pieces (readable : s.Readable) : Spaced s.pieces := by
  cases s with
  | mention buffer => simp +decide [pieces, Spaced.nil]
  | declare v value =>
      simp +decide [pieces, Expr.spaced_pieces readable]
  | store buffer slot v => 
      simp +decide [pieces, Spaced.nil]

theorem spaced_line (readable : s.Readable) : Spaced s.line := by
  have marked := (spaced_pieces readable).append_mark (c := ';') (by decide) (by decide)
  simpa [line] using marked

theorem read?_pieces (readable : s.Readable) : read? s.pieces.reduceOption = some s := by
  cases s with
  | mention buffer => simp [pieces, read?]
  | declare v value =>
      simp [-Nat.toString_eq_repr, pieces, read?, Token.numbered, numbered?_name, Expr.read?_pieces readable]
  | store buffer slot v =>
      simp [-Nat.toString_eq_repr, pieces, read?, Token.natural, Token.numbered, natural?_toString, numbered?_name]

end Statement

/-- Tokens that neither the preprocessor nor the reader of definitions acts on. -/
def Token.isPlain : Token → Bool
  | word name => name != "ADCG_EXPORT"
  | mark c => !(['#', '\x7b', '\x7d', ';'].contains c)
  | comment _ => false
  | _ => true

namespace Token

@[simp] theorem isPlain_numbered (v : Nat) : (numbered v).isPlain = true := by
  apply bne_iff_ne.mpr
  intro same
  have first := congrArg String.toList same
  rw [toList_numbered] at first
  exact absurd (List.cons.inj first).1 (by decide)

@[simp] theorem isPlain_natural (n : Nat) : (natural n).isPlain = true := rfl

@[simp] theorem isPlain_number (spelling : String) : (number spelling).isPlain = true := rfl

@[simp] theorem isPlain_operator (symbol : String) : (operator symbol).isPlain = true := rfl

@[simp] theorem isPlain_buffer (b : Buffer) : (word b.name).isPlain = true := by
  cases b <;> decide

@[simp] theorem isPlain_function (f : MathFunction) : (word f.name).isPlain = true := by
  cases f <;> decide

end Token

def Plain (ts : List Token) : Prop := ∀ t ∈ ts, t.isPlain = true

theorem Literal.plain_pieces (value : Literal) : Plain value.pieces.reduceOption := by
  cases value with
  | nan => simp +decide [Plain]
  | infinity negative => cases negative <;> simp +decide [Plain]
  | decimal n => cases negative : n.negative <;> simp +decide [Plain, pieces, signed, negative]

theorem Expr.plain_pieces (e : Expr) : Plain e.pieces.reduceOption := by
  cases e with
  | literal value => exact value.plain_pieces
  | wholePow v exponent =>
      by_cases negative : exponent.toInt < 0 <;> simp +decide [Plain, pieces, negative]
  | _ => simp +decide [Plain, pieces]

theorem Statement.plain_pieces (s : Statement) : Plain s.pieces.reduceOption := by
  cases s with
  | declare v value =>
      have inner := value.plain_pieces
      simpa +decide [Plain, pieces] using inner
  | _ => simp +decide [Plain, pieces]

end AutoDiff.CSource
