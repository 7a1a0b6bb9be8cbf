import AutoDiff.Proofs.SourceStatements

/-!
Sources are read as they were written. A line of a source is spelled from its tokens, and a source is read
from the tokens of its lines.
-/

namespace AutoDiff.CSource

open Artifact (isLetter isModelName)

section Lists

variable {α : Type}

theorem intercalate_concat (separator : List α) (ls : List (List α)) (last : List α) :
    separator.intercalate (ls ++ [last]) = ls.flatMap (· ++ separator) ++ last := by
  induction ls with
  | nil => simp
  | cons l ls ih =>
      obtain ⟨m, ms, same⟩ := List.exists_cons_of_ne_nil (l := ls ++ [last]) (by simp)
      rw [List.cons_append, same, List.intercalate_cons_cons, ← same, ih, List.flatMap_cons]
      simp only [List.append_assoc]

theorem splitOn_flatMap [BEq α] [LawfulBEq α] (x : α) (ls : List (List α)) (last : List α)
    (apart : ∀ l ∈ ls, x ∉ l) (lastApart : x ∉ last) :
    (ls.flatMap (· ++ [x]) ++ last).splitOn x = ls ++ [last] := by
  rw [← intercalate_concat, List.splitOn_intercalate]
  · intro l member
    rcases List.mem_append.mp member with member | member
    · exact apart l member
    · exact List.mem_singleton.mp member ▸ lastApart
  · simp

theorem mapM_map_eq_some {β γ : Type} {f : β → Option γ} {g : α → β} {h : α → γ} (xs : List α)
    (each : ∀ x ∈ xs, f (g x) = some (h x)) : (xs.map g).mapM f = some (xs.map h) := by
  induction xs with
  | nil => rfl
  | cons x xs ih =>
      have rest := ih fun y member => each y (List.mem_cons_of_mem x member)
      simp [each x List.mem_cons_self, rest]

theorem mapM_map_eq_self {β : Type} {f : β → Option α} {g : α → β} (xs : List α)
    (each : ∀ x ∈ xs, f (g x) = some x) : (xs.map g).mapM f = some xs := by
  rw [mapM_map_eq_some (h := id) xs each, List.map_id]

end Lists

theorem pieces?_flatMap (stop : Char) (ls : List (List Token)) (apart : ∀ l ∈ ls, .mark stop ∉ l) :
    pieces? stop (ls.flatMap (· ++ [.mark stop])) = some ls := by
  have split := splitOn_flatMap (.mark stop) ls [] apart (by simp)
  rw [List.append_nil] at split
  simp [pieces?, split]

namespace Buffer

def argumentPieces (b : Buffer) : List Piece :=
  [some (.word "const"), none, some (.word "double"), none, some (.operator "*"), some (.word b.name)]

def resultPieces (b : Buffer) : List Piece :=
  [some (.word "double"), none, some (.operator "*"), some (.word b.name)]

theorem argument?_pieces (b : Buffer) : argument? b.argumentPieces.reduceOption = some b := by
  simp [argumentPieces, argument?]

theorem result?_pieces (b : Buffer) : result? b.resultPieces.reduceOption = some b := by
  simp [resultPieces, result?]

end Buffer

namespace Kernel

def parameterPieces (k : Kernel) : List Piece :=
  k.arguments.flatMap (fun b => b.argumentPieces ++ [some (.mark ','), none]) ++ k.result.resultPieces

theorem spell_flatMap {α : Type} (f : α → List Piece) (xs : List α) :
    spell (xs.flatMap f) = xs.flatMap fun x => spell (f x) := List.flatMap_assoc

theorem reduceOption_flatMap {α β : Type} (f : α → List (Option β)) (xs : List α) :
    (xs.flatMap f).reduceOption = xs.flatMap fun x => (f x).reduceOption := by
  induction xs with
  | nil => rfl
  | cons x xs ih => rw [List.flatMap_cons, List.reduceOption_append, ih, List.flatMap_cons]

theorem spell_parameterPieces (k : Kernel) : spell k.parameterPieces = k.parameters.toList := by
  rw [parameters, String.toList_intercalate, List.map_append, List.map_singleton, intercalate_concat, parameterPieces,
    spell_append, spell_flatMap, List.flatMap_map, List.flatMap_map]
  congr 1
  · simp [Buffer.argumentPieces, Token.chars]
  · simp [Buffer.resultPieces, Token.chars]

theorem spaced_parameterPieces (k : Kernel) : Spaced k.parameterPieces := by
  obtain ⟨symbol, arguments, result, body⟩ := k
  induction arguments with
  | nil => simp +decide [parameterPieces, Buffer.resultPieces, Spaced.nil]
  | cons b arguments ih =>
      simpa +decide [parameterPieces, Buffer.argumentPieces] using ih

theorem parameters?_pieces (k : Kernel) :
    parameters? k.parameterPieces.reduceOption = some (k.arguments, k.result) := by
  have split := splitOn_flatMap (.mark ',') (k.arguments.map fun b => b.argumentPieces.reduceOption)
    k.result.resultPieces.reduceOption (by simp [Buffer.argumentPieces]) (by simp [Buffer.resultPieces])
  have tokens : k.parameterPieces.reduceOption =
      (k.arguments.map fun b => b.argumentPieces.reduceOption).flatMap (· ++ [.mark ',']) ++
        k.result.resultPieces.reduceOption := by
    simp [parameterPieces, reduceOption_flatMap, List.flatMap_map, List.reduceOption_append]
  have each := mapM_map_eq_self k.arguments fun b _ => b.argument?_pieces
  rw [parameters?, tokens, split]
  simp [each, Buffer.result?_pieces]

end Kernel

def IsSymbol (s : String) : Prop := isModelName s = true ∧ s ≠ "ADCG_EXPORT"

/-- A definition up to the bracket that closes it, without the attribute that exports it. -/
def definitionTokens (head : List Token) (statements : List (List Token)) : List Token :=
  head ++ .mark '\x7b' :: statements.flatMap (· ++ [.mark ';'])

namespace Constant

def head (c : Constant) : List Token :=
  [.word c.type, .word c.symbol, .mark '(', .word "void", .mark ')']

def statements (c : Constant) : List (List Token) := [[.word "return", .natural c.value]]

def line (c : Constant) : List Piece :=
  [some (.word "ADCG_EXPORT"), none, some (.word c.type), none, some (.word c.symbol), some (.mark '('),
    some (.word "void"), some (.mark ')'), none, some (.mark '\x7b'), none, some (.word "return"), none,
    some (.natural c.value), some (.mark ';'), none, some (.mark '\x7d')]

structure Readable (c : Constant) : Prop where
  type : c.type = "size_t" ∨ c.type = "int"
  symbol : IsSymbol c.symbol

variable {c : Constant}

theorem spell_line (c : Constant) : c.text.toList = spell c.line ++ ['\n'] := by
  have shape : c.text = "ADCG_EXPORT " ++ c.type ++ " " ++ c.symbol ++ "(void) \x7b return " ++ toString c.value ++
      "; \x7d\n" := rfl
  simp [shape, line, Token.chars, Token.natural]

theorem spaced_line (readable : c.Readable) : Spaced c.line := by
  obtain ⟨type, symbol, -⟩ := readable
  rcases type with type | type <;> simp +decide [line, type, symbol, Spaced.nil]

theorem plain_head (readable : c.Readable) : Plain c.head := by
  obtain ⟨type, -, other⟩ := readable
  rcases type with type | type <;> simp +decide [Plain, head, type, Token.isPlain, other]

theorem plain_statements (c : Constant) : ∀ ts ∈ c.statements, Plain ts := by
  simp +decide [statements, Plain]

theorem assemble?_tokens (readable : c.Readable) :
    Definition.assemble? c.statements c.head = some (.constant c) := by
  obtain ⟨type, symbol, value⟩ := c
  have natural := natural?_toString value
  simp [-Nat.toString_eq_repr, Definition.assemble?, statements, head, Token.natural, natural, guard, readable.type]

end Constant

namespace Kernel

def head (k : Kernel) : List Token :=
  .word "void" :: .word k.symbol :: .mark '(' :: (k.parameterPieces.reduceOption ++ [.mark ')'])

def statements (k : Kernel) : List (List Token) := k.body.map fun s => s.pieces.reduceOption

def lines (k : Kernel) : List (List Piece) :=
  (some (.word "ADCG_EXPORT") :: none :: some (.word "void") :: none :: some (.word k.symbol) :: some (.mark '(') ::
    (k.parameterPieces ++ [some (.mark ')')])) ::
    [some (.mark '\x7b')] :: (k.body.map Statement.line ++ [[some (.mark '\x7d')], []])

structure Readable (k : Kernel) : Prop where
  symbol : IsSymbol k.symbol
  body : ∀ s ∈ k.body, s.Readable

variable {k : Kernel}

theorem spell_lines (k : Kernel) : k.text.toList = k.lines.flatMap fun l => spell l ++ ['\n'] := by
  have body : (String.join (k.body.map Statement.text)).toList =
      (k.body.map Statement.line).flatMap fun l => spell l ++ ['\n'] := by
    rw [String.toList_join, List.flatMap_map, List.flatMap_map]
    exact congrArg (List.flatMap · k.body) (funext Statement.spell_line)
  have shape : k.text = "ADCG_EXPORT void " ++ k.symbol ++ "(" ++ k.parameters ++ ")\n\x7b\n" ++
      String.join (k.body.map Statement.text) ++ "\x7d\n\n" := rfl
  rw [shape]
  simp only [String.toList_append, body]
  simp [lines, k.spell_parameterPieces, Token.chars]

theorem spaced_lines (readable : k.Readable) : ∀ l ∈ k.lines, Spaced l := by
  have parameters := k.spaced_parameterPieces.append_mark (c := ')') (by decide) (by decide)
  intro l member
  simp only [lines, List.mem_cons, List.mem_append, List.mem_map, List.not_mem_nil, or_false] at member
  rcases member with rfl | rfl | ⟨s, known, rfl⟩ | rfl | rfl
  · simp +decide [readable.symbol.1, parameters]
  · simp +decide [Spaced.nil]
  · exact Statement.spaced_line (readable.body s known)
  · simp +decide [Spaced.nil]
  · exact .nil

theorem reduceOption_lines (k : Kernel) : k.lines.flatMap List.reduceOption =
    .word "ADCG_EXPORT" :: (definitionTokens k.head k.statements ++ [.mark '\x7d']) := by
  have body (s : Statement) : s.line.reduceOption = s.pieces.reduceOption ++ [.mark ';'] := by
    simp [Statement.line, List.reduceOption_append]
  simp [lines, head, statements, definitionTokens, List.flatMap_map, body, List.reduceOption_append]

theorem plain_parameterPieces (k : Kernel) : Plain k.parameterPieces.reduceOption := by
  obtain ⟨symbol, arguments, result, body⟩ := k
  induction arguments with
  | nil => simp +decide [Plain, parameterPieces, Buffer.resultPieces]
  | cons b arguments ih =>
      simpa +decide [Plain, parameterPieces, Buffer.argumentPieces] using ih

theorem plain_head (readable : k.Readable) : Plain k.head := by
  have symbol : (Token.word k.symbol).isPlain = true := bne_iff_ne.mpr readable.symbol.2
  simpa +decide [Plain, head, symbol, or_imp, forall_and] using k.plain_parameterPieces

theorem plain_statements (k : Kernel) : ∀ ts ∈ k.statements, Plain ts := by
  intro ts member
  obtain ⟨s, -, rfl⟩ := List.mem_map.mp member
  exact s.plain_pieces

theorem assemble?_tokens (readable : k.Readable) :
    Definition.assemble? k.statements k.head = some (.kernel k) := by
  have body : k.statements.mapM Statement.read? = some k.body :=
    mapM_map_eq_self k.body fun s member => Statement.read?_pieces (readable.body s member)
  have first : k.parameterPieces.reduceOption.head? = some (.word "const") ∨
      k.parameterPieces.reduceOption.head? = some (.word "double") := by
    obtain ⟨symbol, arguments, result, body⟩ := k
    cases arguments with
    | nil => exact .inr rfl
    | cons b arguments => exact .inl rfl
  have other : k.parameterPieces.reduceOption ++ [.mark ')'] ≠ [.word "void"] ++ [.mark ')'] := by
    intro same
    rw [List.append_cancel_right same] at first
    simp at first
  rw [head, Definition.assemble?.eq_3 _ _ _ fun same => other same, List.reverse_append]
  simp [k.parameters?_pieces, body]

end Kernel

section Preprocessing

variable (predefined : List String)

def marking : List Token :=
  if predefined.contains "_WIN32" then
    [.word "__declspec", .mark '(', .word "dllexport", .mark ')']
  else
    [.word "__attribute__", .mark '(', .mark '(', .word "visibility", .mark '(', .quoted "default", .mark ')',
      .mark ')', .mark ')']

/-- The state after the directives of a source and some lines without directives. -/
def prepared (output : List Token) : Preprocessor :=
  { macros := [("ADCG_EXPORT", marking predefined)], headers := ["stddef.h", "math.h"], output }

def preambleLines : List (List Piece) :=
  [[some (.mark '#'), some (.word "include"), none, some (.operator "<"), some (.word "math"), some (.mark '.'),
      some (.word "h"), some (.operator ">")],
    [some (.mark '#'), some (.word "include"), none, some (.operator "<"), some (.word "stddef"), some (.mark '.'),
      some (.word "h"), some (.operator ">")],
    [],
    [some (.mark '#'), some (.word "if"), none, some (.word "defined"), some (.mark '('), some (.word "_WIN32"),
      some (.mark ')')],
    [some (.mark '#'), some (.word "define"), none, some (.word "ADCG_EXPORT"), none, some (.word "__declspec"),
      some (.mark '('), some (.word "dllexport"), some (.mark ')')],
    [some (.mark '#'), some (.word "else")],
    [some (.mark '#'), some (.word "define"), none, some (.word "ADCG_EXPORT"), none, some (.word "__attribute__"),
      some (.mark '('), some (.mark '('), some (.word "visibility"), some (.mark '('), some (.quoted "default"),
      some (.mark ')'), some (.mark ')'), some (.mark ')')],
    [some (.mark '#'), some (.word "endif")],
    []]

theorem spell_preambleLines : preamble.toList = preambleLines.flatMap fun l => spell l ++ ['\n'] := by
  decide +kernel

theorem spaced_preambleLines : ∀ l ∈ preambleLines, Spaced l := by
  have less : (Token.operator "<").Proper := .operator (c := '<') (by decide)
  have greater : (Token.operator ">").Proper := .operator (c := '>') (by decide)
  have plain : "default".toList.all (fun c => decide (c ≠ '"' ∧ c ≠ '\\' ∧ c ≠ '\n')) = true := by decide
  have quoted : (Token.quoted "default").Proper :=
    .quoted fun c member => of_decide_eq_true (List.all_eq_true.mp plain c member)
  simp +decide [preambleLines, Spaced.nil, less, greater, quoted]

theorem foldlM_preambleLines :
    (preambleLines.map List.reduceOption).foldlM (Preprocessor.line predefined) {} =
      some (prepared predefined []) := by
  by_cases known : "_WIN32" ∈ predefined <;>
    simp [preambleLines, prepared, marking, Preprocessor.line, Preprocessor.directive, Preprocessor.isActive,
      Preprocessor.expand, known]

theorem foldlM_line {ls : List (List Token)} (noDirective : ∀ l ∈ ls, .mark '#' ∉ l) (output : List Token) :
    ls.foldlM (Preprocessor.line predefined) (prepared predefined output) =
      some (prepared predefined (output ++ (prepared predefined []).expand ls.flatten)) := by
  induction ls generalizing output with
  | nil => simp [Preprocessor.expand]
  | cons l ls ih =>
      have step : Preprocessor.line predefined (prepared predefined output) l =
          some (prepared predefined (output ++ (prepared predefined []).expand l)) := by
        unfold Preprocessor.line
        split
        · next rest => exact absurd List.mem_cons_self (noDirective _ List.mem_cons_self)
        · rfl
      rw [List.foldlM_cons, step, Option.bind_eq_bind, Option.bind_some,
        ih fun m member => noDirective m (List.mem_cons_of_mem l member)]
      simp [Preprocessor.expand]

theorem expand_of_ne {ts : List Token} (other : ∀ t ∈ ts, t ≠ .word "ADCG_EXPORT") :
    (prepared predefined []).expand ts = ts := by
  have each (t : Token) (member : t ∈ ts) : (prepared predefined []).expand [t] = [t] := by
    cases t with
    | word name =>
        have different : (name == "ADCG_EXPORT") = false :=
          beq_false_of_ne fun same => other _ member (congrArg Token.word same)
        simp [Preprocessor.expand, prepared, List.lookup_cons, different]
    | _ => rfl
  induction ts with
  | nil => rfl
  | cons t ts ih =>
      have first := each t List.mem_cons_self
      have rest := ih (fun u member => other u (List.mem_cons_of_mem t member))
        fun u member => each u (List.mem_cons_of_mem t member)
      simp only [Preprocessor.expand, List.flatMap_cons, List.flatMap_nil, List.append_nil] at first rest ⊢
      rw [first, rest]
      rfl

theorem exported?_marking (ts : List Token) : exported? (marking predefined ++ ts) = some ts := by
  unfold marking
  split <;> rfl

end Preprocessing

section Definitions

variable {head : List Token} {statements : List (List Token)} (headPlain : Plain head)
  (plain : ∀ ts ∈ statements, Plain ts)

include headPlain plain

theorem isPlain_of_mem {t : Token} (member : t ∈ definitionTokens head statements) :
    t.isPlain = true ∨ t = .mark '\x7b' ∨ t = .mark ';' := by
  simp only [definitionTokens, List.mem_append, List.mem_cons, List.mem_flatMap, List.not_mem_nil, or_false] at member
  rcases member with member | rfl | ⟨ts, known, member | rfl⟩
  · exact .inl (headPlain t member)
  · exact .inr (.inl rfl)
  · exact .inl (plain ts known t member)
  · exact .inr (.inr rfl)

theorem expand_definition (predefined : List String) :
    (prepared predefined []).expand (.word "ADCG_EXPORT" :: (definitionTokens head statements ++ [.mark '\x7d'])) =
      marking predefined ++ definitionTokens head statements ++ [.mark '\x7d'] := by
  have rest : (prepared predefined []).expand (definitionTokens head statements ++ [.mark '\x7d']) =
      definitionTokens head statements ++ [.mark '\x7d'] := by
    apply expand_of_ne
    intro t member
    rcases List.mem_append.mp member with member | member
    · rcases isPlain_of_mem headPlain plain member with known | rfl | rfl
      · rintro rfl
        cases known
      · exact Token.noConfusion
      · exact Token.noConfusion
    · rw [List.mem_singleton.mp member]
      exact Token.noConfusion
  simp only [Preprocessor.expand, List.flatMap_cons] at rest ⊢
  rw [rest, List.append_assoc]
  rfl

theorem read?_definition (predefined : List String) :
    Definition.read? (marking predefined ++ definitionTokens head statements) =
      Definition.assemble? statements head := by
  have unmarked : Token.mark '\x7b' ∉ marking predefined := by
    unfold marking
    split <;> decide
  have outer := splitOn_flatMap (.mark '\x7b') [marking predefined ++ head]
    (statements.flatMap (· ++ [.mark ';'])) (by
      intro l member inside
      rw [List.mem_singleton.mp member] at inside
      rcases List.mem_append.mp inside with inside | inside
      · exact unmarked inside
      · cases headPlain _ inside) (by
      intro inside
      simp only [List.mem_flatMap, List.mem_append, List.mem_singleton] at inside
      obtain ⟨ts, known, inside | same⟩ := inside
      · cases plain ts known _ inside
      · exact absurd same (by decide))
  have inner := pieces?_flatMap ';' statements fun ts known inside => by
    cases plain ts known _ inside
  have tokens : marking predefined ++ definitionTokens head statements =
      [marking predefined ++ head].flatMap (· ++ [.mark '\x7b']) ++ statements.flatMap (· ++ [.mark ';']) := by
    simp [definitionTokens]
  rw [Definition.read?, tokens, outer]
  simp [inner, exported?_marking]

end Definitions

namespace Definition

def tokens : Definition → List Token
  | constant c => definitionTokens c.head c.statements
  | kernel k => definitionTokens k.head k.statements

def Readable : Definition → Prop
  | constant c => c.Readable
  | kernel k => k.Readable

def lines : Definition → List (List Piece)
  | constant c => [c.line]
  | kernel k => k.lines

variable {d : Definition} (readable : d.Readable)

include readable

theorem spaced_lines : ∀ l ∈ d.lines, Spaced l := by
  cases d with
  | constant c =>
      intro l member
      rw [List.mem_singleton.mp member]
      exact Constant.spaced_line readable
  | kernel k => exact Kernel.spaced_lines readable

theorem plain_parts : ∃ head statements, d.tokens = definitionTokens head statements ∧ Plain head ∧
    (∀ ts ∈ statements, Plain ts) ∧ assemble? statements head = some d := by
  cases d with
  | constant c =>
      exact ⟨c.head, c.statements, rfl, Constant.plain_head readable, c.plain_statements,
        Constant.assemble?_tokens readable⟩
  | kernel k =>
      exact ⟨k.head, k.statements, rfl, Kernel.plain_head readable, k.plain_statements,
        Kernel.assemble?_tokens readable⟩

omit readable in
theorem flatMap_lines (d : Definition) : d.lines.flatMap List.reduceOption =
    .word "ADCG_EXPORT" :: (d.tokens ++ [.mark '\x7d']) := by
  cases d with
  | constant c => rfl
  | kernel k => exact k.reduceOption_lines

theorem inner_lines {l : List Piece} (member : l ∈ d.lines) {t : Token} (inside : t ∈ l.reduceOption) :
    t.isComment = false ∧ t ≠ .mark '#' := by
  obtain ⟨head, statements, tokens, headPlain, plain, -⟩ := plain_parts readable
  have among : t ∈ d.lines.flatMap List.reduceOption := List.mem_flatMap.mpr ⟨l, member, inside⟩
  rw [flatMap_lines, tokens] at among
  rcases List.mem_cons.mp among with rfl | among
  · exact ⟨rfl, Token.noConfusion⟩
  rcases List.mem_append.mp among with among | among
  · rcases isPlain_of_mem headPlain plain among with known | rfl | rfl
    · cases t with
      | comment text => cases known
      | mark c =>
          refine ⟨rfl, ?_⟩
          rintro same
          obtain rfl := Token.mark.inj same
          cases known
      | _ => exact ⟨rfl, Token.noConfusion⟩
    · decide
    · decide
  · rw [List.mem_singleton.mp among]
    decide

theorem expand_lines (predefined : List String) :
    (prepared predefined []).expand (d.lines.flatMap List.reduceOption) =
      marking predefined ++ d.tokens ++ [.mark '\x7d'] := by
  obtain ⟨head, statements, tokens, headPlain, plain, -⟩ := plain_parts readable
  rw [flatMap_lines, tokens]
  exact expand_definition headPlain plain predefined

theorem closing_not_mem (predefined : List String) : .mark '\x7d' ∉ marking predefined ++ d.tokens := by
  obtain ⟨head, statements, tokens, headPlain, plain, -⟩ := plain_parts readable
  rw [tokens]
  intro member
  rcases List.mem_append.mp member with member | member
  · unfold marking at member
    split at member <;> revert member <;> decide
  · rcases isPlain_of_mem headPlain plain member with known | same | same
    · cases known
    · exact absurd same (by decide)
    · exact absurd same (by decide)

theorem read?_tokens (predefined : List String) : read? (marking predefined ++ d.tokens) = some d := by
  obtain ⟨head, statements, tokens, headPlain, plain, assembled⟩ := plain_parts readable
  rw [tokens, read?_definition headPlain plain, assembled]

end Definition

namespace TranslationUnit

def definitions (u : TranslationUnit) : List Definition :=
  u.constants.map .constant ++ u.kernels.map .kernel

def definitionLines (u : TranslationUnit) : List (List Piece) :=
  u.constants.map Constant.line ++ [] :: u.kernels.flatMap Kernel.lines

def lines (u : TranslationUnit) : List (List Piece) :=
  [some (.comment (" " ++ u.title ++ " "))] :: (preambleLines ++ u.definitionLines)

/-- Sources that can be read back. -/
structure Readable (u : TranslationUnit) : Prop where
  title : ∀ c ∈ u.title.toList, c ≠ '*' ∧ c ≠ '\n'
  constants : ∀ c ∈ u.constants, c.Readable
  kernels : ∀ k ∈ u.kernels, k.Readable

variable {u : TranslationUnit}

theorem spell_lines (u : TranslationUnit) : u.text.toList = u.lines.flatMap fun l => spell l ++ ['\n'] := by
  have constants : (String.join (u.constants.map Constant.text)).toList =
      (u.constants.map Constant.line).flatMap fun l => spell l ++ ['\n'] := by
    rw [String.toList_join, List.flatMap_map, List.flatMap_map]
    exact congrArg (List.flatMap · u.constants) (funext Constant.spell_line)
  have kernels : (String.join (u.kernels.map Kernel.text)).toList =
      (u.kernels.flatMap Kernel.lines).flatMap fun l => spell l ++ ['\n'] := by
    rw [String.toList_join, List.flatMap_map, List.flatMap_assoc]
    exact congrArg (List.flatMap · u.kernels) (funext Kernel.spell_lines)
  have shape : u.text = "/* " ++ u.title ++ " */\n" ++ preamble ++ String.join (u.constants.map Constant.text) ++
      "\n" ++ String.join (u.kernels.map Kernel.text) := rfl
  rw [shape]
  simp only [String.toList_append, constants, kernels, spell_preambleLines]
  simp [lines, definitionLines, Token.chars]

theorem Readable.definitions (readable : u.Readable) : ∀ d ∈ u.definitions, d.Readable := by
  intro d member
  simp only [TranslationUnit.definitions, List.mem_append, List.mem_map] at member
  rcases member with ⟨c, known, rfl⟩ | ⟨k, known, rfl⟩
  · exact readable.constants c known
  · exact readable.kernels k known

theorem mem_definitionLines {l : List Piece} (member : l ∈ u.definitionLines) :
    l = [] ∨ ∃ d ∈ u.definitions, l ∈ d.lines := by
  simp only [definitionLines, List.mem_append, List.mem_cons, List.mem_map, List.mem_flatMap] at member
  rcases member with ⟨c, known, rfl⟩ | rfl | ⟨k, known, member⟩
  · exact .inr ⟨.constant c, List.mem_append_left _ (List.mem_map_of_mem known), List.mem_singleton_self _⟩
  · exact .inl rfl
  · exact .inr ⟨.kernel k, List.mem_append_right _ (List.mem_map_of_mem known), member⟩

theorem spaced_lines (readable : u.Readable) : ∀ l ∈ u.lines, Spaced l := by
  intro l member
  simp only [lines, List.mem_cons, List.mem_append] at member
  rcases member with rfl | member | member
  · have title : (Token.comment (" " ++ u.title ++ " ")).Proper := by
      refine .comment fun c inside => ?_
      simp only [String.toList_append, List.mem_append] at inside
      rcases inside with (blank | inside) | blank
      · obtain rfl := List.mem_singleton.mp blank
        decide
      · exact readable.title c inside
      · obtain rfl := List.mem_singleton.mp blank
        decide
    simp [title, Spaced.nil]
  · exact spaced_preambleLines l member
  · rcases mem_definitionLines member with rfl | ⟨d, known, inside⟩
    · exact .nil
    · exact Definition.spaced_lines (readable.definitions d known) l inside

theorem mapM_lex (readable : u.Readable) :
    (u.text.toList.splitOn '\n').mapM lex = some (u.lines.map List.reduceOption ++ [[]]) := by
  have spaced := spaced_lines readable
  have split := splitOn_flatMap '\n' (u.lines.map spell) [] (by
    intro l member
    obtain ⟨m, known, rfl⟩ := List.mem_map.mp member
    exact (spaced m known).newline_not_mem) (by simp)
  rw [List.append_nil, List.flatMap_map] at split
  have each := mapM_map_eq_some (h := List.reduceOption) u.lines fun l member => (spaced l member).lex_spell
  have last : lex [] = some [] := by rw [lex]
  rw [u.spell_lines, split]
  simp [List.mapM_append, each, last]

theorem flatten_definitionLines (u : TranslationUnit) :
    (u.definitionLines.map List.reduceOption ++ [[]]).flatten =
      u.definitions.flatMap fun d => d.lines.flatMap List.reduceOption := by
  simp [definitionLines, definitions, List.flatMap_def, Definition.lines, List.map_flatten, List.flatten_flatten,
    Function.comp_def]

theorem withoutComments_definitionLines (readable : u.Readable) :
    (u.definitionLines.map List.reduceOption).map withoutComments = u.definitionLines.map List.reduceOption := by
  rw [List.map_map]
  apply List.map_congr_left
  intro l member
  apply List.filter_eq_self.mpr
  intro t inside
  rcases mem_definitionLines member with rfl | ⟨d, known, among⟩
  · cases inside
  · simp [(Definition.inner_lines (readable.definitions d known) among inside).1]

theorem preprocess_lines (predefined : List String) (readable : u.Readable) :
    preprocess predefined ((u.lines.map List.reduceOption ++ [[]]).map withoutComments) =
      some (prepared predefined
        (u.definitions.flatMap fun d => marking predefined ++ d.tokens ++ [.mark '\x7d'])) := by
  have preamble : (preambleLines.map List.reduceOption).map withoutComments =
      preambleLines.map List.reduceOption := by decide +kernel
  have noDirective : ∀ l ∈ u.definitionLines.map List.reduceOption ++ [[]], Token.mark '#' ∉ l := by
    intro l member inside
    rcases List.mem_append.mp member with member | member
    · obtain ⟨m, known, rfl⟩ := List.mem_map.mp member
      rcases mem_definitionLines known with rfl | ⟨d, among, within⟩
      · cases inside
      · exact (Definition.inner_lines (readable.definitions d among) within inside).2 rfl
    · rw [List.mem_singleton.mp member] at inside
      cases inside
  have expanded : (prepared predefined []).expand (u.definitions.flatMap fun d => d.lines.flatMap List.reduceOption) =
      u.definitions.flatMap fun d => marking predefined ++ d.tokens ++ [.mark '\x7d'] := by
    unfold Preprocessor.expand
    rw [List.flatMap_assoc, List.flatMap_def, List.flatMap_def]
    congr 1
    apply List.map_congr_left
    intro d member
    exact Definition.expand_lines (readable.definitions d member) predefined
  have lines : (u.lines.map List.reduceOption ++ [[]]).map withoutComments =
      [] :: (preambleLines.map List.reduceOption ++ (u.definitionLines.map List.reduceOption ++ [[]])) := by
    simp only [TranslationUnit.lines, List.map_cons, List.map_append, List.cons_append, List.append_assoc, preamble,
      withoutComments_definitionLines readable]
    rfl
  have output := foldlM_line predefined noDirective []
  rw [flatten_definitionLines, expanded, List.nil_append] at output
  have first : Preprocessor.line predefined {} [] = some {} := rfl
  have folded : ((u.lines.map List.reduceOption ++ [[]]).map withoutComments).foldlM
      (Preprocessor.line predefined) {} = some (prepared predefined
        (u.definitions.flatMap fun d => marking predefined ++ d.tokens ++ [.mark '\x7d'])) := by
    rw [lines, List.foldlM_cons, first, Option.bind_eq_bind, Option.bind_some, List.foldlM_append,
      foldlM_preambleLines, Option.bind_eq_bind, Option.bind_some, output]
  rw [preprocess, folded]
  rfl

/-- Sources that are written are read back. -/
theorem read?_text (predefined : List String) (readable : u.Readable) : read? predefined u.text = some u := by
  have lexed := mapM_lex readable
  have preprocessed := preprocess_lines predefined readable
  have pieces : pieces? '\x7d' (u.definitions.flatMap fun d => marking predefined ++ d.tokens ++ [.mark '\x7d']) =
      some (u.definitions.map fun d => marking predefined ++ d.tokens) := by
    rw [← pieces?_flatMap '\x7d' (u.definitions.map fun d => marking predefined ++ d.tokens), List.flatMap_map]
    intro l member
    obtain ⟨d, known, rfl⟩ := List.mem_map.mp member
    exact Definition.closing_not_mem (readable.definitions d known) predefined
  have each := mapM_map_eq_self u.definitions fun d member =>
    Definition.read?_tokens (readable.definitions d member) predefined
  have title : title? (u.lines.map List.reduceOption ++ [[]]) = some u.title := by
    simp [title?, lines]
  have constants : u.definitions.filterMap Definition.constant? = u.constants := by
    simp [definitions, Definition.constant?, Function.comp_def]
  have kernels : u.definitions.filterMap Definition.kernel? = u.kernels := by
    simp [definitions, Definition.kernel?, Function.comp_def]
  unfold read?
  rw [lexed, Option.bind_eq_bind, Option.bind_some, title, Option.bind_eq_bind, Option.bind_some, preprocessed]
  simp [-List.append_assoc, prepared, pieces, each, constants, kernels, guard]

end TranslationUnit

end AutoDiff.CSource
