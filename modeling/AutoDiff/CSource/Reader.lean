import AutoDiff.CSource.Basic
import AutoDiff.CSource.Token

/-!
The reading of C sources: lines are split into tokens, directives are carried out, and what is left is a list of
definitions of exported functions, either of constants or of kernels. What is not understood is not read.
-/

namespace AutoDiff.CSource

/-- The state of preprocessing. -/
structure Preprocessor where
  macros : List (String × List Token) := []
  headers : List String := []
  /-- Whether the open branches are taken, the innermost first. -/
  branches : List Bool := []
  output : List Token := []
  deriving DecidableEq, Repr

namespace Preprocessor

def isActive (p : Preprocessor) : Bool := p.branches.all id

def directive (predefined : List String) (p : Preprocessor) : List Token → Option Preprocessor
  | [.word "include", .operator "<", .word base, .mark '.', .word extension, .operator ">"] =>
    some (if p.isActive then { p with headers := (base ++ "." ++ extension) :: p.headers } else p)
  | .word "define" :: .word name :: body =>
    some (if p.isActive then { p with macros := (name, body) :: p.macros } else p)
  | [.word "if", .word "defined", .mark '(', .word name, .mark ')'] =>
    some { p with branches := (predefined.contains name || (p.macros.lookup name).isSome) :: p.branches }
  | [.word "else"] =>
    match p.branches with
    | taken :: outer => some { p with branches := (!taken) :: outer }
    | [] => none
  | [.word "endif"] =>
    match p.branches with
    | _ :: outer => some { p with branches := outer }
    | [] => none
  | _ => none

/-- Macros stand for tokens, which are not expanded again. -/
def expand (p : Preprocessor) (tokens : List Token) : List Token :=
  tokens.flatMap fun
    | .word name => (p.macros.lookup name).getD [.word name]
    | t => [t]

def line (predefined : List String) (p : Preprocessor) : List Token → Option Preprocessor
  | .mark '#' :: rest => p.directive predefined rest
  | tokens => some (if p.isActive then { p with output := p.output ++ p.expand tokens } else p)

end Preprocessor

def withoutComments (tokens : List Token) : List Token := tokens.filter fun t => !t.isComment

/-- Carries out directives. Some macros are known to be defined beforehand. -/
def preprocess (predefined : List String) (lines : List (List Token)) : Option Preprocessor := do
  let p ← lines.foldlM (Preprocessor.line predefined) {}
  guard p.branches.isEmpty
  return p

/-- A natural number without leading zeros, which would make it octal. -/
def natural? (cs : List Char) : Option Nat :=
  match Digit.run cs with
  | (digits, []) =>
    if Digit.ofNat (Digit.value digits) = digits then some (Digit.value digits) else none
  | _ => none

def numbered? (name : String) : Option Nat :=
  match name.toList with
  | 'v' :: digits => natural? digits
  | _ => none

def Buffer.read? : String → Option Buffer
  | "x" => some .x
  | "w" => some .w
  | "y" => some .y
  | "jac" => some .jac
  | "hess" => some .hess
  | _ => none

def Operator.read? : String → Option Operator
  | "+" => some .plus
  | "-" => some .minus
  | "*" => some .times
  | "/" => some .divided
  | _ => none

def MathFunction.read? : String → Option MathFunction
  | "sin" => some .sin
  | "cos" => some .cos
  | "tan" => some .tan
  | "exp" => some .exp
  | "log" => some .log
  | "sqrt" => some .sqrt
  | "tanh" => some .tanh
  | _ => none

/-- The constants that the mathematical header defines. -/
def Literal.named? (negative : Bool) : String → Option Literal
  | "NAN" => if negative then none else some .nan
  | "INFINITY" => some (.infinity negative)
  | _ => none

/-- A constant of type `double` has a point or an exponent. -/
def Literal.floating? (negative : Bool) (spelling : String) : Option Literal := do
  let n ← Numeral.parse? spelling.toList
  guard !(n.fraction.isEmpty && n.exponent.isNone)
  return .decimal { n with negative }

/-- A whole number as a constant of type `double`. -/
def wholeExponent? (negative : Bool) (spelling : String) : Option Int32 := do
  let n ← Numeral.parse? spelling.toList
  guard (!n.fraction.isEmpty && n.fraction.all (·.val == 0) && n.exponent.isNone)
  let value : Int := if negative then -Digit.value n.whole else Digit.value n.whole
  guard (Int32.minValue.toInt ≤ value ∧ value ≤ Int32.maxValue.toInt)
  return Int32.ofInt value

def Expr.read? : List Token → Option Expr
  | [.word buffer, .mark '[', .number index, .mark ']'] => do
    return .element (← Buffer.read? buffer) (← natural? index.toList)
  | [.word name] => .literal <$> Literal.named? false name
  | [.mark '(', .operator "-", .word name, .mark ')'] => .literal <$> Literal.named? true name
  | [.number spelling] => .literal <$> Literal.floating? false spelling
  | [.mark '(', .operator "-", .number spelling, .mark ')'] => .literal <$> Literal.floating? true spelling
  | [.operator "-", .word v] => .negation <$> numbered? v
  | [.word u, .operator op, .word v] => do
    return .operation (← Operator.read? op) (← numbered? u) (← numbered? v)
  | [.word f, .mark '(', .word v, .mark ')'] => do return .call (← MathFunction.read? f) (← numbered? v)
  | [.word "pow", .mark '(', .word u, .mark ',', .word v, .mark ')'] => do
    return .pow (← numbered? u) (← numbered? v)
  | [.word "pow", .mark '(', .word v, .mark ',', .number spelling, .mark ')'] => do
    return .wholePow (← numbered? v) (← wholeExponent? false spelling)
  | [.word "pow", .mark '(', .word v, .mark ',', .operator "-", .number spelling, .mark ')'] => do
    return .wholePow (← numbered? v) (← wholeExponent? true spelling)
  | _ => none

def Statement.read? : List Token → Option Statement
  | [.mark '(', .word "void", .mark ')', .word buffer] => .mention <$> Buffer.read? buffer
  | .word "const" :: .word "double" :: .word v :: .operator "=" :: value => do
    return .declare (← numbered? v) (← Expr.read? value)
  | [.word buffer, .mark '[', .number slot, .mark ']', .operator "=", .word v] => do
    return .store (← Buffer.read? buffer) (← natural? slot.toList) (← numbered? v)
  | _ => none

/-- Lists of tokens that each end with a mark. -/
def pieces? (stop : Char) (tokens : List Token) : Option (List (List Token)) :=
  match (tokens.splitOn (.mark stop)).reverse with
  | [] :: pieces => some pieces.reverse
  | _ => none

def argument? : List Token → Option Buffer
  | [.word "const", .word "double", .operator "*", .word buffer] => Buffer.read? buffer
  | _ => none

def result? : List Token → Option Buffer
  | [.word "double", .operator "*", .word buffer] => Buffer.read? buffer
  | _ => none

/-- The arguments of a kernel, and its result buffer, which comes last. -/
def parameters? (tokens : List Token) : Option (List Buffer × Buffer) :=
  match (tokens.splitOn (.mark ',')).reverse with
  | result :: arguments => do return (← arguments.reverse.mapM argument?, ← result? result)
  | [] => none

/-- What is exported has an attribute that says so. -/
def exported? : List Token → Option (List Token)
  | .word "__attribute__" :: .mark '(' :: .mark '(' :: .word "visibility" :: .mark '(' :: .quoted "default" ::
      .mark ')' :: .mark ')' :: .mark ')' :: rest => some rest
  | .word "__declspec" :: .mark '(' :: .word "dllexport" :: .mark ')' :: rest => some rest
  | _ => none

inductive Definition where
  | constant (c : Constant)
  | kernel (k : Kernel)
  deriving DecidableEq, Repr

namespace Definition

def constant? : Definition → Option Constant
  | constant c => some c
  | kernel _ => none

def kernel? : Definition → Option Kernel
  | constant _ => none
  | kernel k => some k

/-- A function from the head and the statements of its definition. -/
def assemble? (statements : List (List Token)) : List Token → Option Definition
  | [.word type, .word symbol, .mark '(', .word "void", .mark ')'] =>
    match statements with
    | [[.word "return", .number value]] => do
      guard (type = "size_t" ∨ type = "int")
      return constant ⟨type, symbol, ← natural? value.toList⟩
    | _ => none
  | .word "void" :: .word symbol :: .mark '(' :: rest =>
    match rest.reverse with
    | .mark ')' :: parameters => do
      let (arguments, result) ← parameters? parameters.reverse
      return kernel { symbol, arguments, result, body := ← statements.mapM Statement.read? }
    | _ => none
  | _ => none

/-- A definition up to the bracket that closes it. -/
def read? (tokens : List Token) : Option Definition :=
  match tokens.splitOn (.mark '\x7b') with
  | [head, body] => do assemble? (← pieces? ';' body) (← exported? head)
  | _ => none

end Definition

/-- The text of a comment without the blanks around it. -/
def title? : List (List Token) → Option String
  | [.comment text] :: _ =>
    match text.toList with
    | ' ' :: rest =>
      match rest.reverse with
      | ' ' :: title => some (String.ofList title.reverse)
      | _ => none
    | _ => none
  | _ => none

/-- Reads a source that starts with its title. -/
def TranslationUnit.read? (predefined : List String) (text : String) : Option TranslationUnit := do
  let lines ← (text.toList.splitOn '\n').mapM lex
  let title ← title? lines
  let p ← preprocess predefined (lines.map withoutComments)
  guard (p.headers.contains "math.h" && p.headers.contains "stddef.h")
  let definitions ← (← pieces? '\x7d' p.output).mapM Definition.read?
  return {
    title
    constants := definitions.filterMap Definition.constant?
    kernels := definitions.filterMap Definition.kernel? }

end AutoDiff.CSource
