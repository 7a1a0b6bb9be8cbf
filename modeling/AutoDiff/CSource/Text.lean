import AutoDiff.CSource.Basic

namespace AutoDiff.CSource

/-- A literal with a sign stands in parentheses. -/
def Literal.text : Literal → String
  | nan => "NAN"
  | infinity negative => if negative then "(-INFINITY)" else "INFINITY"
  | decimal n => if n.negative then "(" ++ n.text false ++ ")" else n.text false

def Buffer.name : Buffer → String
  | x => "x" | w => "w" | y => "y" | jac => "jac" | hess => "hess"

def Operator.name : Operator → String
  | plus => "+" | minus => "-" | times => "*" | divided => "/"

def MathFunction.name : MathFunction → String
  | sin => "sin" | cos => "cos" | tan => "tan" | exp => "exp"
  | log => "log" | sqrt => "sqrt" | tanh => "tanh"

def Expr.text : Expr → String
  | element buffer index => s!"{buffer.name}[{index}]"
  | literal value => value.text
  | negation v => s!"-v{v}"
  | call f v => s!"{f.name}(v{v})"
  | operation op u v => s!"v{u} {op.name} v{v}"
  | pow u v => s!"pow(v{u}, v{v})"
  | wholePow v exponent => s!"pow(v{v}, {exponent.toInt}.0)"

def Statement.text : Statement → String
  | mention buffer => s!"    (void){buffer.name};\n"
  | declare v value => s!"    const double v{v} = {value.text};\n"
  | store buffer slot v => s!"    {buffer.name}[{slot}] = v{v};\n"

def Kernel.parameters (k : Kernel) : String :=
  ", ".intercalate (k.arguments.map ("const double *" ++ ·.name) ++ ["double *" ++ k.result.name])

def Kernel.text (k : Kernel) : String :=
  "ADCG_EXPORT void " ++ k.symbol ++ "(" ++ k.parameters ++ ")\n\x7b\n"
    ++ String.join (k.body.map Statement.text) ++ "\x7d\n\n"

def Constant.text (c : Constant) : String :=
  "ADCG_EXPORT " ++ c.type ++ " " ++ c.symbol ++ "(void) \x7b return " ++ toString c.value ++ "; \x7d\n"

def preamble : String :=
  "#include <math.h>\n#include <stddef.h>\n\n#if defined(_WIN32)\n"
    ++ "#define ADCG_EXPORT __declspec(dllexport)\n#else\n"
    ++ "#define ADCG_EXPORT __attribute__((visibility(\"default\")))\n#endif\n\n"

def TranslationUnit.text (u : TranslationUnit) : String :=
  "/* " ++ u.title ++ " */\n" ++ preamble ++ String.join (u.constants.map Constant.text) ++ "\n"
    ++ String.join (u.kernels.map Kernel.text)

end AutoDiff.CSource
