import AutoDiff.CSource.Basic
import AutoDiff.KernelSet.Basic

namespace AutoDiff

open CSource

def CSource.Literal.ofBinary64 (x : Binary64) : Literal :=
  if x.isNaN then .nan
  else if x.isFinite then .decimal (x.numeral Binary64.constantLayout)
  else .infinity x.isNegative

def UnaryOp.toExpr (v : NodeId) : UnaryOp → CSource.Expr
  | neg => .negation v
  | sin => .call .sin v
  | cos => .call .cos v
  | tan => .call .tan v
  | exp => .call .exp v
  | ln => .call .log v
  | sqrt => .call .sqrt v
  | tanh => .call .tanh v

def BinaryOp.toExpr (u v : NodeId) : BinaryOp → CSource.Expr
  | add => .operation .plus u v
  | sub => .operation .minus u v
  | mul => .operation .times u v
  | div => .operation .divided u v
  | pow => .pow u v

def Node.toExpr : Node Binary64 → CSource.Expr
  | input index => .element .x index
  | weight index => .element .w index
  | const value => .literal (.ofBinary64 value)
  | unary op arg => op.toExpr arg
  | binary op lhs rhs => op.toExpr lhs rhs
  | power base exponent => .wholePow base exponent

/-- The buffers a kernel does not use are mentioned all the same. -/
def Trace.statements (t : Trace Binary64) (result : Buffer) : List Statement :=
  .mention .x :: (if 0 < t.weightCount then [.mention .w] else [])
    ++ t.nodes.toList.zipIdx.map (fun (node, id) => .declare id node.toExpr)
    ++ t.outputs.zipIdx.map (fun (id, slot) => .store result slot id)

namespace KernelSet

def kernelSource (name part : String) (arguments : List Buffer) (result : Buffer) (t : Trace Binary64) :
    CSource.Kernel :=
  { symbol := symbol name part, arguments, result, body := t.statements result }

def source (k : KernelSet Binary64) (name : String) : TranslationUnit where
  title := s!"{name}: generated by adcodegen, derivative order {k.order.name}"
  constants :=
    [⟨"size_t", symbol name "input_size", k.inputSize⟩,
     ⟨"size_t", symbol name "output_size", k.outputSize⟩,
     ⟨"int", symbol name "derivative_order", k.order.toNat⟩]
  kernels :=
    kernelSource name "forward_zero" [.x] .y k.forward
      :: (k.jacobian.map (kernelSource name "jacobian" [.x] .jac)).toList
      ++ (k.hessian.map (kernelSource name "hessian" [.x, .w] .hess)).toList

end KernelSet

end AutoDiff
