import AutoDiff.CSource.Basic

/-!
The meaning of kernels in C. A kernel has none if it reads a variable that is not declared before,
declares one twice, or goes outside of a buffer.
-/

namespace AutoDiff.CSource

/-- What whole exponents mean. -/
abbrev PowerRule := Binary64 → Int32 → Binary64

/-- The exponent is converted to `double`. -/
def powerRule : PowerRule := fun x n => Arithmetic.binary .pow x (Arithmetic.ofInt n.toInt)

def Literal.value : Literal → Binary64
  | nan => .nan
  | infinity negative => Binary64.infinity.negIf negative
  | decimal n => n.nearest

def Operator.op : Operator → BinaryOp
  | plus => .add | minus => .sub | times => .mul | divided => .div

def MathFunction.op : MathFunction → UnaryOp
  | sin => .sin | cos => .cos | tan => .tan | exp => .exp | log => .ln | sqrt => .sqrt | tanh => .tanh

/-- The buffers of a call and the variables declared so far. -/
structure Frame where
  x : Array Binary64
  w : Array Binary64
  result : Array Binary64
  values : List (Nat × Binary64) := []
  deriving DecidableEq, Repr

namespace Frame

def get? (f : Frame) (v : Nat) : Option Binary64 := f.values.lookup v

def element (f : Frame) : Buffer → Nat → Option Binary64
  | .x, index => f.x[index]?
  | .w, index => f.w[index]?
  | _, _ => none

end Frame

def Expr.value? (rule : PowerRule) (f : Frame) : Expr → Option Binary64
  | element buffer index => f.element buffer index
  | literal value => some value.value
  | negation v => (Arithmetic.unary .neg ·) <$> f.get? v
  | call g v => (Arithmetic.unary g.op ·) <$> f.get? v
  | operation op u v => do return Arithmetic.binary op.op (← f.get? u) (← f.get? v)
  | pow u v => do return Arithmetic.binary .pow (← f.get? u) (← f.get? v)
  | wholePow v exponent => (rule · exponent) <$> f.get? v

/-- Runs a statement of a kernel whose result goes to `result`. -/
def Statement.run? (rule : PowerRule) (result : Buffer) (f : Frame) : Statement → Option Frame
  | mention _ => some f
  | declare v value =>
    if (f.get? v).isSome then none
    else (value.value? rule f).map fun value => { f with values := (v, value) :: f.values }
  | store buffer slot v =>
    if buffer = result ∧ slot < f.result.size then
      (f.get? v).map fun value => { f with result := f.result.setIfInBounds slot value }
    else none

/-- The result buffer after a call. -/
def Kernel.run? (rule : PowerRule) (k : Kernel) (x w result : Array Binary64) : Option (Array Binary64) :=
  (k.body.foldlM (Statement.run? rule k.result) { x, w, result }).map (·.result)

end AutoDiff.CSource
