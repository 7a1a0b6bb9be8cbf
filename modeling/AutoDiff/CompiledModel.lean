import AutoDiff.Artifact.Basic
import AutoDiff.KernelSet.Basic
import AutoDiff.Matrix

/-!
Evaluation of loaded models. Parameters are the last values of the input. A derivative call checks the
order first, then the length of the input, then everything else.
-/

namespace AutoDiff

structure CompiledModel (α : Type) where
  artifact : Artifact α

namespace CompiledModel

variable {α : Type}

def inputSize (m : CompiledModel α) : Nat := m.artifact.inputSize
def outputSize (m : CompiledModel α) : Nat := m.artifact.outputSize
def order (m : CompiledModel α) : Order := m.artifact.order
def capability (m : CompiledModel α) : Capability := m.artifact.capability

/-- A short description, which leaves the kernels out. -/
def debugText (m : CompiledModel α) : String :=
  let order := match m.order with
    | .zeroth => "Zero"
    | .first => "First"
    | .second => "Second"
  "CompiledModel \x7b input_size: " ++ toString m.inputSize ++ ", output_size: " ++ toString m.outputSize
    ++ ", order: " ++ order ++ ", .. \x7d"

def require (m : CompiledModel α) (required : Order) (operation : String) : Except EvalError Unit :=
  if required ≤ m.order then .ok () else .error (.derivativeUnavailable operation required m.order)

def checkInputSize (m : CompiledModel α) (found : Nat) : Except EvalError Unit :=
  if found < m.inputSize then .error (.inputTooSmall m.inputSize found)
  else if m.inputSize < found then .error (.inputTooLarge m.inputSize found)
  else .ok ()

/-- The greatest number of entries of a matrix. -/
def entryLimit : Nat := UInt64.size / 2 - 1

/-- Entries as a matrix. The sizes that are not zero must have a product within the limit. -/
def shape (rows columns : Nat) (entries : Array α) : Except EvalError (Matrix α) :=
  if max rows 1 * max columns 1 ≤ entryLimit then .ok ⟨rows, columns, entries⟩
  else .error (.shape rows columns)

/-- A calculation that may report an error or fail outright. -/
abbrev Evaluation (β : Type) := ExceptT EvalError Option β

/-- Carries out a check within an evaluation. -/
def check {β : Type} (e : Except EvalError β) : Evaluation β := .mk (some e)

/-- One for the chosen output and zero for all others. -/
def oneHot [Arithmetic α] (size chosen : Nat) : Array α :=
  (Array.replicate size (Arithmetic.ofInt 0)).setIfInBounds chosen (Arithmetic.ofInt 1)

variable [Arithmetic α]

def zeros (size : Nat) : Array α := Array.replicate size (Arithmetic.ofInt 0)

def evaluate (m : CompiledModel α) (x : Array α) : Evaluation (Array α) := do
  check (m.checkInputSize x.size)
  .mk (m.artifact.forward x (zeros m.outputSize))

def evaluateWith (m : CompiledModel α) (x p : Array α) : Evaluation (Array α) := do
  check (m.checkInputSize (x.size + p.size))
  .mk (m.artifact.forward (x ++ p) (zeros m.outputSize))

def fullJacobian (m : CompiledModel α) (x : Array α) : Evaluation (Matrix α) := do
  let entries ← .mk (m.artifact.jacobian x (zeros (wordProduct m.outputSize m.inputSize)))
  check (shape m.outputSize m.inputSize entries)

def jacobian (m : CompiledModel α) (x : Array α) : Evaluation (Matrix α) := do
  check (m.require .first "jacobian")
  check (m.checkInputSize x.size)
  m.fullJacobian x

/-- The derivatives with respect to `x` only. -/
def jacobianWith (m : CompiledModel α) (x p : Array α) : Evaluation (Matrix α) := do
  check (m.require .first "jacobian")
  check (m.checkInputSize (x.size + p.size))
  let full ← m.fullJacobian (x ++ p)
  return full.block full.rows x.size

def fullHessian (m : CompiledModel α) (x : Array α) (outputDim : Nat) : Evaluation (Matrix α) := do
  check (if m.outputSize ≤ outputDim then .error (.outputDimOutOfRange outputDim m.outputSize) else .ok ())
  let entries ← .mk (m.artifact.hessian x (oneHot m.outputSize outputDim)
    (zeros (wordProduct m.inputSize m.inputSize)))
  check (shape m.inputSize m.inputSize entries)

/-- The second derivatives of one output. -/
def hessian (m : CompiledModel α) (x : Array α) (outputDim : Nat) : Evaluation (Matrix α) := do
  check (m.require .second "hessian")
  check (m.checkInputSize x.size)
  m.fullHessian x outputDim

/-- The second derivatives of one output with respect to `x` only. -/
def hessianWith (m : CompiledModel α) (x p : Array α) (outputDim : Nat) : Evaluation (Matrix α) := do
  check (m.require .second "hessian")
  check (m.checkInputSize (x.size + p.size))
  let full ← m.fullHessian (x ++ p) outputDim
  return full.block x.size x.size

end CompiledModel

end AutoDiff
