import AutoDiff.Trace.Evaluate

/-!
Loaded models: their sizes, their order, and kernels that fill flat buffers, row by row. Buffer lengths
are checked before a kernel runs. The outcome `none` is a fault of the kernel itself.
-/

namespace AutoDiff

inductive EvalError where
  | inputTooSmall (expected found : Nat)
  | inputTooLarge (expected found : Nat)
  | derivativeUnavailable (operation : String) (required compiled : Order)
  | outputDimOutOfRange (outputDim outputSize : Nat)
  | bufferLength (buffer : String) (expected found : Nat)
  | trace (e : TraceError)
  | shape (rows columns : Nat)
  deriving DecidableEq, Repr

namespace EvalError

def message : EvalError → String
  | inputTooSmall expected found =>
    s!"input has {found} values but the model expects {expected}; did you forget to pass the parameters?"
  | inputTooLarge expected found => s!"input has {found} values but the model expects {expected}"
  | derivativeUnavailable operation required compiled =>
    s!"{operation} is not available: the model must be compiled with derivative order {required.name} or higher, "
      ++ s!"but it was compiled with order {compiled.name}"
  | outputDimOutOfRange outputDim outputSize =>
    s!"output dimension {outputDim} is out of range for a model with {outputSize} outputs"
  | bufferLength buffer expected found => s!"{buffer} buffer has length {found}, expected {expected}"
  | trace e => "kernel evaluation failed: " ++ e.message
  | shape _ _ => "result shape: ShapeError/Overflow: arithmetic overflow"

/-- Whether the input had a wrong length. -/
def isShapeMismatch : EvalError → Bool
  | inputTooSmall .. | inputTooLarge .. => true
  | _ => false

end EvalError

/-- What filling a buffer comes to. -/
abbrev Filled (α : Type) := Option (Except EvalError (Array α))

structure Artifact (α : Type) where
  inputSize : Nat
  outputSize : Nat
  order : Order
  /-- The values at `x`, into `y`. -/
  forward : (x y : Array α) → Filled α
  jacobian : (x result : Array α) → Filled α
  /-- The second derivatives of the outputs' sum weighted by `w`. -/
  hessian : (x w result : Array α) → Filled α
  /-- The number of the open library that the kernels are in. -/
  handle : Option Nat := none

namespace Artifact

def capability {α : Type} (a : Artifact α) : Capability := .ofOrder a.order

def checkBuffer (buffer : String) (expected found : Nat) : Except EvalError Unit :=
  if expected = found then .ok () else .error (.bufferLength buffer expected found)

/-- Runs a kernel if the checks before it pass. -/
def guarded {α : Type} (checks : Except EvalError Unit) (kernel : Filled α) : Filled α :=
  match checks with
  | .error e => some (.error e)
  | .ok () => kernel

end Artifact

end AutoDiff
