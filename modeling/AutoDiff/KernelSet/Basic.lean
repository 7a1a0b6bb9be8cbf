import AutoDiff.Model
import AutoDiff.Trace.Gradient
import AutoDiff.Trace.Optimize

namespace AutoDiff

/-- The combined input has `inputSize` values, of which the last `parameterSize` are parameters. -/
structure KernelSet (α : Type) where
  inputSize : Nat
  parameterSize : Nat
  outputSize : Nat
  order : Order
  forward : Trace α
  jacobian : Option (Trace α)
  hessian : Option (Trace α)
  deriving DecidableEq, Repr

/-- Sizes are 64-bit words, and so are their products. -/
def wordProduct (m n : Nat) : Nat := m * n % UInt64.size

namespace KernelSet

/-- The name of a part of a model in its library. -/
def symbol (name part : String) : String := name ++ "_" ++ part

variable {α : Type}

def checkKernel (kernel : String) (t : Trace α) (inputs weights outputs : Nat) :
    Except TraceError Unit := do
  t.verify
  if t.inputCount ≠ inputs then throw (.kernelInputs kernel inputs t.inputCount)
  if t.weightCount ≠ weights then throw (.argumentLength "kernel weights" weights t.weightCount)
  if t.outputs.length ≠ outputs then throw (.kernelOutputs kernel outputs t.outputs.length)

/-- A derivative kernel is there exactly when the order asks for it. -/
def checkDerivative (kernel : String) (t? : Option (Trace α)) (expected : Bool) (order : Order)
    (inputs weights outputs : Nat) : Except TraceError Unit :=
  match t?, expected with
  | some t, true => checkKernel kernel t inputs weights outputs
  | none, false => .ok ()
  | _, _ => .error (.kernelPresence kernel order)

def validate (k : KernelSet α) : Except TraceError Unit := do
  checkKernel "forward" k.forward k.inputSize 0 k.outputSize
  checkDerivative "jacobian" k.jacobian k.order.includesJacobian k.order
    k.inputSize 0 (wordProduct k.outputSize k.inputSize)
  checkDerivative "hessian" k.hessian k.order.includesHessian k.order
    k.inputSize k.outputSize (wordProduct k.inputSize k.inputSize)

variable [Arithmetic α] [DecidableEq α]

/-- `some none` when the kernel is not asked for. -/
def derivative (wanted : Bool) (kernel : Option (Trace α)) : Option (Option (Trace α)) :=
  if wanted then some <$> kernel else some none

/-- The kernels of a recorded trace; derivatives are taken of the optimized forward kernel. -/
def synthesize (inputSize parameterSize : Nat) (order : Order) (recorded : Trace α) :
    Option (KernelSet α) := do
  let forward ← recorded.optimize
  let jacobian ← derivative order.includesJacobian (forward.jacobian.bind Trace.optimize)
  let hessian ← derivative order.includesHessian (forward.hessian.bind Trace.optimize)
  return { inputSize, parameterSize, outputSize := forward.outputs.length, order, forward, jacobian, hessian }

end KernelSet

/-- Records a model and synthesizes the kernels that `order` asks for. Their combined input is that of the
example point, so that they do not pass the check if the steps declare inputs of their own. `none` is a
fault. -/
def Model.kernels {α : Type} [Arithmetic α] [DecidableEq α] (m : Model α) (order : Order) :
    Option (Except TraceError (KernelSet α)) :=
  match m.recorded with
  | .error _ => none
  | .ok (.error e) => some (.error e)
  | .ok (.ok recorded) => do
    let kernels ← KernelSet.synthesize (m.input.length + m.parameters.length) m.parameters.length order recorded
    return kernels.validate.map fun _ => kernels

end AutoDiff
