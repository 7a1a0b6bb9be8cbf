import AutoDiff.Artifact.Basic
import AutoDiff.Artifact.Path
import AutoDiff.CSource.Evaluate
import AutoDiff.KernelSet.Basic

namespace AutoDiff.CSource

inductive BindError where
  | missingSymbol (symbol : String)
  | unknownOrder (order : Nat)
  | noDimensions (inputSize outputSize : Nat)
  deriving DecidableEq, Repr

namespace TranslationUnit

def bindConstant (u : TranslationUnit) (symbol : String) : Except BindError Nat :=
  match u.constant? symbol with
  | some n => .ok n
  | none => .error (.missingSymbol symbol)

def bindKernel (u : TranslationUnit) (symbol : String) : Except BindError Kernel :=
  match u.kernel? symbol with
  | some k => .ok k
  | none => .error (.missingSymbol symbol)

def bindWanted (u : TranslationUnit) (wanted : Bool) (symbol : String) : Except BindError (Option Kernel) :=
  if wanted then some <$> u.bindKernel symbol else .ok none

def fill (rule : PowerRule) (k : Kernel) (x w result : Array Binary64) : Filled Binary64 :=
  (k.run? rule x w result).map .ok

/-- The artifact of the model `name` in a library built from `u`. -/
def bind (rule : PowerRule) (u : TranslationUnit) (name : String) : Except BindError (Artifact Binary64) := do
  let inputSize ← u.bindConstant (KernelSet.symbol name "input_size")
  let outputSize ← u.bindConstant (KernelSet.symbol name "output_size")
  let number ← u.bindConstant (KernelSet.symbol name "derivative_order")
  let order ← match Order.ofNat? number with
    | some order => pure order
    | none => throw (.unknownOrder number)
  if inputSize = 0 ∨ outputSize = 0 then throw (.noDimensions inputSize outputSize)
  let forward ← u.bindKernel (KernelSet.symbol name "forward_zero")
  let jacobian ← u.bindWanted order.includesJacobian (KernelSet.symbol name "jacobian")
  let hessian ← u.bindWanted order.includesHessian (KernelSet.symbol name "hessian")
  return {
    inputSize, outputSize, order
    forward := fun x y =>
      Artifact.guarded
        (do Artifact.checkBuffer "input" inputSize x.size
            Artifact.checkBuffer "output" outputSize y.size)
        (fill rule forward x #[] y)
    jacobian := fun x result =>
      match jacobian with
      | none => some (.error (.derivativeUnavailable "jacobian" .first order))
      | some k =>
        Artifact.guarded
          (do Artifact.checkBuffer "input" inputSize x.size
              Artifact.checkBuffer "jacobian" (wordProduct outputSize inputSize) result.size)
          (fill rule k x #[] result)
    hessian := fun x w result =>
      match hessian with
      | none => some (.error (.derivativeUnavailable "hessian" .second order))
      | some k =>
        Artifact.guarded
          (do Artifact.checkBuffer "input" inputSize x.size
              Artifact.checkBuffer "weight" outputSize w.size
              Artifact.checkBuffer "hessian" (wordProduct inputSize inputSize) result.size)
          (fill rule k x w result) }

end TranslationUnit

end AutoDiff.CSource
