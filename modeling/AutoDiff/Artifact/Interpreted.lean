import AutoDiff.Artifact.Basic
import AutoDiff.KernelSet.Basic

namespace AutoDiff.KernelSet

variable {α : Type} [Arithmetic α]

def fill (t : Trace α) (x w result : Array α) : Filled α :=
  (t.evaluateInto x w result).map fun r => r.mapError EvalError.trace

def artifact (k : KernelSet α) : Artifact α where
  inputSize := k.inputSize
  outputSize := k.outputSize
  order := k.order
  forward x y :=
    Artifact.guarded
      (do Artifact.checkBuffer "input" k.inputSize x.size
          Artifact.checkBuffer "output" k.outputSize y.size)
      (fill k.forward x #[] y)
  jacobian x result :=
    match k.jacobian with
    | none => some (.error (.derivativeUnavailable "jacobian" .first k.order))
    | some t =>
      Artifact.guarded
        (do Artifact.checkBuffer "input" k.inputSize x.size
            Artifact.checkBuffer "jacobian" (wordProduct k.outputSize k.inputSize) result.size)
        (fill t x #[] result)
  hessian x w result :=
    match k.hessian with
    | none => some (.error (.derivativeUnavailable "hessian" .second k.order))
    | some t =>
      Artifact.guarded
        (do Artifact.checkBuffer "input" k.inputSize x.size
            Artifact.checkBuffer "weight" k.outputSize w.size
            Artifact.checkBuffer "hessian" (wordProduct k.inputSize k.inputSize) result.size)
        (fill t x w result)

end AutoDiff.KernelSet
