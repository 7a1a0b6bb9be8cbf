import AutoDiff.Recording
import AutoDiff.Trace.Verify

namespace AutoDiff

structure Model (α : Type) where
  input : List α
  parameters : List α := []
  /-- Whether the steps see the parameters; they count as independent variables either way. -/
  parameterized : Bool := false
  body : List (Step α)
  outputs : List Nat
  deriving Repr

namespace Model

variable {α : Type} [Arithmetic α]

/-- Runs the model at its example point and returns the variables it gives as outputs. -/
def run (m : Model α) : Recorder α (List (Variable α)) := do
  Recorder.step (.independent .main (m.input ++ m.parameters))
  unless m.parameterized do
    modify fun r => { r with recorded := r.recorded.extract 0 m.input.length }
  m.body.forM Recorder.step
  m.outputs.mapM Recorder.lookup

/-- The recorded trace, verified. It fails outright when the recording does. -/
def recorded (m : Model α) : Except RecordingFault (Except TraceError (Trace α)) :=
  if m.input.isEmpty then .ok (.error .emptyInput)
  else do
    let (outputs, r) ← m.run.run {}
    if outputs.isEmpty then return .error .emptyOutput
    let t := { r.main with outputs := outputs.map Variable.id }
    return t.verify.map fun _ => t

end Model

end AutoDiff
