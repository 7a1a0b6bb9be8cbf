import AutoDiff.Order

namespace AutoDiff

inductive TraceError where
  | emptyInput
  | emptyOutput
  | useBeforeDefinition (node operand : Nat)
  | inputOutOfRange (node index inputCount : Nat)
  | weightOutOfRange (node index weightCount : Nat)
  | duplicateInput (index first second : Nat)
  | undefinedOutput (position node : Nat)
  | kernelOutputs (kernel : String) (expected found : Nat)
  | kernelInputs (kernel : String) (expected found : Nat)
  | kernelPresence (kernel : String) (order : Order)
  | argumentLength (what : String) (expected found : Nat)
  deriving DecidableEq, Repr

def TraceError.message : TraceError → String
  | emptyInput => "model input is empty; at least one input is required"
  | emptyOutput => "model function returned no outputs"
  | useBeforeDefinition node operand =>
    s!"node %{node} uses %{operand}, which is not defined before it"
  | inputOutOfRange node index inputCount =>
    s!"node %{node} reads input {index}, but the trace has {inputCount} inputs"
  | weightOutOfRange node index weightCount =>
    s!"node %{node} reads weight {index}, but the trace has {weightCount} weights"
  | duplicateInput index first second =>
    s!"input {index} is defined twice (%{first} and %{second})"
  | undefinedOutput position node => s!"output {position} refers to undefined node %{node}"
  | kernelOutputs kernel expected found =>
    s!"{kernel} kernel has {found} outputs, expected {expected}"
  | kernelInputs kernel expected found =>
    s!"{kernel} kernel reads {found} inputs, expected {expected}"
  | kernelPresence kernel order =>
    s!"{kernel} kernel presence does not match derivative order {order.name}"
  | argumentLength what expected found => s!"{what} has length {found}, expected {expected}"

end AutoDiff
