import AutoDiff.KernelSet.Basic
import AutoDiff.Trace.Json

namespace AutoDiff

namespace Order

def toJson (order : Order) : Json := .ofString order.name

def ofJson? (j : Json) : Option Order := do ofName? (← j.constructor?)

end Order

namespace KernelSet

def optionalTrace : Option (Trace Binary64) → Json
  | some t => t.toJson
  | none => .null

def toJson (k : KernelSet Binary64) : Json :=
  .record [("input_size", .ofNat k.inputSize), ("parameter_size", .ofNat k.parameterSize),
    ("output_size", .ofNat k.outputSize), ("order", k.order.toJson), ("forward", k.forward.toJson),
    ("jacobian", optionalTrace k.jacobian), ("hessian", optionalTrace k.hessian)]

def ofJson? (j : Json) : Option (KernelSet Binary64) := do
  let [some inputSize, some parameterSize, some outputSize, some order, some forward, jacobian, hessian] ←
    j.fields? ["input_size", "parameter_size", "output_size", "order", "forward", "jacobian", "hessian"]
    | none
  return { inputSize := ← inputSize.word?
           parameterSize := ← parameterSize.word?
           outputSize := ← outputSize.word?
           order := ← Order.ofJson? order
           forward := ← Trace.ofJson? forward
           jacobian := ← Json.optional? Trace.ofJson? jacobian
           hessian := ← Json.optional? Trace.ofJson? hessian }

def parse? (text : String) : Option (KernelSet Binary64) := do ofJson? (← Json.parse? text)

end KernelSet

end AutoDiff
