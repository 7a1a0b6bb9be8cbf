import AutoDiff.Json.Decode
import AutoDiff.Json.Number
import AutoDiff.Trace.Basic

namespace AutoDiff

namespace Node

def toJson : Node Binary64 → Json
  | input index => .record [("input", .ofNat index)]
  | weight index => .record [("weight", .ofNat index)]
  | const value => .record [("const", .ofBinary64 value)]
  | unary op arg => .record [("unary", .record [("op", .ofString op.name), ("arg", .ofNat arg)])]
  | binary op lhs rhs =>
    .record [("binary", .record [("op", .ofString op.name), ("lhs", .ofNat lhs), ("rhs", .ofNat rhs)])]
  | power base exponent =>
    .record [("powi", .record [("base", .ofNat base), ("exp", .ofInt exponent.toInt)])]

def ofVariant? : String → Json → Option (Node Binary64)
  | "input", j => input <$> j.word?
  | "weight", j => weight <$> j.word?
  | "const", j => const <$> j.binary64?
  | "unary", j => do
    let [some op, some arg] ← j.fields? ["op", "arg"] | none
    return unary (← UnaryOp.ofName? (← op.constructor?)) (← arg.word?)
  | "binary", j => do
    let [some op, some lhs, some rhs] ← j.fields? ["op", "lhs", "rhs"] | none
    return binary (← BinaryOp.ofName? (← op.constructor?)) (← lhs.word?) (← rhs.word?)
  | "powi", j => do
    let [some base, some exponent] ← j.fields? ["base", "exp"] | none
    return power (← base.word?) (← exponent.int32?)
  | _, _ => none

def ofJson? (j : Json) : Option (Node Binary64) :=
  match j.variant? with
  | some (name, some content) => ofVariant? name content
  | _ => none

end Node

namespace Trace

def toJson (t : Trace Binary64) : Json :=
  .record [("nodes", .array (t.nodes.toList.map Node.toJson)), ("num_inputs", .ofNat t.inputCount),
    ("num_weights", .ofNat t.weightCount), ("outputs", .array (t.outputs.map .ofNat))]

def ofJson? (j : Json) : Option (Trace Binary64) := do
  let [some nodes, some inputs, some weights, some outputs] ←
    j.fields? ["nodes", "num_inputs", "num_weights", "outputs"] | none
  return { nodes := (← (← nodes.array?).mapM Node.ofJson?).toArray
           inputCount := ← inputs.word?
           weightCount := ← weights.word?
           outputs := ← (← outputs.array?).mapM Json.word? }

end Trace

end AutoDiff
