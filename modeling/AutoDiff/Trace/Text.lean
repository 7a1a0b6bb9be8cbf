import AutoDiff.Binary64.Shortest
import AutoDiff.Trace.Basic

namespace AutoDiff

namespace Binary64

/-- Constants have the fewest digits that read back, positionally from `0.0001` to below `1e16`, and at
least one digit after the point. A half goes away from zero. -/
def constantLayout : Layout := ⟨-4, 15, .away⟩

def constantText (x : Binary64) : String :=
  if x.isFinite then (x.numeral constantLayout).text false
  else if x.isNaN then "NaN"
  else if x.isNegative then "-inf" else "inf"

end Binary64

/-- The text of a node, given that of a constant. -/
def Node.text {α : Type} (constantText : α → String) : Node α → String
  | .input index => s!"input[{index}]"
  | .weight index => s!"weight[{index}]"
  | .const value => "const " ++ constantText value
  | .unary op arg => s!"{op.name} %{arg}"
  | .binary op lhs rhs => s!"{op.name} %{lhs}, %{rhs}"
  | .power base exponent => s!"powi %{base}, {exponent.toInt}"

def Trace.text (t : Trace Binary64) : String :=
  let header := s!"trace inputs={t.inputCount} weights={t.weightCount} nodes={t.size}\n"
  let nodes := t.nodes.toList.zipIdx.map fun (node, id) =>
    s!"  %{id} = " ++ node.text Binary64.constantText ++ "\n"
  let outputs := t.outputs.zipIdx.map fun (id, position) => s!"  out[{position}] = %{id}\n"
  header ++ String.join nodes ++ String.join outputs

end AutoDiff
