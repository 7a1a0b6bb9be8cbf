import AutoDiff.Artifact.Load
import AutoDiff.CommandLine.Options
import AutoDiff.CompiledModel

namespace AutoDiff

/-- The wording of an error followed by that of its cause; a missing symbol has a cause without fixed
wording. -/
def LoadError.chain? : LoadError → Option String
  | .missingSymbol .. => none
  | .kernels e => (LoadError.kernels e).message?.map fun text => s!"{text}: {e.message}"
  | .read path e => (LoadError.read path e).message?.map fun text => s!"{text}: {e.message}"
  | e => e.message?

def EvalError.chain : EvalError → String
  | .trace e => s!"{(EvalError.trace e).message}: {e.message}"
  | e => e.message

namespace CommandLine

inductive Outcome where
  | success (text : String)
  /-- An error, if it has a fixed wording. -/
  | failure (message? : Option String)
  | usage
  | fault
  deriving DecidableEq, Repr

namespace Outcome

def code : Outcome → Nat
  | success _ => 0
  | failure _ => 1
  | usage => 2
  | fault => 101

def output : Outcome → String
  | success text => text ++ "\n"
  | _ => ""

def error? : Outcome → Option String
  | failure message? => message?.map fun text => "error[adcg]: " ++ text ++ "\n"
  | _ => none

end Outcome

def vectorJson (l : List Binary64) : Json := .array (l.map Json.ofBinary64)

def matrixJson (m : Matrix Binary64) : Json := .array (m.toLists.map vectorJson)

/-- Without parameters the input alone is the point. -/
def answer (name : String) (m : CompiledModel Binary64) : Query → CompiledModel.Evaluation Json
  | .info =>
    return .record [("input_size", .ofNat m.inputSize), ("name", .ofString name), ("order", m.order.toJson),
      ("output_size", .ofNat m.outputSize)]
  | .values x p => do
    let y ← if p.isEmpty then m.evaluate x.toArray else m.evaluateWith x.toArray p.toArray
    return .record [("output", vectorJson y.toList)]
  | .jacobian x p => do
    let j ← if p.isEmpty then m.jacobian x.toArray else m.jacobianWith x.toArray p.toArray
    return .record [("jacobian", matrixJson j)]
  | .hessian x p outputDim => do
    let h ← if p.isEmpty then m.hessian x.toArray outputDim else m.hessianWith x.toArray p.toArray outputDim
    return .record [("hessian", matrixJson h), ("output_dim", .ofNat outputDim)]

def load (i : Invocation) : Job LoadError (Artifact Binary64) :=
  let generic := Artifact.generic i.name i.directory
  if i.interpreted then Artifact.openInterpreted i.name generic else Artifact.openNative i.name generic

def loadFailure (i : Invocation) (e : LoadError) : Outcome :=
  .failure (e.chain?.map fun text => s!"failed to load model '{i.name}' from {i.directory.text}: {text}")

/-- Runs an invocation, with no library open. -/
def Invocation.run (i : Invocation) (h : Host) : Outcome :=
  match ((load i).run.run { h with libraries := {} }).1 with
  | .error e => loadFailure i e
  | .ok a =>
    match (answer i.name ⟨a⟩ i.query).run with
    | none => .fault
    | some (.error e) => .failure (some e.chain)
    | some (.ok j) => .success j.pretty

def run (arguments : List String) (h : Host) : Outcome :=
  match parse? arguments with
  | none => .usage
  | some i => i.run h

end CommandLine

end AutoDiff
