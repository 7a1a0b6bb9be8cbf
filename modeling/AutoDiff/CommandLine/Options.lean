import AutoDiff.Numeral
import AutoDiff.Path

namespace AutoDiff.CommandLine

structure OptionKind where
  name : String
  takesValue : Bool := false
  /-- Whether a value may start with a hyphen. -/
  hyphens : Bool := false
  repeatable : Bool := false
  deriving DecidableEq, Repr

/-- An option as it was given; one without a value has an empty one. -/
structure Given where
  name : String
  value : String
  deriving DecidableEq, Repr

/-- The name of an option, and the value that is attached to it. -/
def long? (argument : String) : Option (String × Option String) :=
  match argument.toList with
  | '-' :: '-' :: rest =>
    let name := rest.takeWhile (· ≠ '=')
    match rest.drop name.length with
    | [] => some (String.ofList name, none)
    | _ :: value => some (String.ofList name, some (String.ofList value))
  | _ => none

/-- A hyphen alone is a value like any other. -/
def isValue (argument : String) : Bool := argument == "-" || argument.toList.head? != some '-'

/-- The options in the order given. Two hyphens alone end them, and nothing may follow. -/
def collect (kinds : List OptionKind) : List String → Option (List Given)
  | [] => some []
  | argument :: rest =>
    if argument = "--" then if rest.isEmpty then some [] else none
    else match long? argument with
      | none => none
      | some (name, attached) =>
        match kinds.find? (·.name == name) with
        | none => none
        | some kind =>
          match kind.takesValue, attached, rest with
          | false, none, rest => (⟨name, ""⟩ :: ·) <$> collect kinds rest
          | false, some _, _ => none
          | true, some value, rest => (⟨name, value⟩ :: ·) <$> collect kinds rest
          | true, none, value :: rest =>
            if kind.hyphens || isValue value then (⟨name, value⟩ :: ·) <$> collect kinds rest else none
          | true, none, [] => none

def valuesOf (given : List Given) (name : String) : List String :=
  given.filterMap fun g => if g.name = name then some g.value else none

/-- The options that may be given once are not given more often. -/
def respectsCounts (kinds : List OptionKind) (given : List Given) : Bool :=
  kinds.all fun kind => kind.repeatable || (valuesOf given kind.name).length ≤ 1

def options? (kinds : List OptionKind) (arguments : List String) : Option (List Given) := do
  let given ← collect kinds arguments
  guard (respectsCounts kinds given)
  return given

/-- What is asked of a model. -/
inductive Query where
  | info
  | values (x p : List Binary64)
  | jacobian (x p : List Binary64)
  | hessian (x p : List Binary64) (outputDim : Nat)
  deriving DecidableEq, Repr

structure Invocation where
  verbose : Bool
  name : String
  directory : Path
  interpreted : Bool
  query : Query
  deriving DecidableEq, Repr

def verbose : OptionKind := { name := "verbose" }

def modelOptions : List OptionKind :=
  [verbose, { name := "name", takesValue := true }, { name := "dir", takesValue := true },
    { name := "interpreted" }]

def pointOptions : List OptionKind :=
  modelOptions ++
    [{ name := "input", takesValue := true, hyphens := true, repeatable := true },
      { name := "params", takesValue := true, hyphens := true, repeatable := true }]

def hessianOptions : List OptionKind := pointOptions ++ [{ name := "output-dim", takesValue := true }]

/-- Numbers separated by commas, all options of one name taken together. -/
def numbers? (given : List Given) (name : String) : Option (List Binary64) :=
  ((valuesOf given name).flatMap fun text => (text.toList.splitOn ',').map String.ofList).mapM Binary64.parse?

/-- The point of evaluation. Without an input there is none. -/
def point? (given : List Given) : Option (List Binary64 × List Binary64) := do
  guard !(valuesOf given "input").isEmpty
  return (← numbers? given "input", ← numbers? given "params")

/-- A natural number below 2⁶⁴, which may have a plus sign. -/
def word? (text : String) : Option Nat := do
  let digits := match text.toList with
    | '+' :: rest => rest
    | cs => cs
  let (ds, rest) := Digit.run digits
  guard (!ds.isEmpty && rest.isEmpty && Digit.value ds < UInt64.size)
  return Digit.value ds

def outputDim? (given : List Given) : Option Nat :=
  match valuesOf given "output-dim" with
  | [] => some 0
  | text :: _ => word? text

def invocation? (verbose : Bool) (given : List Given) (query : Query) : Option Invocation := do
  let name ← (valuesOf given "name").head?
  let directory ← (valuesOf given "dir").head?
  guard !directory.isEmpty
  return { verbose := verbose || !(valuesOf given "verbose").isEmpty
           name, directory := ⟨directory⟩
           interpreted := !(valuesOf given "interpreted").isEmpty, query }

def command? (verbose : Bool) (command : String) (arguments : List String) : Option Invocation := do
  match command with
  | "info" => invocation? verbose (← options? modelOptions arguments) .info
  | "eval" =>
    let given ← options? pointOptions arguments
    let (x, p) ← point? given
    invocation? verbose given (.values x p)
  | "jacobian" =>
    let given ← options? pointOptions arguments
    let (x, p) ← point? given
    invocation? verbose given (.jacobian x p)
  | "hessian" =>
    let given ← options? hessianOptions arguments
    let (x, p) ← point? given
    invocation? verbose given (.hessian x p (← outputDim? given))
  | _ => none

/-- A command line; an option that concerns all commands may also come first. -/
def parse? : List String → Option Invocation
  | "--verbose" :: command :: arguments => command? true command arguments
  | command :: arguments => command? false command arguments
  | [] => none

end AutoDiff.CommandLine
