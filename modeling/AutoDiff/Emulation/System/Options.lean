import AutoDiff.Emulation.System.Machine

namespace AutoDiff

structure OptionTable where
  /-- The letters; a colon follows those that take a value. -/
  letters : String
  /-- The names, each with the letter that it stands for and whether it takes a value. -/
  names : List (String × Char × Bool) := []
  /-- The first argument that is no option ends the options. -/
  first : Bool := false

structure Options where
  given : List (Char × ByteText) := []
  operands : List ByteText := []
  /-- What is wrong with the option at which the reading ended. -/
  fault? : Option String := none

namespace Options

def has (o : Options) (letter : Char) : Bool := o.given.any (·.1 == letter)

/-- The last value given for a letter. -/
def value? (o : Options) (letter : Char) : Option ByteText :=
  (o.given.reverse.find? (·.1 == letter)).map (·.2)

def values (o : Options) (letter : Char) : List ByteText := (o.given.filter (·.1 == letter)).map (·.2)

def add (o : Options) (letter : Char) (value : ByteText) : Options := { o with given := o.given ++ [(letter, value)] }

def stop (o : Options) (fault : String) : Options := { o with fault? := some fault }

/-- Stands for the options that show something about the program, which does nothing else then. -/
def aboutLetter : Char := '\x01'

def isAbout (o : Options) : Bool := o.has aboutLetter

end Options

namespace OptionTable

/-- Whether a letter is there, and whether it takes a value. -/
def letter? (t : OptionTable) (letter : Char) : Option Bool :=
  if letter = ':' then none
  else
    let rec look : List Char → Option Bool
      | c :: ':' :: rest => if c = letter then some true else look rest
      | c :: rest => if c = letter then some false else look rest
      | [] => none
    look t.letters.toList

/-- Reads a group of letters; `next` is the argument after it. The result tells whether that was used. -/
def group (t : OptionTable) (o : Options) (next : Option ByteText) : List Char → Options × Bool
  | [] => (o, false)
  | c :: rest =>
    match t.letter? c with
    | none => (o.stop ("invalid option -- '" ++ c.toString ++ "'"), false)
    | some false => t.group (o.add c []) next rest
    | some true =>
      match rest, next with
      | [], none => (o.stop ("option requires an argument -- '" ++ c.toString ++ "'"), false)
      | [], some value => (o.add c value, true)
      | value, _ => (o.add c value, false)

/-- The names that a name abbreviates; itself if it is one. -/
def completions (t : OptionTable) (name : ByteText) : List (String × Char × Bool) :=
  let names := t.names ++ [("help", Options.aboutLetter, false), ("version", Options.aboutLetter, false)]
  match names.find? (·.1.toList == name) with
  | some exact => [exact]
  | none => names.filter (name.isPrefixOf ·.1.toList)

def quoted (text : String) : String := "'--" ++ text ++ "'"

/-- Reads a name, with a value after an equals sign. -/
def named (t : OptionTable) (o : Options) (next : Option ByteText) (argument : ByteText) : Options × Bool :=
  let name := argument.takeWhile (· ≠ '=')
  let value? := if name.length < argument.length then some (argument.drop (name.length + 1)) else none
  match t.completions name with
  | [] => (o.stop ("unrecognized option " ++ quoted argument.text), false)
  | [(full, letter, takes)] =>
    match takes, value?, next with
    | false, none, _ => (o.add letter [], false)
    | false, some _, _ => (o.stop ("option " ++ quoted full ++ " doesn't allow an argument"), false)
    | true, some value, _ => (o.add letter value, false)
    | true, none, some value => (o.add letter value, true)
    | true, none, none => (o.stop ("option " ++ quoted full ++ " requires an argument"), false)
  | several => (o.stop ("option " ++ quoted argument.text ++ " is ambiguous; possibilities: "
      ++ " ".intercalate (several.map (quoted ·.1))), false)

def parseFrom (t : OptionTable) : Options → List ByteText → Options
  | o, [] => o
  | o, argument :: rest =>
    if o.fault?.isSome || o.isAbout then o
    else
      match argument with
      | ['-', '-'] => { o with operands := o.operands ++ rest }
      | '-' :: '-' :: name =>
        match t.named o rest.head? name, rest with
        | (o, true), _ :: rest => t.parseFrom o rest
        | (o, _), rest => t.parseFrom o rest
      | '-' :: c :: letters =>
        match t.group o rest.head? (c :: letters), rest with
        | (o, true), _ :: rest => t.parseFrom o rest
        | (o, _), rest => t.parseFrom o rest
      | operand =>
        if t.first then { o with operands := o.operands ++ operand :: rest }
        else t.parseFrom { o with operands := o.operands ++ [operand] } rest

def parse (t : OptionTable) (arguments : List ByteText) : Options := t.parseFrom {} arguments

end OptionTable

namespace Call

/-- Points to the help after a wrong use. -/
def hint (c : Call) : Running Unit :=
  c.printError (.ofString "Try '" ++ c.name ++ .ofString " --help' for more information.\n")

/-- Ends a program that is used wrongly. -/
def misuse (c : Call) (code : Nat) (message : String) : Running Nat := do
  c.complainText message
  c.hint
  return code

/-- Refuses something, without the help. -/
def refuse (c : Call) (code : Nat) (message : String) : Running Nat := do
  c.complainText message
  return code

/-- Runs the body of a program on its options. `refusal?` looks at each option with its value as it is read. -/
def withChecked (c : Call) (t : OptionTable) (code : Nat) (refusal? : Char → ByteText → Option (Running Nat))
    (body : Options → Running Nat) : Running Nat :=
  let o := t.parse c.arguments
  match o.given.findSome? fun (letter, value) => refusal? letter value, o.fault? with
  | some refusal, _ => refusal
  | none, some message => c.misuse code message
  | none, none =>
    if o.isAbout then do
      c.mumbleTo 1
      return 0
    else body o

def withOptions (c : Call) (t : OptionTable) (code : Nat) (body : Options → Running Nat) : Running Nat :=
  c.withChecked t code (fun _ _ => none) body

end Call

end AutoDiff
