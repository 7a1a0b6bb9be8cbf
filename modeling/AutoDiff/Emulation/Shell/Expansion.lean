import AutoDiff.Emulation.Shell.Arithmetic
import AutoDiff.Emulation.Shell.Pattern
import AutoDiff.Emulation.Shell.State

/-!
What words stand for: parameters, substitutions and expressions are replaced, what came from them outside of
quotes is split into fields, and fields with patterns become the names of files.
-/

namespace AutoDiff.Shell

/-- Runs the body of a substitution and gives what it writes. -/
abbrev Substitution := Option Command → Acting ByteText

namespace State

/-- The letters of the options that are set, in a fixed order. -/
def optionText (s : State) : ByteText := "efIimnsxvVECabu".toList.filter s.has

def parameter? (s : State) (name : ByteText) : Option ByteText :=
  match name with
  | ['#'] => some (toString s.arguments.length).toList
  | ['?'] => some (toString s.status).toList
  | ['$'] => some (toString processNumber).toList
  | ['-'] => some s.optionText
  | ['!'] => none
  | ['@'] | ['*'] => if s.arguments.isEmpty then none else some (ByteText.joinWith [' '] s.arguments)
  | _ =>
    if name.all Char.isDigit then
      match name.foldl (fun n c => 10 * n + (c.toNat - '0'.toNat)) 0 with
      | 0 => some s.name
      | n + 1 => s.arguments[n]?
    else s.value? name

end State

namespace Expansion

def glyphs (quoted : Bool) (t : ByteText) : Glyphs := t.map (.char quoted (!quoted))

def between (separator : Glyphs) (parts : List Glyphs) : Glyphs := (parts.intersperse separator).flatten

/-- All arguments of the script. -/
def allArguments (s : State) (quoted star : Bool) : Glyphs :=
  if quoted && star then glyphs true (ByteText.joinWith (s.separators.take 1) s.arguments)
  else between [.cut] (s.arguments.map fun a => (if quoted then [.mark] else []) ++ glyphs quoted a)

/-- The directory of a user. -/
def home? (s : State) (user : ByteText) : Option ByteText :=
  if user.isEmpty then s.value? "HOME".toList
  else if user = "root".toList then some "/root".toList
  else none

/-- Replaces a tilde at the start, and after colons in an assignment. -/
def tilde (s : State) (assignment : Bool) : (start : Bool) → Word → Word
  | _, [] => []
  | true, .char false '~' :: rest =>
    let user := rest.takeWhile fun
      | .char false c => c ≠ '/' ∧ !(assignment ∧ c = ':')
      | _ => false
    let ended : Bool := match rest.drop user.length with
      | [] | .char false _ :: _ => true
      | _ => false
    match ended, home? s (unquoted user) with
    | true, some path => path.map (.char true) ++ tilde s assignment false (rest.drop user.length)
    | _, _ => .char false '~' :: tilde s assignment false rest
  | _, .char false c :: rest => .char false c :: tilde s assignment (assignment && c = ':') rest
  | _, p :: rest => p :: tilde s assignment false rest
termination_by _ w => w.length
decreasing_by all_goals (simp only [List.length_cons, List.length_drop]; omega)

def unset {α : Type} (name : ByteText) : Acting α := Acting.fault (name ++ .ofString ": parameter not set")

/-- The value of a parameter that has to be set if the script asks for that. -/
def required (name : ByteText) : Acting ByteText := do
  let s ← get
  match s.parameter? name with
  | some value => return value
  | none => if s.has 'u' ∧ name ≠ ['@'] ∧ name ≠ ['*'] then unset name else return []

def calculate (text : ByteText) : Acting Int := do
  let s ← get
  match Arithmetic.evaluate s.value? text with
  | .ok (n, assigned) =>
    for (name, value) in assigned.reverse do Acting.assign name (toString value).toList
    return n
  | .error (.expression message) =>
    Acting.fault (.ofString ("arithmetic expression: " ++ message ++ ": \"") ++ text ++ ['"'])
  | .error (.illegalNumber text) => Acting.fault (.ofString "Illegal number: " ++ text)

mutual

/-- A word with its parts replaced. Letters of the word itself separate fields only where the word stands for
a parameter. -/
def word (substitute : Substitution) : Nat → (splits : Bool) → Word → Acting Glyphs
  | 0, _, _ => return []
  | fuel + 1, splits, w => return (← w.mapM (part substitute fuel splits)).flatten

def part (substitute : Substitution) : Nat → (splits : Bool) → Part → Acting Glyphs
  | 0, _, _ => return []
  | fuel + 1, splits, p => do
    match p with
    | .char quoted c => return [.char quoted (splits && !quoted) c]
    | .quotes => return [.mark]
    | .command quoted body =>
      let output ← substitute body
      return glyphs quoted ((output.filter (· ≠ '\x00')).reverse.dropWhile (· = '\n')).reverse
    | .arithmetic quoted expression =>
      let text := Glyphs.text (← word substitute fuel false expression)
      return glyphs quoted (toString (← calculate text)).toList
    | .parameter quoted name use => parameter substitute fuel quoted name use

def parameter (substitute : Substitution) : Nat → (quoted : Bool) → ByteText → Use → Acting Glyphs
  | 0, _, _, _ => return []
  | fuel + 1, quoted, name, use => do
    let s ← get
    let present (empty : Bool) : Bool :=
      match s.parameter? name with
      | none => false
      | some value => !(empty && value.isEmpty)
    let value : Acting Glyphs :=
      if name = ['@'] ∨ name = ['*'] then return allArguments s quoted (name = ['*'])
      else return glyphs quoted (← required name)
    match use with
    | .value => value
    | .length => return glyphs quoted (toString (← required name).length).toList
    | .default empty w => if present empty then value else word substitute fuel (!quoted) w
    | .alternative empty w => if present empty then word substitute fuel (!quoted) w else return []
    | .assign empty w =>
      if present empty then value
      else
        if !isName name then Acting.fault (name ++ .ofString ": bad variable name")
        let text := Glyphs.text (← word substitute fuel false w)
        Acting.assign name text
        return glyphs quoted text
    | .demand empty w =>
      if present empty then value
      else
        let message := Glyphs.text (← word substitute fuel false w)
        let message := if message.isEmpty then .ofString ("parameter not set" ++ (if empty then " or null" else ""))
          else message
        Acting.fault (name ++ [':', ' '] ++ message)
    | .trim front greedy w =>
      let value ← required name
      let pattern ← word substitute fuel false w
      return glyphs quoted ((Pattern.make pattern).trim front greedy value)
    | .unknown => Acting.faultText "Bad substitution"

end

def depth : Nat := 1000

/-- A word as one text. -/
def text (substitute : Substitution) (assignment : Bool) (w : Word) : Acting ByteText := do
  let s ← get
  return Glyphs.text (← word substitute depth false (tilde s assignment true w))

/-- A word as a pattern. -/
def pattern (substitute : Substitution) (w : Word) : Acting Pattern := do
  let s ← get
  return Pattern.make (← word substitute depth false (tilde s false true w))

/-! Fields -/

/-- The fields that are complete, the last one first, the one that is being built, and whether blanks have
just ended one. -/
structure Fields where
  complete : List Glyphs := []
  current : Option Glyphs := none
  afterBlank : Bool := false

namespace Fields

def add (f : Fields) (g : Glyph) : Fields := { f with current := some (g :: f.current.getD []), afterBlank := false }

def close (f : Fields) (afterBlank : Bool) : Fields :=
  match f.current with
  | some field => ⟨field.reverse :: f.complete, none, afterBlank⟩
  | none => f

def separate (f : Fields) (separators : ByteText) (g : Glyph) : Fields :=
  match g with
  | .cut => f.close false
  | .char false true c =>
    if separators.contains c then
      if c = ' ' ∨ c = '\t' ∨ c = '\n' then f.close true
      else match f.current with
        | some _ => f.close false
        | none => if f.afterBlank then { f with afterBlank := false } else { f with complete := [] :: f.complete }
    else f.add g
  | g => f.add g

end Fields

def split (separators : ByteText) (gs : Glyphs) : List Glyphs :=
  ((gs.foldl (fun f g => f.separate separators g) ({} : Fields)).close false).complete.reverse

def hasNoArguments (s : State) (w : Word) : Bool :=
  s.arguments.isEmpty && w.any fun | .parameter true ['@'] .value => true | _ => false

/-- The fields that a word stands for. -/
def fields (substitute : Substitution) (w : Word) : Acting (List ByteText) := do
  let before ← get
  let gs ← word substitute depth false (tilde before false true w)
  let gs := if hasNoArguments before w then gs.filter (· ≠ .mark) else gs
  let s ← get
  let found := split s.separators gs
  return if s.has 'f' then found.map Glyphs.text
    else found.flatMap (Pattern.glob s.machine.disk s.directory)

end Expansion

end AutoDiff.Shell
