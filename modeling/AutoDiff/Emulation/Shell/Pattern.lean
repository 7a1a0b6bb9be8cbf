import AutoDiff.Disk
import AutoDiff.Emulation.System.RegularExpression

namespace AutoDiff.Shell

/-- A character after expansion. Quotes take away the meaning it has in patterns; `splits` tells whether it
may separate fields. -/
inductive Glyph where
  | char (quoted splits : Bool) (c : Char)
  /-- Something was quoted here. -/
  | mark
  /-- A field ends here. -/
  | cut
  deriving DecidableEq, Repr

abbrev Glyphs := List Glyph

def Glyphs.text : Glyphs → ByteText
  | [] => []
  | .char _ _ c :: rest => c :: Glyphs.text rest
  | .mark :: rest => Glyphs.text rest
  | .cut :: rest => ' ' :: Glyphs.text rest

inductive PatternItem where
  | char (c : Char)
  | one
  | any
  | set (negated : Bool) (ranges : List (Char × Char))
  deriving DecidableEq, Repr

abbrev Pattern := List PatternItem

namespace Pattern

/-- The characters of a set up to its closing bracket, which the first one cannot be. -/
def ranges : Nat → (first : Bool) → Glyphs → Option (List (Char × Char) × Glyphs)
  | 0, _, _ => none
  | fuel + 1, first, gs =>
    match gs with
    | [] => none
    | .mark :: rest => ranges fuel first rest
    | .cut :: _ => none
    | .char false _ ']' :: rest =>
      if first then (ranges fuel false rest).map fun (others, rest) => ((']', ']') :: others, rest)
      else some ([], rest)
    | .char false _ '[' :: .char false _ ':' :: rest =>
      let name := Glyphs.text (rest.takeWhile fun | .char _ _ c => c.isAlpha | _ => false)
      match rest.drop name.length, RegularExpression.classes.lookup (String.ofList name) with
      | .char _ _ ':' :: .char _ _ ']' :: rest, some found =>
        (ranges fuel false rest).map fun (others, rest) => (found ++ others, rest)
      | _, _ => none
    | .char _ _ a :: .char false _ '-' :: .char quoted splits b :: rest =>
      if b = ']' ∧ !quoted then
        (ranges fuel false (.char quoted splits b :: rest)).map fun (others, rest) => ((a, a) :: ('-', '-') :: others, rest)
      else (ranges fuel false rest).map fun (others, rest) => ((a, b) :: others, rest)
    | .char _ _ a :: rest => (ranges fuel false rest).map fun (others, rest) => ((a, a) :: others, rest)

/-- A set after its opening bracket. -/
def set? (gs : Glyphs) : Option (PatternItem × Glyphs) :=
  match gs with
  | .char false _ c :: rest =>
    if c = '!' ∨ c = '^' then (ranges (gs.length + 1) true rest).map fun (rs, rest) => (.set true rs, rest)
    else (ranges (gs.length + 1) true gs).map fun (rs, rest) => (.set false rs, rest)
  | _ => (ranges (gs.length + 1) true gs).map fun (rs, rest) => (.set false rs, rest)

def ofGlyphs : Nat → Glyphs → Pattern
  | 0, _ => []
  | fuel + 1, gs =>
    match gs with
    | [] => []
    | .mark :: rest => ofGlyphs fuel rest
    | .cut :: rest => .char ' ' :: ofGlyphs fuel rest
    | .char true _ c :: rest => .char c :: ofGlyphs fuel rest
    | .char false _ '*' :: rest => .any :: ofGlyphs fuel rest
    | .char false _ '?' :: rest => .one :: ofGlyphs fuel rest
    | .char false _ '\\' :: .char _ _ c :: rest => .char c :: ofGlyphs fuel rest
    | .char false _ '[' :: rest =>
      match set? rest with
      | some (item, rest) => item :: ofGlyphs fuel rest
      | none => .char '[' :: ofGlyphs fuel rest
    | .char false _ c :: rest => .char c :: ofGlyphs fuel rest

def make (gs : Glyphs) : Pattern := ofGlyphs (gs.length + 1) gs

def matchesText : Pattern → ByteText → Bool
  | [], cs => cs.isEmpty
  | .char p :: ps, c :: cs => p == c && matchesText ps cs
  | .one :: ps, _ :: cs => matchesText ps cs
  | .set negated ranges :: ps, c :: cs => (RegularExpression.inSet c ranges != negated) && matchesText ps cs
  | .any :: ps, [] => matchesText ps []
  | .any :: ps, c :: cs => matchesText ps (c :: cs) || matchesText (.any :: ps) cs
  | _ :: _, [] => false
termination_by ps cs => ps.length + cs.length

/-- A text without its beginning, or its end, that matches. -/
def trim (p : Pattern) (front greedy : Bool) (t : ByteText) : ByteText :=
  let lengths := if greedy then (List.range (t.length + 1)).reverse else List.range (t.length + 1)
  let removed (n : Nat) : ByteText := if front then t.take n else t.drop (t.length - n)
  match lengths.find? fun n => p.matchesText (removed n) with
  | some n => if front then t.drop n else t.take (t.length - n)
  | none => t

def isPlain (p : Pattern) : Bool := p.all fun | .char _ => true | _ => false

/-- Whether a file has a name that matches; one that starts with a dot has to be asked for. -/
def matchesName (p : Pattern) (name : ByteText) : Bool :=
  p.matchesText name && (name.head? != some '.' || p.head? == some (.char '.'))

def splitSlashes : Glyphs → List Glyphs
  | [] => [[]]
  | g :: gs =>
    let rest := splitSlashes gs
    match g with
    | .char _ _ '/' => [] :: rest
    | g =>
      match rest with
      | first :: others => (g :: first) :: others
      | [] => [[g]]

/-- The paths that match, part by part, from the paths that were found before. -/
def paths (d : Disk) (directory : Location) : List Glyphs → (found : List ByteText) → List ByteText
  | [], found => found
  | part :: parts, found =>
    let p := make part
    let last := parts.isEmpty
    let next := found.flatMap fun before =>
      let base : ByteText := if before.isEmpty then ['.'] else before
      if p.isPlain then
        let path := before ++ Glyphs.text part
        if last then (if (d.find directory ⟨path.text⟩).isOk then [path] else []) else [path ++ ['/']]
      else match d.list directory ⟨base.text⟩ with
        | .error _ => []
        | .ok names =>
          ((names.map ByteText.ofString).filter p.matchesName).filterMap fun name =>
            let path := before ++ name
            if last then some path
            else if d.isDirectory directory ⟨path.text⟩ then some (path ++ ['/']) else none
    paths d directory parts next

/-- The paths that a field stands for; itself if there are none. -/
def glob (d : Disk) (directory : Location) (field : Glyphs) : List ByteText :=
  if (make field).isPlain then [Glyphs.text field]
  else
    match paths d directory (splitSlashes field) [[]] with
    | [] => [Glyphs.text field]
    | found => ByteText.sort found

end Pattern

end AutoDiff.Shell
