import AutoDiff.Text.ByteText

/-!
Regular expressions in their basic and their extended writing. Of all matches from a place the longest one
counts.
-/

namespace AutoDiff

inductive RegularExpression where
  | char (c : Char)
  | any
  | set (negated : Bool) (ranges : List (Char × Char))
  | start
  | finish
  | group (number : Nat) (body : RegularExpression)
  | sequence (parts : List RegularExpression)
  | alternatives (parts : List RegularExpression)
  | repeated (body : RegularExpression) (least : Nat) (most : Option Nat)
  | again (number : Nat)

namespace RegularExpression

/-- The text that is left, and what groups have matched. -/
structure Point where
  rest : ByteText
  groups : List (Nat × ByteText) := []

def inSet (c : Char) (ranges : List (Char × Char)) : Bool := ranges.any fun (a, b) => a ≤ c && c ≤ b

/-- The points that a match from a point can end at, in a text of `total` characters. -/
def ends (fold : Char → Char) (total : Nat) : Nat → RegularExpression → Point → List Point
  | 0, _, _ => []
  | fuel + 1, e, p =>
    match e, p.rest with
    | char c, d :: rest => if fold c = fold d then [{ p with rest }] else []
    | any, _ :: rest => [{ p with rest }]
    | set negated ranges, d :: rest =>
      if (inSet d ranges || inSet (fold d) ranges) != negated then [{ p with rest }] else []
    | start, rest => if rest.length = total then [p] else []
    | finish, rest => if rest.isEmpty then [p] else []
    | group number body, rest =>
      (ends fold total fuel body p).map fun q =>
        { q with groups := (number, rest.take (rest.length - q.rest.length)) :: q.groups }
    | sequence parts, _ => parts.foldl (fun points part => points.flatMap (ends fold total fuel part)) [p]
    | alternatives parts, _ => parts.flatMap fun part => ends fold total fuel part p
    | repeated body least most, rest =>
      let further := if most = some 0 then []
        else ((ends fold total fuel body p).filter fun q => q.rest.length < rest.length ∨ 0 < least).flatMap
          (ends fold total fuel (repeated body (least - 1) (most.map (· - 1))))
      if least = 0 then further ++ [p] else further
    | again number, rest =>
      let text := (p.groups.lookup number).getD []
      if text.isPrefixOf rest then [{ p with rest := rest.drop text.length }] else []
    | _, [] => []

def longest : List Point → Option Point
  | [] => none
  | p :: ps => some (ps.foldl (fun best q => if q.rest.length < best.rest.length then q else best) p)

structure Match where
  before : ByteText
  matched : ByteText
  after : ByteText
  groups : List (Nat × ByteText)

/-- The first match in a text, of which `before` (in reverse) was passed over already. -/
def search (e : RegularExpression) (fold : Char → Char) (total : Nat) : (before rest : ByteText) → Option Match
  | before, rest =>
    match longest (ends fold total (8 * total + 64) e ⟨rest, []⟩) with
    | some p => some ⟨before.reverse, rest.take (rest.length - p.rest.length), p.rest, p.groups⟩
    | none =>
      match rest with
      | [] => none
      | c :: rest => search e fold total (c :: before) rest
termination_by _ rest => rest.length

def find? (e : RegularExpression) (fold : Char → Char) (text : ByteText) : Option Match := e.search fold text.length [] text

/-! Reading -/

def classes : List (String × List (Char × Char)) :=
  [("alpha", [('a', 'z'), ('A', 'Z')]), ("digit", [('0', '9')]), ("alnum", [('a', 'z'), ('A', 'Z'), ('0', '9')]),
    ("upper", [('A', 'Z')]), ("lower", [('a', 'z')]), ("space", [(' ', ' '), ('\t', '\r')]),
    ("blank", [(' ', ' '), ('\t', '\t')]), ("xdigit", [('0', '9'), ('a', 'f'), ('A', 'F')]),
    ("punct", [('!', '/'), (':', '@'), ('[', Char.ofNat 0x60), ('\x7b', '~')]), ("print", [(' ', '~')]),
    ("graph", [('!', '~')]), ("cntrl", [('\x00', '\x1f'), ('\x7f', '\x7f')])]

/-- The characters of a set up to its closing bracket, which the first character cannot be. -/
def setRanges : Nat → (first : Bool) → ByteText → Option (List (Char × Char) × ByteText)
  | 0, _, _ => none
  | fuel + 1, first, cs =>
    match cs with
    | [] => none
    | '[' :: ':' :: rest =>
      let name := rest.takeWhile (· ≠ ':')
      match rest.drop name.length, classes.lookup (String.ofList name) with
      | ':' :: ']' :: rest, some ranges => do
        let (others, rest) ← setRanges fuel false rest
        return (ranges ++ others, rest)
      | _, _ => none
    | ']' :: rest =>
      if first then do
        let (others, rest) ← setRanges fuel false rest
        return ((']', ']') :: others, rest)
      else some ([], rest)
    | a :: '-' :: b :: rest =>
      if b = ']' then do
        let (others, rest) ← setRanges fuel false ('-' :: b :: rest)
        return ((a, a) :: others, rest)
      else do
        let (others, rest) ← setRanges fuel false rest
        return ((a, b) :: others, rest)
    | a :: rest => do
      let (others, rest) ← setRanges fuel false rest
      return ((a, a) :: others, rest)

def readSet (cs : ByteText) : Option (RegularExpression × ByteText) :=
  match cs with
  | '^' :: rest => do
    let (ranges, rest) ← setRanges (cs.length + 1) true rest
    return (set true ranges, rest)
  | _ => do
    let (ranges, rest) ← setRanges (cs.length + 1) true cs
    return (set false ranges, rest)

inductive Sign where
  | atom (e : RegularExpression)
  | left | right | either
  | times (least : Nat) (most : Option Nat)

def numberOf (cs : ByteText) : Nat := cs.foldl (fun n c => 10 * n + (c.toNat - '0'.toNat)) 0

/-- The bounds of a repetition, up to its closing brace. -/
def bounds (extended : Bool) (cs : ByteText) : Option (Sign × ByteText) := do
  let low := cs.takeWhile Char.isDigit
  let afterLow := cs.drop low.length
  let (sign, rest) := match afterLow with
    | ',' :: more =>
      let high := more.takeWhile Char.isDigit
      (Sign.times (numberOf low) (if high.isEmpty then none else some (numberOf high)), more.drop high.length)
    | more => (Sign.times (numberOf low) (some (numberOf low)), more)
  match extended, rest with
  | true, '\x7d' :: rest => some (sign, rest)
  | false, '\\' :: '\x7d' :: rest => some (sign, rest)
  | _, _ => none

/-- The next sign; `first` tells that nothing stands before it in its branch. -/
def sign? (extended first : Bool) : ByteText → Option (Sign × ByteText)
  | '[' :: rest => (readSet rest).map fun (e, rest) => (.atom e, rest)
  | '.' :: rest => some (.atom any, rest)
  | '*' :: rest => if first then some (.atom (char '*'), rest) else some (.times 0 none, rest)
  | '^' :: rest => if extended || first then some (.atom start, rest) else some (.atom (char '^'), rest)
  | '$' :: rest =>
    let last := rest.isEmpty || ['\\', ')'].isPrefixOf rest || ['\\', '|'].isPrefixOf rest
    if extended || last then some (.atom finish, rest) else some (.atom (char '$'), rest)
  | '\\' :: c :: rest =>
    if c.isDigit ∧ c ≠ '0' then some (.atom (again (c.toNat - '0'.toNat)), rest)
    else if c = 'n' then some (.atom (char '\n'), rest)
    else if c = 't' then some (.atom (char '\t'), rest)
    else if extended then some (.atom (char c), rest)
    else match c with
      | '(' => some (.left, rest)
      | ')' => some (.right, rest)
      | '|' => some (.either, rest)
      | '+' => some (.times 1 none, rest)
      | '?' => some (.times 0 (some 1), rest)
      | '\x7b' => bounds false rest
      | _ => some (.atom (char c), rest)
  | ['\\'] => none
  | c :: rest =>
    if extended then
      match c with
      | '(' => some (.left, rest)
      | ')' => some (.right, rest)
      | '|' => some (.either, rest)
      | '+' => some (.times 1 none, rest)
      | '?' => some (.times 0 (some 1), rest)
      | '\x7b' => bounds true rest
      | _ => some (.atom (char c), rest)
    else some (.atom (char c), rest)
  | [] => none

/-- What has been read: finished branches and the parts of the current one, the last ones first. -/
structure Reading where
  rest : ByteText
  groups : Nat := 0

/-- Reads branches up to a closing parenthesis or the end. -/
def read (extended : Bool) : Nat → Reading → (branches : List RegularExpression) → (parts : List RegularExpression) →
    Option (RegularExpression × Reading)
  | 0, _, _, _ => none
  | fuel + 1, r, branches, parts =>
    let finished : RegularExpression :=
      match branches with
      | [] => sequence parts.reverse
      | _ => alternatives (sequence parts.reverse :: branches).reverse
    if r.rest.isEmpty then some (finished, r)
    else do
      let (sign, rest) ← sign? extended parts.isEmpty r.rest
      match sign with
      | .atom e => read extended fuel { r with rest } branches (e :: parts)
      | .either => read extended fuel { r with rest } (sequence parts.reverse :: branches) []
      | .right => return (finished, r)
      | .times least most =>
        match parts with
        | part :: parts => read extended fuel { r with rest } branches (repeated part least most :: parts)
        | [] => none
      | .left =>
        let number := r.groups + 1
        let (body, inner) ← read extended fuel { rest, groups := number } [] []
        match sign? extended false inner.rest with
        | some (.right, rest) => read extended fuel { inner with rest } branches (group number body :: parts)
        | _ => none

def parse? (extended : Bool) (t : ByteText) : Option RegularExpression := do
  let (e, r) ← read extended (t.length + 2) { rest := t } [] []
  guard r.rest.isEmpty
  return e

/-- The expression that matches a text as it stands. -/
def literal (t : ByteText) : RegularExpression := sequence (t.map char)

end RegularExpression

end AutoDiff
