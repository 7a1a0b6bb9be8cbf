import AutoDiff.Toml.Basic

/-!
Reading tables. Text that is TOML but holds values of other kinds, headers or dotted keys is refused
like text that is not.
-/

namespace AutoDiff.Toml

def isBlank (c : Char) : Bool := c == ' ' || c == '\t'

def skipBlanks (cs : List Char) : List Char := cs.dropWhile isBlank

/-- A line feed ends a line with or without a carriage return before it. -/
def joinLineEnds : List Char → List Char
  | '\r' :: '\n' :: rest => '\n' :: joinLineEnds rest
  | c :: rest => c :: joinLineEnds rest
  | [] => []

/-- Drops blanks, line ends and comments, starting in a comment or not. A comment stops short of a
control character. -/
def skipSpace : Bool → List Char → List Char
  | _, [] => []
  | true, c :: rest =>
    if c = '\n' then skipSpace false rest
    else if isControl c then c :: rest
    else skipSpace true rest
  | false, c :: rest =>
    if c = '#' then skipSpace true rest
    else if isBlank c || c = '\n' then skipSpace false rest
    else c :: rest

/-- The character with a number written in `n` hexadecimal digits. -/
def codePoint? (n : Nat) (cs : List Char) : Option (Char × List Char) := do
  let digits ← (cs.take n).mapM Text.hexValue?
  let code := digits.foldl (fun code digit => code * 16 + digit) 0
  guard (digits.length = n ∧ code.isValidChar)
  return (Char.ofNat code, cs.drop n)

/-- An escape after its backslash. -/
def escape? : List Char → Option (Char × List Char)
  | '"' :: rest => some ('"', rest)
  | '\\' :: rest => some ('\\', rest)
  | 'b' :: rest => some ('\x08', rest)
  | 't' :: rest => some ('\t', rest)
  | 'n' :: rest => some ('\n', rest)
  | 'f' :: rest => some ('\x0c', rest)
  | 'r' :: rest => some ('\r', rest)
  | 'u' :: rest => codePoint? 4 rest
  | 'U' :: rest => codePoint? 8 rest
  | _ => none

/-- What follows a backslash at the end of a line: blanks and line ends up to it are no part of the string. -/
def continuation? (cs : List Char) : Option (List Char) :=
  match skipBlanks cs with
  | '\n' :: rest => some (rest.dropWhile fun c => isBlank c || c == '\n')
  | _ => none

namespace Form

/-- The marks at the end of a string that belong to it, and what follows the string. Of a row of marks
that is long enough to close the string, the first are its own, as many as may stand in it. -/
def close? (f : Form) (cs : List Char) : Option (List Char × List Char) :=
  let run := (cs.takeWhile (· = f.mark)).length
  let closing := f.delimiter.length
  if run < closing then none
  else
    let own := min (run - closing) f.quotable
    some (cs.take own, cs.drop (own + closing))

/-- The characters of a string after its opening marks, and what follows the string. -/
def body (f : Form) : Nat → List Char → Option (List Char × List Char)
  | 0, _ => none
  | fuel + 1, cs =>
    match f.close? cs with
    | some closed => some closed
    | none =>
      match cs with
      | [] => none
      | c :: rest =>
        if f.escapes ∧ c = '\\' then
          match if f.lines then continuation? rest else none with
          | some rest => f.body fuel rest
          | none => do
            let (c, rest) ← escape? rest
            let (cs, rest) ← f.body fuel rest
            return (c :: cs, rest)
        else do
          guard (f.admits c)
          let (cs, rest) ← f.body fuel rest
          return (c :: cs, rest)

/-- A string after its opening marks. A line end right after them is no part of it. -/
def read? (f : Form) (cs : List Char) : Option (String × List Char) := do
  let cs := match f.lines, cs with
    | true, '\n' :: rest => rest
    | _, cs => cs
  let (text, rest) ← f.body (cs.length + 1) cs
  return (String.ofList text, rest)

end Form

def string? : List Char → Option (String × List Char)
  | '"' :: '"' :: '"' :: rest => Form.basicLines.read? rest
  | '\'' :: '\'' :: '\'' :: rest => Form.literalLines.read? rest
  | '"' :: rest => Form.basic.read? rest
  | '\'' :: rest => Form.literal.read? rest
  | _ => none

/-- The strings of a list after its opening bracket. The last may have a comma after it. -/
def strings? : Nat → List Char → Option (List String × List Char)
  | 0, _ => none
  | fuel + 1, cs =>
    match skipSpace false cs with
    | ']' :: rest => some ([], rest)
    | cs => do
      let (s, rest) ← string? cs
      match skipSpace false rest with
      | ']' :: rest => some ([s], rest)
      | ',' :: rest => do
        let (ss, rest) ← strings? fuel rest
        return (s :: ss, rest)
      | _ => none

def value? : List Char → Option (Value × List Char)
  | 't' :: 'r' :: 'u' :: 'e' :: rest => some (.flag true, rest)
  | 'f' :: 'a' :: 'l' :: 's' :: 'e' :: rest => some (.flag false, rest)
  | '[' :: rest => do
    let (ss, rest) ← strings? (rest.length + 1) rest
    return (.texts ss, rest)
  | cs => do
    let (s, rest) ← string? cs
    return (.text s, rest)

def isKeyChar (c : Char) : Bool := c.isAlphanum || c == '_' || c == '-'

/-- A key is a word, or a string on one line. -/
def key? : List Char → Option (String × List Char)
  | '"' :: rest => Form.basic.read? rest
  | '\'' :: rest => Form.literal.read? rest
  | cs => do
    let word := cs.takeWhile isKeyChar
    guard !word.isEmpty
    return (String.ofList word, cs.dropWhile isKeyChar)

/-- Whether nothing but a comment stands in the rest of the line. -/
def endsLine (cs : List Char) : Bool :=
  match skipBlanks cs with
  | [] | '\n' :: _ | '#' :: _ => true
  | _ => false

def entries? : Nat → List Char → Option Document
  | 0, _ => none
  | fuel + 1, cs =>
    match skipSpace false cs with
    | [] => some []
    | cs => do
      let (key, rest) ← key? cs
      match skipBlanks rest with
      | '=' :: rest => do
        let (value, rest) ← value? (skipBlanks rest)
        guard (endsLine rest)
        return (key, value) :: (← entries? fuel rest)
      | _ => none

def parseChars? (cs : List Char) : Option Document := do
  let cs := joinLineEnds cs
  let entries ← entries? (cs.length + 1) cs
  guard (entries.map Prod.fst).Nodup
  return entries

/-- The table of a text, which may start with a byte order mark. No key stands in it twice. -/
def parse? (text : String) : Option Document :=
  match text.toList with
  | '\ufeff' :: rest => parseChars? rest
  | cs => parseChars? cs

end AutoDiff.Toml
