import AutoDiff.Emulation.System.FileTools

/-!
Programs that read texts, from files or from their input, and write what they make of them.
-/

namespace AutoDiff.TextTools

/-- What an operand names; a hyphen is the input. -/
def contentOf (c : Call) (p : ByteText) : Running (Except IoError Content) := do
  if p = ['-'] then return .ok (← c.readAll)
  let m ← get
  return match c.find m p with
    | .ok (.file content _) => .ok content
    | .ok .directory => .error .isDirectory
    | .ok .sink => .ok .empty
    | .error e => .error e

/-- A name in an error, in quotes only where it has blanks. -/
def shown (p : ByteText) : ByteText :=
  if p.any fun ch => " *?[]()<>&;|\"$\\'!#=".toList.contains ch || ch.toNat = 0x60 then FileTools.quoted p else p

/-- Reads operands one after another, the input if there are none; the result tells whether all could be read.
`complaint` is what an error says of an operand. -/
def readEach (c : Call) (operands : List ByteText) (complaint : ByteText → IoError → ByteText)
    (use : ByteText → Content → Running Unit) : Running Nat :=
  FileTools.each (if operands.isEmpty then [['-']] else operands) fun p => do
    match ← contentOf c p with
    | .ok content =>
      use p content
      return 0
    | .error e =>
      c.complain (complaint p e)
      return 1

def plainComplaint (p : ByteText) (e : IoError) : ByteText := shown p ++ [':', ' '] ++ .ofString e.text

def openComplaint (p : ByteText) (e : IoError) : ByteText :=
  if e = .isDirectory then .ofString "error reading " ++ FileTools.quoted p ++ [':', ' '] ++ .ofString e.text
  else .ofString "cannot open " ++ FileTools.quoted p ++ .ofString " for reading: " ++ .ofString e.text

def retryComplaint (p : ByteText) (e : IoError) : ByteText :=
  if e = .isDirectory then quotedRead p ++ .ofString ": read error: " ++ .ofString e.text
  else .ofString "failed to open " ++ FileTools.quoted p ++ .ofString " for reading: " ++ .ofString e.text
where quotedRead (p : ByteText) : ByteText := shown p

/-- All operands as one text. -/
def gather (c : Call) (operands : List ByteText) (complaint : ByteText → IoError → ByteText) : Running (ByteText × Nat) := do
  let mut text : ByteText := []
  let mut code := 0
  for p in (if operands.isEmpty then [['-']] else operands) do
    match ← contentOf c p with
    | .ok content => text := text ++ content.byteText
    | .error e =>
      c.complain (complaint p e)
      code := 1
  return (text, code)

/-- The lines of a text, each with its end. -/
def fullLines (t : ByteText) : List ByteText :=
  let parts := t.splitOn '\n'
  let last := parts.getLastD []
  parts.dropLast.map (· ++ ['\n']) ++ (if last.isEmpty then [] else [last])

def unlines (lines : List ByteText) : ByteText := (lines.map (· ++ ['\n'])).flatten

def decimal? (t : ByteText) : Option Nat :=
  if t.isEmpty ∨ !t.all Char.isDigit then none
  else some (t.foldl (fun n ch => 10 * n + (ch.toNat - '0'.toNat)) 0)

def ofNat (n : Nat) : ByteText := Nat.toDigits 10 n

def padLeft (width : Nat) (t : ByteText) : ByteText := List.replicate (width - t.length) ' ' ++ t

/-! Whole files -/

def numbered (start : Nat) (t : ByteText) : ByteText :=
  ((fullLines t).zipIdx.map fun (line, i) => padLeft 6 (ofNat (start + i)) ++ '\t' :: line).flatten

def cat (c : Call) : Running Nat :=
  c.withOptions ⟨"benstuvAET", [("number", 'n', false), ("show-ends", 'E', false)], false⟩ 1 fun o => do
    if o.has 'n' then
      let (text, code) ← gather c o.operands plainComplaint
      c.print (numbered 1 text)
      return code
    else readEach c o.operands plainComplaint fun _ content => c.write 1 content

def tac (c : Call) : Running Nat :=
  c.withOptions ⟨"brs:", [], false⟩ 1 fun o => do
    let (text, code) ← gather c o.operands retryComplaint
    c.print (fullLines text).reverse.flatten
    return code

def tee (c : Call) : Running Nat :=
  c.withOptions ⟨"aip", [("append", 'a', false)], false⟩ 1 fun o => do
    let content ← c.readAll
    c.write 1 content
    FileTools.each o.operands fun p => do
      match (← get).openFile c.directory p (if o.has 'a' then .append else .truncate) with
      | .ok (id, m) =>
        set (m.send id content)
        return 0
      | .error e =>
        c.complain (plainComplaint p e)
        return 1

/-! Parts of texts -/

/-- Options in which a number stands directly after the hyphen. -/
def modernized (arguments : List ByteText) : List ByteText :=
  match arguments with
  | ('-' :: n) :: rest => if (decimal? n).isSome then ['-', 'n'] :: n :: rest else arguments
  | _ => arguments

/-- Writes a part of every operand, under headers if there are several. -/
def parts (c : Call) (o : Options) (part : ByteText → ByteText) : Running Nat := do
  let headers := (1 < o.operands.length || o.has 'v') && !o.has 'q'
  let first ← FileTools.each (o.operands.take 1) (one headers true)
  let rest ← FileTools.each (o.operands.drop 1) (one headers false)
  if o.operands.isEmpty then one headers true ['-'] else return max first rest
where
  one (headers first : Bool) (p : ByteText) : Running Nat := do
    match ← contentOf c p with
    | .ok content =>
      let name := if p = ['-'] then .ofString "standard input" else p
      let header : ByteText := if headers then (if first then [] else ['\n']) ++ .ofString "==> " ++ name ++ .ofString " <==\n" else []
      c.print (header ++ part content.byteText)
      return 0
    | .error e =>
      c.complain (openComplaint p e)
      return 1

/-- The least number of things that a value of an option can ask for, with a letter for a multiple. -/
def amount? (t : ByteText) : Option Nat :=
  let digits := t.takeWhile Char.isDigit
  let units := [("", 1), ("b", 512), ("k", 1024), ("K", 1024), ("kB", 1000), ("KB", 1000), ("KiB", 1024), ("M", 1024 * 1024),
    ("MB", 1000 * 1000), ("MiB", 1024 * 1024), ("G", 1024 * 1024 * 1024), ("GB", 1000 * 1000 * 1000),
    ("GiB", 1024 * 1024 * 1024)]
  match decimal? digits, units.lookup (String.ofList (t.drop digits.length)) with
  | some n, some unit => some (n * unit)
  | _, _ => none

def unsigned : ByteText → ByteText
  | sign :: digits => if sign = '-' ∨ sign = '+' then digits else sign :: digits
  | [] => []

/-- What is wrong with the value of an option that says how much is to be shown. -/
def refuseAmount (c : Call) (letter : Char) (value : ByteText) : Option (Running Nat) :=
  let refused (what : String) : Option (Running Nat) :=
    some (c.refuse 1 ("invalid number of " ++ what ++ ": " ++ (FileTools.quoted value).text))
  if letter = 'c' ∧ (amount? (unsigned value)).isNone then refused "bytes"
  else if letter = 'n' ∧ (amount? (unsigned value)).isNone then refused "lines"
  else if letter = 's' ∧ (value.isEmpty ∨ !value.all fun ch => ch.isDigit || ch == '.') then refused "seconds"
  else none

/-- The last option for an amount: whether it counts bytes, its sign and the amount. -/
def amountOf (o : Options) : Bool × Option Char × Nat :=
  match o.given.reverse.find? fun (letter, _) => letter == 'c' || letter == 'n' with
  | none => (false, none, 10)
  | some (letter, value) =>
    (letter == 'c', value.head?.filter fun sign => sign == '-' || sign == '+', (amount? (unsigned value)).getD 0)

def head (c : Call) : Running Nat :=
  let c := { c with arguments := modernized c.arguments }
  c.withChecked ⟨"c:n:qvz0123456789", [("bytes", 'c', true), ("lines", 'n', true)], false⟩ 1 (refuseAmount c) fun o =>
    let (bytes, sign, n) := amountOf o
    let back := sign == some '-'
    parts c o fun t =>
      if bytes then t.take (if back then t.length - n else n)
      else
        let lines := fullLines t
        (lines.take (if back then lines.length - n else n)).flatten

def tail (c : Call) : Running Nat :=
  let c := { c with arguments := modernized c.arguments }
  c.withChecked ⟨"c:n:fFqs:vz0123456789", [("bytes", 'c', true), ("lines", 'n', true)], false⟩ 1 (refuseAmount c) fun o =>
    let (bytes, sign, n) := amountOf o
    let fromStart := sign == some '+'
    parts c o fun t =>
      if bytes then t.drop (if fromStart then n - 1 else t.length - n)
      else
        let lines := fullLines t
        (lines.drop (if fromStart then n - 1 else lines.length - n)).flatten

/-- A list of numbers and ranges. -/
def ranges? (t : ByteText) : Option (List (Nat × Option Nat)) :=
  (t.splitOn ',').mapM fun part =>
    let low := part.takeWhile (· ≠ '-')
    match part.drop low.length with
    | [] => (decimal? low).map fun n => (n, some n)
    | _ :: high => do
      let a ← if low.isEmpty then some 1 else decimal? low
      if high.isEmpty then return (a, none)
      return (a, some (← decimal? high))

def selected (ranges : List (Nat × Option Nat)) (position : Nat) : Bool :=
  ranges.any fun (a, b) => a ≤ position && (match b with | some b => position ≤ b | none => true)

def cut (c : Call) : Running Nat :=
  c.withOptions ⟨"b:c:d:f:nsz", [("bytes", 'b', true), ("characters", 'c', true), ("delimiter", 'd', true),
      ("fields", 'f', true), ("only-delimited", 's', false)], false⟩ 1 fun o => do
    let list := (o.value? 'f').orElse fun _ => (o.value? 'c').orElse fun _ => o.value? 'b'
    match list with
    | none => c.misuse 1 "you must specify a list of bytes, characters, or fields"
    | some list =>
      match ranges? list with
      | none => c.misuse 1 ("invalid " ++ (if o.has 'f' then "field" else "byte or character") ++ " range")
      | some ranges =>
        let delimiter := ((o.value? 'd').bind (·.head?)).getD '\t'
        let cutLine (line : ByteText) : List ByteText :=
          if o.has 'f' then
            if line.contains delimiter then
              let fields := (line.splitOn delimiter).zipIdx.filter fun (_, i) => selected ranges (i + 1)
              [ByteText.joinWith [delimiter] (fields.map (·.1))]
            else if o.has 's' then [] else [line]
          else [((line.zipIdx.filter fun (_, i) => selected ranges (i + 1)).map (·.1))]
        let (text, code) ← gather c o.operands plainComplaint
        c.print (unlines (text.lines.flatMap cutLine))
        return code

/-! Counting and ordering -/

def countWords (t : ByteText) : Nat :=
  (t.foldl (fun (count, inside) ch =>
    if Format.isSpace ch then (count, false) else (if inside then count else count + 1, true)) (0, false)).1

/-- What is counted, in the order in which it is shown. -/
def counts (o : Options) (t : ByteText) : List Nat :=
  let all := !(o.has 'l' || o.has 'w' || o.has 'c' || o.has 'm' || o.has 'L')
  let newlines := if all || o.has 'l' then [t.count '\n'] else []
  let words := if all || o.has 'w' then [countWords t] else []
  let characters := if o.has 'm' then [(t.filter fun ch => ch.toNat &&& 0xc0 ≠ 0x80).length] else []
  let bytes := if all || o.has 'c' then [t.length] else []
  newlines ++ words ++ characters ++ bytes

/-- Whether the input is a file, whose length is known before it is read. -/
def inputIsFile (c : Call) : Running Bool := do
  let m ← get
  return match (c.stream? 0).bind (m.opened[·]?) with
    | some { channel := .file _, .. } => true
    | _ => false

def wc (c : Call) : Running Nat :=
  c.withOptions ⟨"clLmw", [("bytes", 'c', false), ("chars", 'm', false), ("lines", 'l', false), ("words", 'w', false)],
      false⟩ 1 fun o => do
    let operands := if o.operands.isEmpty then [['-']] else o.operands
    let isFile ← inputIsFile c
    let mut rows : List (ByteText × List Nat) := []
    let mut code := 0
    let mut total := 0
    let mut sized := true
    let mut sum : ByteText := []
    for p in operands do
      match ← contentOf c p with
      | .ok content =>
        rows := rows ++ [(p, counts o content.byteText)]
        total := total + content.byteText.length
        sum := sum ++ content.byteText
        if p = ['-'] ∧ !isFile then sized := false
      | .error e =>
        c.complain (plainComplaint p e)
        code := 1
    let single := operands.length = 1 ∧ (rows.all fun (_, ns) => ns.length = 1)
    let width := if single then 1 else if sized then (ofNat total).length else 7
    let show_ (name : ByteText) (ns : List Nat) : ByteText :=
      ByteText.joinWith [' '] (ns.map fun n => padLeft width (ofNat n)) ++ (if name.isEmpty then [] else ' ' :: name) ++ ['\n']
    for (p, ns) in rows do c.print (show_ (if o.operands.isEmpty then [] else p) ns)
    if 1 < operands.length then c.print (show_ (.ofString "total") (counts o sum))
    return code

def leadingNumber (t : ByteText) : Int :=
  match t.dropWhile Format.isSpace with
  | '-' :: rest => -(((decimal? (rest.takeWhile Char.isDigit)).getD 0 : Nat) : Int)
  | rest => ((decimal? (rest.takeWhile Char.isDigit)).getD 0 : Nat)

def sort (c : Call) : Running Nat :=
  c.withOptions ⟨"bcCdfghik:mMno:rRsS:t:T:uVyz", [("numeric-sort", 'n', false), ("reverse", 'r', false), ("unique", 'u', false)],
      false⟩ 2 fun o => do
    let m ← get
    match o.operands.find? fun p => p ≠ ['-'] ∧ !(c.find m p).isOk with
    | some p => c.refuse 2 ("cannot read: " ++ (shown p).text ++ ": No such file or directory")
    | none => do
    let (text, code) ← gather c o.operands fun p e => .ofString "read failed: " ++ plainComplaint p e
    let key (line : ByteText) : Int := if o.has 'n' then leadingNumber line else 0
    let le (a b : ByteText) : Bool := key a < key b || (decide (key a = key b) && (o.has 'n' && o.has 'u' || a.isAtMost b))
    let sorted := text.lines.mergeSort (if o.has 'r' then fun a b => le b a else le)
    let same (a b : ByteText) : Bool := if o.has 'n' then key a = key b else a = b
    let kept := if o.has 'u' then
        sorted.foldl (fun kept line => if (kept.head?.any (same · line)) then kept else line :: kept) [] |>.reverse
      else sorted
    c.print (unlines kept)
    return if code = 0 then 0 else 2

def refuseSkip (c : Call) (letter : Char) (value : ByteText) : Option (Running Nat) :=
  if (decimal? value).isSome then none
  else ([('f', "fields to skip"), ('s', "bytes to skip"), ('w', "bytes to compare")].lookup letter).map fun what =>
    c.refuse 1 (value.text ++ ": invalid number of " ++ what)

/-- The part of a line that is compared. -/
def comparedPart (o : Options) (line : ByteText) : ByteText :=
  let number (letter : Char) : Nat := ((o.value? letter).bind decimal?).getD 0
  let isBlank (ch : Char) : Bool := ch == ' ' || ch == '\t'
  let afterFields := (List.range (number 'f')).foldl
    (fun (t : ByteText) _ => (t.dropWhile isBlank).dropWhile fun ch => !isBlank ch) line
  let part := afterFields.drop (number 's')
  let part := if o.has 'w' then part.take (number 'w') else part
  if o.has 'i' then part.map Char.toLower else part

def uniq (c : Call) : Running Nat :=
  c.withChecked ⟨"cdDf:is:uw:z", [("count", 'c', false), ("repeated", 'd', false), ("unique", 'u', false),
      ("ignore-case", 'i', false), ("skip-fields", 'f', true), ("skip-chars", 's', true), ("check-chars", 'w', true)], false⟩ 1
    (refuseSkip c) fun o => do
      if let _ :: _ :: extra :: _ := o.operands then
        return ← c.misuse 1 ("extra operand " ++ (FileTools.quoted extra).text)
      let (text, code) ← gather c (o.operands.take 1) plainComplaint
      if code ≠ 0 then return code
      let runs : List (ByteText × Nat) := (text.lines.foldl (fun (runs : List (ByteText × Nat)) line =>
        match runs with
        | (same, n) :: rest => if comparedPart o same = comparedPart o line then (same, n + 1) :: rest else (line, 1) :: runs
        | [] => [(line, 1)]) []).reverse
      let result := runs.flatMap fun (line, n) =>
        if (!o.has 'd' || 1 < n) && (!o.has 'u' || n = 1) then
          (if o.has 'c' then padLeft 7 (ofNat n) ++ [' '] else []) ++ line ++ ['\n']
        else []
      match o.operands.drop 1 with
      | [] => do
        c.print result
        return 0
      | p :: _ => do
        match (← get).openFile c.directory p .truncate with
        | .ok (id, m) =>
          set (m.send id (.ofByteText result))
          return 0
        | .error e =>
          c.complain (plainComplaint p e)
          return 1

/-! Characters -/

def characterClasses : List (String × (Char → Bool)) :=
  [("alpha", Char.isAlpha), ("digit", Char.isDigit), ("alnum", Char.isAlphanum), ("upper", Char.isUpper),
    ("lower", Char.isLower), ("space", Format.isSpace), ("blank", fun ch => ch = ' ' || ch = '\t'),
    ("punct", fun ch => '!' ≤ ch && ch ≤ '~' && !ch.isAlphanum), ("cntrl", fun ch => ch < ' ' || ch = '\x7f'),
    ("print", fun ch => ' ' ≤ ch && ch ≤ '~'), ("graph", fun ch => '!' ≤ ch && ch ≤ '~')]

def allBytes : ByteText := (List.range 256).map Char.ofNat

def between (a b : Char) : ByteText := (List.range (b.toNat + 1 - a.toNat)).map fun i => Char.ofNat (a.toNat + i)

/-- The characters that an argument stands for: ranges, classes and escapes. -/
def characters : Nat → ByteText → ByteText
  | 0, _ => []
  | fuel + 1, cs =>
    match cs with
    | [] => []
    | '[' :: ':' :: rest =>
      let name := rest.takeWhile (· ≠ ':')
      match rest.drop name.length, characterClasses.lookup (String.ofList name) with
      | ':' :: ']' :: rest, some inClass => allBytes.filter inClass ++ characters fuel rest
      | _, _ => '[' :: characters fuel (':' :: rest)
    | _ =>
      let (a, rest) := single cs
      match rest with
      | '-' :: after =>
        if after.isEmpty then [a, '-']
        else
          let (b, rest) := single after
          between a b ++ characters fuel rest
      | rest => a :: characters fuel rest
where
  single : ByteText → Char × ByteText
    | '\\' :: rest =>
      let (byte, after) := Format.escape rest
      if byte = '\\' ∧ rest.head? ≠ some '\\' then ((rest.head?).getD '\\', rest.tail) else (byte, after)
    | ch :: rest => (ch, rest)
    | [] => ('\x00', [])

def squeeze (set : ByteText) (t : ByteText) : ByteText :=
  (t.foldl (fun (done : ByteText) ch => if done.head? = some ch ∧ set.contains ch then done else ch :: done) []).reverse

def tr (c : Call) : Running Nat :=
  c.withOptions ⟨"cCdst", [("complement", 'c', false), ("delete", 'd', false), ("squeeze-repeats", 's', false)], true⟩ 1
    fun o => do
      let complement (t : ByteText) : ByteText := if o.has 'c' || o.has 'C' then allBytes.filter (!t.contains ·) else t
      let set (t : ByteText) : ByteText := characters (t.length + 1) t
      match o.operands with
      | [] => FileTools.missingOperand c
      | [first] =>
        if o.has 'd' && o.has 's' then do
          c.complain (.ofString "missing operand after " ++ FileTools.quoted first)
          c.printError (.ofString "Two strings must be given when both deleting and squeezing repeats.\n")
          c.hint
          return 1
        else if !o.has 'd' && !o.has 's' then do
          c.complain (.ofString "missing operand after " ++ FileTools.quoted first)
          c.printError (.ofString "Two strings must be given when translating.\n")
          c.hint
          return 1
        else
          let text := (← c.readAll).byteText
          let chosen := complement (set first)
          c.print (if o.has 'd' then text.filter (!chosen.contains ·) else squeeze chosen text)
          return 0
      | _ :: _ :: extra :: _ => c.misuse 1 ("extra operand " ++ (FileTools.quoted extra).text)
      | [first, second] =>
        if o.has 'd' && !o.has 's' then
          c.complain (.ofString "extra operand " ++ FileTools.quoted second)
          c.printError (.ofString "Only one string may be given when deleting without squeezing repeats.\n")
          c.hint
          return 1
        let text := (← c.readAll).byteText
        let (source, target) := (complement (set first), set second)
        if o.has 'd' then
          c.print (squeeze target (text.filter (!source.contains ·)))
          return 0
        let pairs := source.zipIdx.map fun (ch, i) => (ch, (target[i]?).getD (target.getLastD ch))
        let mapped := text.map fun ch => ((pairs.reverse.lookup ch)).getD ch
        c.print (if o.has 's' then squeeze target mapped else mapped)
        return 0

/-! Numbers -/

def integer? (t : ByteText) : Option Int :=
  match t with
  | '-' :: rest => (decimal? rest).map fun n => -(n : Int)
  | rest => (decimal? rest).map fun n => (n : Int)

def ofInt (n : Int) : ByteText := (toString n).toList

/-- Splits arguments before a negative number, with which the operands begin. -/
def beforeNegative (arguments : List ByteText) : List ByteText × List ByteText :=
  let isNumber : ByteText → Bool
    | '-' :: ch :: _ => ch.isDigit || ch == '.'
    | _ => false
  (arguments.takeWhile (!isNumber ·), arguments.dropWhile (!isNumber ·))

def seq (c : Call) : Running Nat :=
  let (options, numbers) := beforeNegative c.arguments
  { c with arguments := options }.withOptions ⟨"f:s:w", [("equal-width", 'w', false), ("format", 'f', true),
      ("separator", 's', true)], true⟩ 1 fun o => do
    let operands := o.operands ++ numbers
    let separator := (o.value? 's').getD ['\n']
    let write (first step last : Int) : Running Nat := do
      let count := if step = 0 then 0 else ((last - first) / step + 1).toNat
      let texts := (List.range count).map fun i => ofInt (first + step * (i : Nat))
      let width := (texts.map List.length).foldl max 0
      let texts := if o.has 'w' then texts.map (padded width) else texts
      unless texts.isEmpty do c.print (ByteText.joinWith separator texts ++ ['\n'])
      return 0
    match operands with
    | _ :: _ :: _ :: extra :: _ => c.misuse 1 ("extra operand " ++ (FileTools.quoted extra).text)
    | [] => FileTools.missingOperand c
    | operands =>
      match operands.find? fun a => (integer? a).isNone, operands.filterMap integer? with
      | some bad, _ => c.misuse 1 ("invalid floating point argument: " ++ (FileTools.quoted bad).text)
      | none, [last] => write 1 1 last
      | none, [first, last] => write first 1 last
      | none, [first, step, last] => write first step last
      | none, _ => FileTools.missingOperand c
where
  padded (width : Nat) : ByteText → ByteText
    | '-' :: digits => '-' :: (List.replicate (width - 1 - digits.length) '0' ++ digits)
    | digits => List.replicate (width - digits.length) '0' ++ digits

end AutoDiff.TextTools
