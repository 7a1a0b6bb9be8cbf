import AutoDiff.Emulation.System.Machine
import AutoDiff.Text.Hexadecimal

/-!
Escape sequences, and texts made by a format: conversions start with a percent sign, and the format is used
again while arguments are left.
-/

namespace AutoDiff.Format

def isOctal (c : Char) : Bool := '0' ≤ c && c ≤ '7'

def octalValue (cs : ByteText) : Nat := cs.foldl (fun n c => 8 * n + (c.toNat - '0'.toNat)) 0

def byteOf (n : Nat) : Char := Char.ofNat (n % 256)

def simpleEscapes : List (Char × Char) :=
  [('a', '\x07'), ('b', '\x08'), ('f', '\x0c'), ('n', '\n'), ('r', '\r'), ('t', '\t'), ('v', '\x0b'), ('\\', '\\')]

/-- The byte that stands after a backslash, and the rest; a backslash before anything else stands for
itself. -/
def escape (cs : ByteText) : Char × ByteText :=
  let digits := (cs.take 3).takeWhile isOctal
  match cs with
  | c :: rest =>
    if isOctal c then (byteOf (octalValue digits), cs.drop digits.length)
    else match simpleEscapes.lookup c with
      | some byte => (byte, rest)
      | none => ('\\', cs)
  | [] => ('\\', [])

/-- Replaces escapes in a text, where octal numbers may start with a zero of their own. The result also
tells whether the text asks to stop. -/
def unescape : Nat → ByteText → ByteText × Bool
  | 0, _ => ([], false)
  | fuel + 1, cs =>
    match cs with
    | [] => ([], false)
    | ['\\'] => (['\\'], false)
    | '\\' :: 'c' :: _ => ([], true)
    | '\\' :: rest =>
      let rest := match rest with
        | '0' :: d :: more => if isOctal d then d :: more else rest
        | _ => rest
      let (byte, rest) := escape rest
      let (others, stop) := unescape fuel rest
      (byte :: others, stop)
    | c :: rest =>
      let (others, stop) := unescape fuel rest
      (c :: others, stop)

def unescaped (t : ByteText) : ByteText × Bool := unescape (t.length + 1) t

/-- Words with blanks between them, up to one that asks to stop. -/
def echoed : List ByteText → (newline : Bool) → ByteText
  | [], newline => if newline then ['\n'] else []
  | [word], newline =>
    let (text, stop) := unescaped word
    if stop then text else text ++ echoed [] newline
  | word :: words, newline =>
    let (text, stop) := unescaped word
    if stop then text else text ++ ' ' :: echoed words newline

/-! Numbers -/

def digitValue? (base : Nat) (c : Char) : Option Nat :=
  (Text.hexValue? c).bind fun n => if n < base then some n else none

/-- The number that starts a text, and the rest. A leading zero means octal, `0x` hexadecimal. -/
def magnitude (cs : ByteText) : Option (Nat × ByteText) :=
  let read (base : Nat) (cs : ByteText) : Option (Nat × ByteText) :=
    let digits := cs.takeWhile fun c => (digitValue? base c).isSome
    if digits.isEmpty then none
    else some (digits.foldl (fun n c => base * n + (digitValue? base c).getD 0) 0, cs.drop digits.length)
  match cs with
  | '0' :: x :: rest =>
    if x = 'x' ∨ x = 'X' then (read 16 rest).orElse fun _ => some (0, x :: rest) else read 8 cs
  | _ => read (if cs.head? = some '0' then 8 else 10) cs

def isSpace (c : Char) : Bool := c == ' ' || (9 ≤ c.toNat && c.toNat ≤ 13)

structure Scanned where
  value : Int
  rest : ByteText
  /-- Whether there was a number at all. -/
  found : Bool

/-- A signed number with blanks before it. -/
def scanInteger (t : ByteText) : Scanned :=
  let cs := t.dropWhile isSpace
  let (negative, cs) := match cs with
    | '-' :: rest => (true, rest)
    | '+' :: rest => (false, rest)
    | rest => (false, rest)
  match magnitude cs with
  | some (n, rest) => ⟨if negative then -(n : Int) else n, rest, true⟩
  | none => ⟨0, t, false⟩

def leastWord : Int := -(UInt64.size / 2 : Nat)

def greatestWord : Int := (UInt64.size / 2 - 1 : Nat)

def clampSigned (n : Int) : Int := max leastWord (min greatestWord n)

/-- A number as an unsigned word; a negative one wraps. -/
def unsignedWord (n : Int) : Nat :=
  if (UInt64.size : Int) ≤ n ∨ n ≤ -(UInt64.size : Int) then UInt64.size - 1 else (n % (UInt64.size : Int)).toNat

/-! Conversions -/

structure Directive where
  flags : ByteText := []
  width : Nat := 0
  precision : Option Nat := none

namespace Directive

def pad (d : Directive) (t : ByteText) : ByteText :=
  let blanks := List.replicate (d.width - t.length) ' '
  if d.flags.contains '-' then t ++ blanks else blanks ++ t

def text (d : Directive) (t : ByteText) : ByteText :=
  d.pad (match d.precision with | some n => t.take n | none => t)

/-- A number with its sign or mark before it. -/
def number (d : Directive) (mark digits : ByteText) : ByteText :=
  let digits := match d.precision with
    | some n => List.replicate (n - digits.length) '0' ++ (if n = 0 ∧ digits = ['0'] then [] else digits)
    | none => digits
  if d.flags.contains '0' && !d.flags.contains '-' && d.precision.isNone then
    mark ++ List.replicate (d.width - mark.length - digits.length) '0' ++ digits
  else d.pad (mark ++ digits)

def signed (d : Directive) (n : Int) : ByteText :=
  let mark := if n < 0 then ['-'] else if d.flags.contains '+' then ['+'] else if d.flags.contains ' ' then [' '] else []
  d.number mark (Nat.toDigits 10 n.natAbs)

def unsigned (d : Directive) (conversion : Char) (n : Nat) : ByteText :=
  let mark (m : ByteText) : ByteText := if d.flags.contains '#' ∧ n ≠ 0 then m else []
  match conversion with
  | 'o' =>
    let digits := Nat.toDigits 8 n
    d.number [] (if d.flags.contains '#' ∧ digits.head? ≠ some '0' then '0' :: digits else digits)
  | 'x' => d.number (mark ['0', 'x']) (Nat.toDigits 16 n)
  | 'X' => d.number (mark ['0', 'X']) ((Nat.toDigits 16 n).map Char.toUpper)
  | _ => d.number [] (Nat.toDigits 10 n)

end Directive

/-- What is wrong with an argument. -/
inductive NumberFault where
  | notNumeric | incomplete | outOfRange
  deriving DecidableEq, Repr

/-- What has been made of a format, and the arguments that are left. -/
structure Printing where
  arguments : List ByteText
  output : ByteText := []
  faults : List (ByteText × NumberFault) := []
  stopped : Bool := false
  /-- The directive that ended the work, and whether its last character is there. -/
  badDirective : Option (ByteText × Bool) := none

abbrev Printer := StateM Printing

namespace Printer

def put (t : ByteText) : Printer Unit := modify fun p => { p with output := p.output ++ t }

def note (t : ByteText) (f : NumberFault) : Printer Unit := modify fun p => { p with faults := p.faults ++ [(t, f)] }

def next? : Printer (Option ByteText) := modifyGet fun p =>
  match p.arguments with
  | a :: rest => (some a, { p with arguments := rest })
  | [] => (none, p)

/-- The next argument as a number; after a quote it is the number of a character. -/
def nextNumber (signed : Bool) : Printer Int := do
  match ← next? with
  | none => return 0
  | some a =>
    match a with
    | '"' :: rest | '\'' :: rest => return ((rest.head?.map (·.toNat)).getD 0 : Nat)
    | _ =>
      let s := scanInteger a
      let value : Int := if signed then clampSigned s.value else unsignedWord s.value
      if !s.found then
        unless a.isEmpty do note a .notNumeric
      else if !s.rest.isEmpty then note a .incomplete
      else if (if signed then value ≠ s.value else (UInt64.size : Int) ≤ s.value.natAbs) then note a .outOfRange
      return value

/-- A count in a directive: digits, or a star that takes an argument. -/
def count (cs : ByteText) : Printer (Int × ByteText) := do
  match cs with
  | '*' :: rest => return (← nextNumber true, rest)
  | _ =>
    let digits := cs.takeWhile Char.isDigit
    return (digits.foldl (fun n c => 10 * n + (c.toNat - '0'.toNat)) 0, cs.drop digits.length)

/-- Reads a directive after its percent sign, up to the conversion. -/
def directive (cs : ByteText) : Printer (Directive × ByteText) := do
  let flags := cs.takeWhile fun c => c == '#' || c == '-' || c == '+' || c == ' ' || c == '0'
  let (width, rest) ← count (cs.drop flags.length)
  let flags := if width < 0 then '-' :: flags else flags
  match rest with
  | '.' :: rest =>
    let (precision, rest) ← count rest
    return (⟨flags, width.natAbs, if precision < 0 then none else some precision.toNat⟩, rest)
  | _ => return (⟨flags, width.natAbs, none⟩, rest)

def convert (d : Directive) (conversion : Char) (whole : ByteText) : Printer Unit := do
  match conversion with
  | 's' => put (d.text ((← next?).getD []))
  | 'b' =>
    let (text, stop) := unescaped ((← next?).getD [])
    put (d.text text)
    if stop then modify fun p => { p with stopped := true }
  | 'c' => put (d.pad (((← next?).getD []).take 1 |> fun t => if t.isEmpty then ['\x00'] else t))
  | 'd' | 'i' => put (d.signed (← nextNumber true))
  | 'o' | 'u' | 'x' | 'X' => put (d.unsigned conversion (← nextNumber false).toNat)
  | _ => modify fun p => { p with badDirective := some (whole, true) }

/-- Goes once through a format. -/
def pass : Nat → ByteText → Printer Unit
  | 0, _ => return
  | fuel + 1, cs => do
    if (← get).stopped || (← get).badDirective.isSome then return
    match cs with
    | [] => return
    | '\\' :: rest =>
      let (byte, rest) := escape rest
      put [byte]
      pass fuel rest
    | '%' :: '%' :: rest =>
      put ['%']
      pass fuel rest
    | '%' :: rest =>
      let (d, after) ← directive rest
      match after with
      | [] => modify fun p => { p with badDirective := some (cs, false) }
      | conversion :: after =>
        convert d conversion (cs.take (cs.length - after.length))
        pass fuel after
    | c :: rest =>
      put [c]
      pass fuel rest

def passes (format : ByteText) : Nat → Printer Unit
  | 0 => return
  | fuel + 1 => do
    let before := (← get).arguments.length
    pass (format.length + 1) format
    let p ← get
    if p.stopped || p.badDirective.isSome || p.arguments.isEmpty || p.arguments.length == before then return
    passes format fuel

end Printer

def run (format : ByteText) (arguments : List ByteText) : Printing :=
  ((Printer.passes format (arguments.length + 1)).run { arguments }).2

end AutoDiff.Format
