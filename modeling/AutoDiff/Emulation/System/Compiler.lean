import AutoDiff.Emulation.System.CompilerOptions
import AutoDiff.Emulation.System.FileTools

/-!
The C compiler. It makes objects and libraries of the sources that models are written as. What it says when it
refuses to do so is its own.
-/

namespace AutoDiff.Compiler

inductive Product where
  | library | object | assembly | expansion | dependencies
  /-- Only something is shown or checked. -/
  | nothing
  deriving DecidableEq, Repr

inductive Language where
  | c | other | byName
  deriving DecidableEq, Repr

structure Input where
  path : ByteText
  language : Language

structure Request where
  inputs : List Input := []
  output : ByteText := "a.out".toList
  shared : Bool := false
  product : Product := .library
  language : Language := .byName
  macros : List ByteText := []
  headers : List ByteText := []
  /-- Warnings that a source will get, and whether these are errors. -/
  warnings : List String := []
  warningsFail : Bool := false
  dependencies : Bool := false
  /-- The functions of a library are kept for itself. -/
  hidden : Bool := false
  /-- Functions are needed that are nowhere. -/
  incomplete : Bool := false
  refused : Bool := false

namespace Request

def refuse (r : Request) : Request := { r with refused := true }

def demand (r : Request) (holds : Bool) : Request := if holds then r else r.refuse

/-- The earliest of the products that are asked for is made. -/
def make (r : Request) (p : Product) : Request :=
  let rank : Product → Nat
    | .library => 0 | .object => 1 | .assembly => 2 | .expansion => 3 | .dependencies => 4 | .nothing => 5
  if rank r.product < rank p then { r with product := p } else r

end Request

def isIdentifier (t : ByteText) : Bool :=
  t.head?.any (fun ch => ch.isAlpha || ch == '_') && t.all fun ch => ch.isAlphanum || ch == '_'

def isDecimal (t : ByteText) : Bool := !t.isEmpty && t.all Char.isDigit

def decimal (t : ByteText) : Nat := t.foldl (fun n ch => 10 * n + (ch.toNat - '0'.toNat)) 0

/-- What follows a beginning. -/
def after? (start : String) (t : ByteText) : Option ByteText :=
  if start.toList.isPrefixOf t then some (t.drop start.length) else none

def libraries : List String :=
  ["m", "c", "dl", "pthread", "rt", "util", "gcc", "gcc_s", "resolv", "crypt", "anl", "nsl", "mvec", "atomic", "gomp",
    "quadmath", "stdc++", "itm", "ubsan"]

def standardHeaders : List String :=
  ["assert.h", "complex.h", "ctype.h", "errno.h", "fenv.h", "float.h", "inttypes.h", "iso646.h", "limits.h", "locale.h",
    "math.h", "setjmp.h", "signal.h", "stdalign.h", "stdarg.h", "stdatomic.h", "stdbool.h", "stddef.h", "stdint.h",
    "stdio.h", "stdlib.h", "stdnoreturn.h", "string.h", "tgmath.h", "threads.h", "time.h", "uchar.h", "wchar.h",
    "wctype.h", "unistd.h"]

/-- Options of the linker, each by itself. -/
def linkerOptions : List String :=
  ["-s", "-S", "-x", "-X", "-t", "-v", "-E", "-O0", "-O1", "-O2", "-Bsymbolic", "-Bsymbolic-functions", "-Bstatic",
    "-Bdynamic", "--as-needed", "--no-as-needed", "--gc-sections", "--no-gc-sections", "--build-id", "--build-id=none",
    "--build-id=sha1", "--export-dynamic", "--no-export-dynamic", "--hash-style=gnu", "--hash-style=sysv",
    "--hash-style=both", "--eh-frame-hdr", "--relax", "--no-relax", "--warn-common", "--fatal-warnings",
    "--no-fatal-warnings", "--strip-all", "--strip-debug", "--discard-all", "--start-group", "--end-group",
    "--whole-archive", "--no-whole-archive", "--allow-multiple-definition", "--enable-new-dtags",
    "--disable-new-dtags", "--sort-common", "--demangle", "--no-demangle", "--verbose", "--trace", "--stats",
    "--allow-shlib-undefined", "--unresolved-symbols=ignore-all"]

/-- Options of the linker that take the argument after them. -/
def linkerPairs : List String :=
  ["-z", "-rpath", "--rpath", "-soname", "--soname", "-h", "-rpath-link", "--rpath-link", "-e", "--entry", "-u",
    "--undefined", "-L"]

def linkerAccepts : List ByteText → Bool
  | [] => true
  | [option] => joined option
  | option :: value :: rest =>
    if linkerPairs.contains (String.ofList option) then linkerAccepts rest
    else joined option && linkerAccepts (value :: rest)
where
  joined (option : ByteText) : Bool :=
    linkerOptions.contains (String.ofList option)
      || ["-rpath=", "--rpath=", "-soname=", "--soname=", "-z", "-L", "-rpath-link=", "--rpath-link=", "--defsym=", "-u",
        "--undefined="].any fun start => start.toList.isPrefixOf option && start.length < option.length

/-- Options that take a value, joined to them or as the next argument. -/
def pairs : List String :=
  ["-o", "-x", "-D", "-U", "-I", "-L", "-l", "-B", "-A", "-T", "-u", "-z", "-e", "-J", "-include", "-imacros", "-isystem",
    "-idirafter", "-iquote", "-iprefix", "-iwithprefix", "-iwithprefixbefore", "-isysroot", "-MF", "-MT", "-MQ"]

/-- Options that take the next argument as their value. -/
def separatePairs : List String :=
  ["-Xlinker", "-Xassembler", "-Xpreprocessor", "-wrapper", "-aux-info", "-dumpbase", "-dumpdir", "-dumpbase-ext", "--param",
    "--std", "--output", "--define-macro", "--undefine-macro", "--include-directory", "--include", "--imacros", "-imultilib"]

def isValue (kind : String) (value : ByteText) : Bool :=
  match kind.toList with
  | ['*'] => !value.isEmpty
  | '#' :: limit => isDecimal value && (limit.isEmpty || decide (decimal value ≤ decimal limit))
  | words => (words.splitOn ' ').contains value && !value.isEmpty

/-- A language by its name; none of those that are not for the sources of models. -/
def language? (name : ByteText) : Option Language :=
  [("c", .c), ("cpp-output", .c), ("none", .byName), ("c++", .other), ("c++-cpp-output", .other)].lookup (String.ofList name)

/-- The name that a definition on the command line gives a meaning. -/
def macroName (definition : ByteText) : ByteText := definition.takeWhile fun ch => ch ≠ '=' ∧ ch ≠ '('

def isParameter (t : ByteText) : Bool :=
  let name := t.takeWhile (· ≠ '=')
  name.contains '-' && isDecimal (t.drop (name.length + 1))

/-- An option with its value. -/
def pair (r : Request) (option : String) (value : ByteText) : Request :=
  match option with
  | "-o" | "--output" => { r with output := value }.demand (!value.isEmpty)
  | "-x" =>
    match language? value with
    | some language => { r with language }
    | none => r.refuse
  | "-D" | "--define-macro" =>
    { r with macros := r.macros ++ [macroName value] }.demand (isIdentifier (macroName value))
  | "-U" | "--undefine-macro" => r.demand (isIdentifier value)
  | "-l" => r.demand (libraries.contains (String.ofList value))
  | "-include" | "-imacros" | "--include" | "--imacros" => { r with headers := r.headers ++ [value] }
  | "-A" | "-T" => r.refuse
  | "-isysroot" => r.demand (decide (value = ['/']))
  | "-MF" | "-MT" | "-MQ" => r.demand r.dependencies
  | "-Xlinker" => r.demand (linkerAccepts [value])
  | "-Xassembler" => r.demand (value.isEmpty || value.head? != some '-')
  | "--std" => r.demand (isValue ((CompilerOptions.valued.lookup "-std").getD "") value)
  | "--param" => r.demand (isParameter value)
  | "-wrapper" => r.make .nothing
  | _ => r

def isFeature (on off both : List String) (name : ByteText) : Bool :=
  let known (names : List String) (t : ByteText) : Bool := names.contains (String.ofList t)
  match after? "no-" name with
  | some rest => known both rest || known off rest || known both name || known on name
  | none => known both name || known on name

/-- An option on warnings, after `-W`. -/
def warning (r : Request) (name : ByteText) : Request :=
  let known (t : ByteText) : Bool :=
    let plain := t.takeWhile (· ≠ '=')
    CompilerOptions.warnings.contains (String.ofList plain) || plain = "abi".toList
  let isWarned (t : ByteText) : Bool := CompilerOptions.warned.contains (String.ofList t)
  match after? "l," name, after? "a," name, after? "p," name, after? "error=" name, after? "no-error=" name, after? "no-" name with
  | some options, _, _, _, _, _ => r.demand (linkerAccepts (options.splitOn ','))
  | _, some _, _, _, _, _ => r
  | _, _, some _, _, _, _ => r
  | _, _, _, some t, _, _ => (r.demand (known t)).demand (!isWarned t)
  | _, _, _, _, some t, _ => r.demand (known t)
  | _, _, _, _, _, some t =>
    if t = "error".toList then { r with warningsFail := false }
    else { r with warnings := r.warnings.filter (· ≠ String.ofList t) }
  | _, _, _, _, _, none =>
    if name = "error".toList then { r with warningsFail := true }
    else if name = "fatal-errors".toList then r
    else
      let r := r.demand (CompilerOptions.warnings.contains (String.ofList name) || isWarned name)
      if isWarned name then { r with warnings := String.ofList name :: r.warnings } else r

/-- Options that decide what is made. -/
def productOf? (option : String) : Option Product :=
  [("-c", .object), ("--compile", .object), ("-S", .assembly), ("--assemble", .assembly), ("-E", .expansion),
    ("--preprocess", .expansion), ("-M", .dependencies), ("-MM", .dependencies), ("--dependencies", .dependencies),
    ("--user-dependencies", .dependencies), ("-fsyntax-only", .nothing), ("-###", .nothing), ("--help", .nothing),
    ("--version", .nothing), ("--target-help", .nothing), ("-fhelp", .nothing), ("-fversion", .nothing),
    ("-ftarget-help", .nothing), ("-dumpversion", .nothing), ("-dumpfullversion", .nothing), ("-dumpmachine", .nothing),
    ("-dumpspecs", .nothing), ("-print-search-dirs", .nothing), ("-print-libgcc-file-name", .nothing),
    ("-print-multi-directory", .nothing), ("-print-multi-lib", .nothing), ("-print-multi-os-directory", .nothing),
    ("-print-multiarch", .nothing), ("-print-sysroot", .nothing), ("--print-search-dirs", .nothing)].lookup option

/-- An option with a value after an equals sign. -/
def valued? (t : ByteText) : Option Bool := do
  let name := t.takeWhile (· ≠ '=')
  if name.length = t.length then none
  let kind ← CompilerOptions.valued.lookup (String.ofList (if "--std".toList = name then "-std".toList else name))
  return isValue kind (t.drop (name.length + 1))

def isOptimization (level : ByteText) : Bool := isDecimal level

/-- An option that stands by itself. -/
def single (r : Request) (t : ByteText) : Request :=
  let option := String.ofList t
  if let some p := productOf? option then { r.make p with dependencies := r.dependencies || p = .dependencies }
  else if option = "-shared" ∨ option = "--shared" then { r with shared := true }
  else if ["-MD", "-MMD", "--write-dependencies", "--write-user-dependencies"].contains option then
    { r with dependencies := true }
  else if option = "-MP" ∨ option = "-MG" then r.demand r.dependencies
  else if option = "-fwhole-program" then { r with hidden := true }
  else if option = "-fleading-underscore" ∨ option = "-mstack-arg-probe" then { r with incomplete := true }
  else if CompilerOptions.plain.contains option || CompilerOptions.debugging.contains option then r
  else if ["-print-file-name=", "-print-prog-name=", "--print-file-name=", "--print-prog-name=", "--help="].any fun start =>
      (after? start t).any (!·.isEmpty) then r.make .nothing
  else if let some accepted := valued? t then r.demand accepted
  else if let some name := after? "-W" t then warning r name
  else if let some level := after? "-O" t then r.demand (isOptimization level)
  else if (after? "-fno-builtin-" t).any (!·.isEmpty) then r
  else if let some name := after? "-f" t then
    r.demand (isFeature CompilerOptions.featuresOn CompilerOptions.featuresOff CompilerOptions.features name)
  else if let some name := after? "-m" t then
    r.demand (isFeature CompilerOptions.machineOn CompilerOptions.machineOff CompilerOptions.machine name)
  else if (after? "-d" t).any (!·.isEmpty) then r
  else if let some parameter := after? "--param=" t then r.demand (isParameter parameter)
  else if (after? "--sysroot=" t).any (· = ['/']) then r
  else match pairs.find? fun start => (after? start t).any (!·.isEmpty) with
    | some start => pair r start (t.drop start.length)
    | none => r.refuse

def takesNext (t : ByteText) : Bool := pairs.contains (String.ofList t) || separatePairs.contains (String.ofList t)

def isOption (t : ByteText) : Bool := t.head? == some '-' && 1 < t.length

def read : Request → List ByteText → Request
  | r, [] => r
  | r, t :: rest =>
    if !isOption t then read { r with inputs := r.inputs ++ [⟨t, r.language⟩] } rest
    else match takesNext t, rest with
      | true, value :: rest => read (pair r (String.ofList t) value) rest
      | true, [] => r.refuse
      | false, rest => read (single r t) rest

/-! ### Inputs -/

/-- What an input adds to a library. -/
inductive Piece where
  | code (unit : CSource.TranslationUnit)
  | library (unit : CSource.TranslationUnit)

def withoutSymbols : CSource.TranslationUnit := ⟨"", [], []⟩

/-- Whether a text has nothing but blanks, comments and lines for the preprocessor. -/
def isVoid : Nat → ByteText → Bool
  | 0, _ => false
  | fuel + 1, t =>
    match t.dropWhile (·.isWhitespace) with
    | [] => true
    | '#' :: rest => isVoid fuel (rest.dropWhile (· ≠ '\n'))
    | '/' :: '/' :: rest => isVoid fuel (rest.dropWhile (· ≠ '\n'))
    | '/' :: '*' :: rest => (closed rest).any (isVoid fuel)
    | _ => false
where
  closed : ByteText → Option ByteText
    | '*' :: '/' :: rest => some rest
    | _ :: rest => closed rest
    | [] => none

def identifiers (t : ByteText) : List ByteText :=
  (t.splitBy fun a b => (a.isAlphanum || a == '_') == (b.isAlphanum || b == '_')).filter isIdentifier

/-- A source as code. Definitions on the command line must not touch it. -/
def compile? (r : Request) : Content → Option CSource.TranslationUnit
  | .source unit =>
    let touched := !r.macros.isEmpty
      && (identifiers (unit.text.toList.dropWhile (· ≠ '\n'))).any fun name =>
        r.macros.contains name && name != "ADCG_EXPORT".toList
    let failed := r.warningsFail && !r.warnings.isEmpty
    if touched || failed then none else some (if r.hidden then withoutSymbols else unit)
  | .bytes data =>
    let t := ByteText.ofBytes data.toList
    if isVoid (t.length + 1) t then some withoutSymbols else none
  | _ => none

def suffix (p : ByteText) : String :=
  let name := FileTools.baseName p
  if name.contains '.' then String.ofList (name.reverse.takeWhile (· ≠ '.')).reverse else ""

def piece? (r : Request) (i : Input) (content : Content) : Option Piece :=
  let language := match i.language, suffix i.path with
    | .byName, "c" | .byName, "i" => Language.c
    | .byName, "cc" | .byName, "cpp" | .byName, "cxx" | .byName, "C" => .other
    | language, _ => language
  match language, content with
  | .c, content => (compile? r content).map .code
  | .other, content => (compile? r content).map fun _ => .code withoutSymbols
  | .byName, .object unit => some (.code unit)
  | .byName, .library unit => some (.library unit)
  | .byName, .source unit => if suffix i.path = "s" then some (.code unit) else none
  | .byName, _ => none

def content? (c : Call) (m : Machine) (p : ByteText) : Option Content :=
  match c.find m p with
  | .ok (.file content _) => some content
  | .ok .sink => some .empty
  | _ => none

def pieces? (c : Call) (m : Machine) (r : Request) : Option (List Piece) :=
  r.inputs.mapM fun i => (content? c m i.path).bind (piece? r i)

def joined (a b : CSource.TranslationUnit) : CSource.TranslationUnit :=
  ⟨a.title, a.constants ++ b.constants, a.kernels ++ b.kernels⟩

/-- Pieces as one library. No two pieces of code may have a function of the same name. -/
def link? (pieces : List Piece) : Option CSource.TranslationUnit :=
  let code := pieces.filterMap fun | .code unit => some unit | .library _ => none
  let others := pieces.filterMap fun | .library unit => some unit | .code _ => none
  let whole := match code with
    | unit :: units => units.foldl joined unit
    | [] => withoutSymbols
  if whole.symbols.Nodup then some (others.foldl joined whole) else none

/-! ### Running -/

def headersFound (c : Call) (m : Machine) (r : Request) : Bool :=
  r.headers.all fun header =>
    standardHeaders.contains (String.ofList header) || (content? c m header).any fun content =>
      isVoid (content.byteText.length + 1) content.byteText

/-- What a run makes, if nothing is wrong. -/
def made? (c : Call) (m : Machine) (r : Request) : Option Content := do
  if !headersFound c m r then none
  let pieces ← pieces? c m r
  let code := pieces.filterMap fun | .code unit => some unit | .library _ => none
  match r.product, code with
  | .library, _ => if r.shared then return (if r.incomplete then Content.object else Content.library) (← link? pieces) else none
  | .object, [unit] => return .object unit
  | .assembly, [unit] | .expansion, [unit] => return .source unit
  | .dependencies, [_] => return .ofText "dependencies\n"
  | _, _ => none

def write (c : Call) (p : ByteText) (content : Content) (executable : Bool) (d : Disk) : Except IoError Disk := do
  let l ← d.locate c.directory (Call.path p)
  match d.entry? l with
  | some .sink => return d
  | _ =>
    d.checkTarget l
    return d.insert l (.file content executable)

def fail (c : Call) : Running Nat := do
  c.mumble
  return 1

def run (c : Call) : Running Nat := do
  let r := read {} c.arguments
  if r.refused then fail c
  else if r.product = .nothing then
    c.mumbleTo 1
    return 0
  else if r.inputs.isEmpty then fail c
  else
    match made? c (← get) r with
    | none => fail c
    | some content =>
      match ← Call.act (write c r.output content (decide (r.product = .library))) with
      | .ok () => return 0
      | .error _ => fail c

end AutoDiff.Compiler
