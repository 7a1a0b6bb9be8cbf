import AutoDiff.Emulation.System.Format
import AutoDiff.Emulation.System.Options

/-!
Programs that make, copy, move, list and remove files.
-/

namespace AutoDiff.FileTools

/-- A name in an error. -/
def quoted (name : ByteText) : ByteText := if name.contains '\'' then ['"'] ++ name ++ ['"'] else ['\''] ++ name ++ ['\'']

def locate (c : Call) (m : Machine) (p : ByteText) : Except IoError Location := m.disk.locate c.directory (Call.path p)

def slashes (p : ByteText) : ByteText := ((p.reverse.dropWhile (· = '/')).reverse)

/-- The last part of a path. -/
def baseName (p : ByteText) : ByteText :=
  if p.isEmpty then [] else if (slashes p).isEmpty then ['/'] else ((slashes p).reverse.takeWhile (· ≠ '/')).reverse

/-- The path without its last part. -/
def directoryName (p : ByteText) : ByteText :=
  let whole := slashes p
  let before := (whole.reverse.dropWhile (· ≠ '/')).reverse
  if before.isEmpty then (if p.head? = some '/' then ['/'] else ['.'])
  else if (slashes before).isEmpty then ['/'] else slashes before

def inside (directory name : ByteText) : ByteText :=
  if directory.getLast? = some '/' then directory ++ name else directory ++ '/' :: name

def locationText (l : Location) : ByteText :=
  if l.isEmpty then ['/'] else (l.map fun name => '/' :: ByteText.ofString name).flatten

/-- Works on operands one after another; the number of the end is the greatest. -/
def each (operands : List ByteText) (work : ByteText → Running Nat) : Running Nat :=
  operands.foldlM (fun code operand => return max code (← work operand)) 0

/-- Complains about a failed step. -/
def report (c : Call) (result : Except IoError Unit) (what : ByteText) : Running Nat := do
  match result with
  | .ok () => return 0
  | .error e =>
    c.complain (what ++ [':', ' '] ++ .ofString e.text)
    return 1

def missingOperand (c : Call) : Running Nat := c.misuse 1 "missing operand"

/-! Making and removing -/

def makeDirectory (c : Call) (p : ByteText) : Running Nat := do
  let result ← Call.act fun d => d.makeDirectory c.directory (Call.path p)
  report c result (.ofString "cannot create directory " ++ quoted p)

/-- The beginnings of a path, up to the whole of it. -/
def prefixes (p : ByteText) : List ByteText :=
  ((List.range p.length).filter fun n => p[n]? = some '/' ∧ 0 < n).map (p.take ·) ++ [p]

/-- Makes a directory and those that it stands in. -/
def makeDirectories (c : Call) (p : ByteText) : Running Nat := do
  let mut code := 0
  for beginning in prefixes (slashes p) do
    if code = 0 then
      let m ← get
      unless m.disk.isDirectory c.directory (Call.path beginning) do
        let result ← Call.act fun d => d.makeDirectory c.directory (Call.path beginning)
        code ← report c result (.ofString "cannot create directory " ++ quoted beginning)
  return code

def mkdir (c : Call) : Running Nat :=
  c.withOptions ⟨"pm:vZ", [("parents", 'p', false), ("mode", 'm', true), ("verbose", 'v', false)], false⟩ 1 fun o =>
    if o.operands.isEmpty then missingOperand c
    else each o.operands (if o.has 'p' then makeDirectories c else makeDirectory c)

def removeEmpty (c : Call) (p : ByteText) : Running Nat := do
  let result ← Call.act fun d => do
    let l ← d.locate c.directory (Call.path p)
    match d.entry? l with
    | none => throw .notFound
    | some .directory => if (d.names l).isEmpty then return d.erase l else throw .notEmpty
    | some _ => throw .notDirectory
  report c result (.ofString "failed to remove " ++ quoted p)

def rmdir (c : Call) : Running Nat :=
  c.withOptions ⟨"pv", [("parents", 'p', false), ("verbose", 'v', false)], false⟩ 1 fun o =>
    if o.operands.isEmpty then missingOperand c else each o.operands (removeEmpty c)

def isDots (p : ByteText) : Bool := baseName p == ['.'] || baseName p == ['.', '.']

def remove (c : Call) (o : Options) (p : ByteText) : Running Nat := do
  let m ← get
  let recursive := o.has 'r' || o.has 'R'
  match c.find m p with
  | .error e =>
    if o.has 'f' ∧ (e = .notFound ∨ e = .notDirectory) then return 0
    else report c (.error e) (.ofString "cannot remove " ++ quoted p)
  | .ok .directory =>
    if recursive then
      if isDots p then
        c.complain (.ofString "refusing to remove '.' or '..' directory: skipping " ++ quoted p)
        return 1
      report c (← Call.act fun d => d.remove c.directory (Call.path p)) (.ofString "cannot remove " ++ quoted p)
    else if o.has 'd' then
      let empty := match locate c m p with
        | .ok l => (m.disk.names l).isEmpty
        | .error _ => false
      if empty then removeEmpty c p
      else report c (.error .notEmpty) (.ofString "cannot remove " ++ quoted p)
    else report c (.error .isDirectory) (.ofString "cannot remove " ++ quoted p)
  | .ok _ =>
    report c (← Call.act fun d => d.remove c.directory (Call.path p)) (.ofString "cannot remove " ++ quoted p)

def rm (c : Call) : Running Nat :=
  c.withOptions ⟨"dfirvIR", [("force", 'f', false), ("recursive", 'r', false), ("dir", 'd', false),
      ("verbose", 'v', false)], false⟩ 1 fun o =>
    if o.operands.isEmpty then (if o.has 'f' then pure 0 else missingOperand c)
    else each o.operands (remove c o)

def touchOne (c : Call) (o : Options) (p : ByteText) : Running Nat := do
  let m ← get
  match locate c m p with
  | .error e => report c (.error e) (.ofString "cannot touch " ++ quoted p)
  | .ok l =>
    if (m.disk.entry? l).isSome || o.has 'c' then return 0
    report c (← Call.act fun d => do d.checkTarget l; return d.put l .empty) (.ofString "cannot touch " ++ quoted p)

def touch (c : Call) : Running Nat :=
  c.withOptions ⟨"acd:fhmr:t:", [("no-create", 'c', false), ("date", 'd', true), ("reference", 'r', true)], false⟩ 1 fun o =>
    if o.operands.isEmpty then c.misuse 1 "missing file operand" else each o.operands (touchOne c o)

/-! Copying and moving -/

/-- Where a file goes that is copied or moved to an operand: into it, if that is a directory. -/
def destination (c : Call) (m : Machine) (into : Bool) (source target : ByteText) : ByteText :=
  if into && m.disk.isDirectory c.directory (Call.path target) then inside target (baseName source) else target

/-- Copies a tree to a location; what is there of it is replaced. -/
def copyTree (d : Disk) (source target : Location) : Disk :=
  (d.entries.filter fun (k, _) => source.isPrefixOf k).reverse.foldl
    (fun d (k, e) =>
      let l := target ++ k.drop source.length
      if d.entry? l = some .directory then d else d.insert l e) d

/-- A file that is replaced keeps its mode, unless the mode is to be copied as well. -/
def copyFile (d : Disk) (target : Location) (content : Content) (executable keepMode : Bool) : Disk :=
  match d.entry? target with
  | none => d.insert target (.file content executable)
  | some _ => if keepMode then (d.put target content).setMode target executable else d.put target content

def copy (c : Call) (o : Options) (source target : ByteText) : Running Nat := do
  let m ← get
  let recursive := o.has 'r' || o.has 'R' || o.has 'a'
  let keepMode := o.has 'p' || o.has 'a'
  match c.find m source with
  | .error e => report c (.error e) (.ofString "cannot stat " ++ quoted source)
  | .ok .directory =>
    if !recursive then
      c.complain (.ofString "-r not specified; omitting directory " ++ quoted source)
      return 1
    match locate c m source, locate c m (destination c m (!o.has 'T') source target) with
    | .ok from?, .ok to? =>
      match m.disk.entry? to? with
      | some (.file _ _) =>
        c.complain (.ofString "cannot overwrite non-directory " ++ quoted target ++ .ofString " with directory " ++ quoted source)
        return 1
      | _ =>
        set { m with disk := copyTree m.disk from? to? }
        return 0
    | _, .error e | .error e, _ => report c (.error e) (.ofString "cannot create directory " ++ quoted target)
  | .ok entry =>
    let goal := destination c m (!o.has 'T') source target
    let (content, executable) := match entry with
      | .file content executable => (content, executable)
      | _ => (.empty, false)
    match locate c m source, locate c m goal with
    | .ok a, .ok b =>
      if a = b then
        c.complain (quoted source ++ .ofString " and " ++ quoted goal ++ .ofString " are the same file")
        return 1
      if o.has 'n' ∧ (m.disk.entry? b).isSome then return 0
      match m.disk.checkTarget b with
      | .error .isDirectory =>
        c.complain (.ofString "cannot overwrite directory " ++ quoted goal ++ .ofString " with non-directory")
        return 1
      | .error e => report c (.error e) (.ofString "cannot create regular file " ++ quoted goal)
      | .ok () =>
        set { m with disk := copyFile m.disk b content executable keepMode }
        return 0
    | _, .error e | .error e, _ => report c (.error e) (.ofString "cannot create regular file " ++ quoted goal)

def move (c : Call) (o : Options) (source target : ByteText) : Running Nat := do
  let m ← get
  let goal := destination c m (!o.has 'T') source target
  match locate c m source, locate c m goal with
  | .error e, _ => report c (.error e) (.ofString "cannot stat " ++ quoted source)
  | .ok a, result =>
    if (m.disk.entry? a).isNone then report c (.error .notFound) (.ofString "cannot stat " ++ quoted source)
    else match result with
      | .error e =>
        report c (.error e) (.ofString "cannot move " ++ quoted source ++ .ofString " to " ++ quoted goal)
      | .ok b =>
        if a = b then
          c.complain (quoted source ++ .ofString " and " ++ quoted goal ++ .ofString " are the same file")
          return 1
        if o.has 'n' ∧ (m.disk.entry? b).isSome then return 0
        report c (← Call.act fun d => d.rename a b)
          (.ofString "cannot move " ++ quoted source ++ .ofString " to " ++ quoted goal)

/-- Copies or moves operands to the last of them. -/
def transfer (c : Call) (o : Options) (one : ByteText → ByteText → Running Nat) : Running Nat := do
  let m ← get
  match o.value? 't', o.operands with
  | _, [] => c.misuse 1 "missing file operand"
  | some target, sources => each sources fun source => one source target
  | none, [source] => do
    c.complain (.ofString "missing destination file operand after " ++ quoted source)
    c.hint
    return 1
  | none, [source, target] => one source target
  | none, operands =>
    let target := operands.getLastD []
    match c.find m target with
    | .ok .directory => each operands.dropLast fun source => one source target
    | .ok _ => report c (.error .notDirectory) (.ofString "target " ++ quoted target)
    | .error e => report c (.error e) (.ofString "target " ++ quoted target)

def cp (c : Call) : Running Nat :=
  c.withOptions ⟨"abdfHilLnprst:uvxPRS:TZ", [("archive", 'a', false), ("force", 'f', false), ("recursive", 'r', false),
      ("no-clobber", 'n', false), ("target-directory", 't', true), ("no-target-directory", 'T', false),
      ("verbose", 'v', false)], false⟩ 1 fun o => transfer c o (copy c o)

def mv (c : Call) : Running Nat :=
  c.withOptions ⟨"bfint:uvS:TZ", [("force", 'f', false), ("no-clobber", 'n', false), ("target-directory", 't', true),
      ("no-target-directory", 'T', false), ("verbose", 'v', false)], false⟩ 1 fun o => transfer c o (move c o)

/-- Another name for a file is a copy of it. -/
def link (c : Call) (o : Options) (source target : ByteText) : Running Nat := do
  let m ← get
  let goal := destination c m (!o.has 'T') source target
  match c.find m source, locate c m goal with
  | .error e, _ => report c (.error e) (.ofString "failed to access " ++ quoted source)
  | _, .error e =>
    report c (.error e) (.ofString "failed to create hard link " ++ quoted goal)
  | .ok entry, .ok l =>
    if (m.disk.entry? l).isSome ∧ !o.has 'f' then
      let kind := if o.has 's' then "symbolic" else "hard"
      report c (.error .alreadyExists) (.ofString ("failed to create " ++ kind ++ " link ") ++ quoted goal)
    else match m.disk.checkTarget l with
      | .error e => report c (.error e) (.ofString "failed to create hard link " ++ quoted goal)
      | .ok () =>
        set { m with disk := m.disk.insert l entry }
        return 0

def ln (c : Call) : Running Nat :=
  c.withOptions ⟨"bdfinrst:vFLPS:T", [("symbolic", 's', false), ("force", 'f', false)], false⟩ 1 fun o => transfer c o (link c o)

/-! Modes -/

/-- Whether files can be run after a change of their mode. -/
def modeChange? (mode : ByteText) : Option (Bool → Bool) :=
  if !mode.isEmpty ∧ mode.all (fun ch => '0' ≤ ch ∧ ch ≤ '7') then
    some fun _ => mode.any fun ch => ch == '1' || ch == '3' || ch == '5' || ch == '7'
  else
    let clause (part : ByteText) : Option (Bool → Bool) :=
      let who := part.takeWhile fun ch => "ugoa".toList.contains ch
      match part.drop who.length with
      | operator :: permissions =>
        if permissions.all (fun ch => "rwxXst".toList.contains ch) then
          let named := permissions.contains 'x'
          match operator with
          | '+' => some fun executable => executable || named
          | '-' => some fun executable => executable && !named
          | '=' => some fun _ => named
          | _ => none
        else none
      | [] => none
    ((mode.splitOn ',').mapM clause).map fun changes executable => changes.foldl (fun x change => change x) executable

def changeMode (c : Call) (change : Bool → Bool) (p : ByteText) : Running Nat := do
  let m ← get
  match c.find m p, locate c m p with
  | .ok (.file _ executable), .ok l =>
    set { m with disk := m.disk.setMode l (change executable) }
    return 0
  | .error e, _ => report c (.error e) (.ofString "cannot access " ++ quoted p)
  | _, _ => return 0

/-- Options of a change of modes: a mode may begin with a hyphen, so that the letters of modes are options as
well, and take the rest of their argument. -/
def modeOptions (o : Options) : List ByteText → Options
  | [] => o
  | argument :: rest =>
    if o.fault?.isSome || o.isAbout then o
    else
      match argument with
      | ['-', '-'] => { o with operands := o.operands ++ rest }
      | '-' :: '-' :: name => modeOptions ((modeTable.named o none name).1) rest
      | '-' :: letter :: letters =>
        let plain := (letter :: letters).takeWhile "Rcfv".toList.contains
        let o := plain.foldl (·.add · []) o
        match (letter :: letters).drop plain.length with
        | [] => modeOptions o rest
        | mode :: _ =>
          modeOptions (if "rwxXstugoa,+=01234567".toList.contains mode then o.add 'm' argument
            else o.stop ("invalid option -- '" ++ mode.toString ++ "'")) rest
      | operand => modeOptions { o with operands := o.operands ++ [operand] } rest
where
  modeTable : OptionTable :=
    ⟨"", [("changes", 'c', false), ("quiet", 'f', false), ("recursive", 'R', false), ("silent", 'f', false), ("verbose", 'v', false)],
      false⟩

def chmod (c : Call) : Running Nat := do
  let o := modeOptions {} c.arguments
  let (given, operands) := match o.values 'm', o.operands with
    | [], operands => (operands.head?, operands.tail)
    | modes, operands => (some (ByteText.joinWith [','] modes), operands)
  match o.fault?, given, operands with
  | some message, _, _ => c.misuse 1 message
  | none, given, operands =>
    if o.isAbout then
      c.mumbleTo 1
      return 0
    match given, operands with
    | some mode, [] =>
      if (o.values 'm').isEmpty then c.misuse 1 ("missing operand after " ++ (quoted mode).text) else missingOperand c
    | none, _ => missingOperand c
    | some mode, operands =>
      match modeChange? mode with
      | none => c.misuse 1 ("invalid mode: " ++ (quoted mode).text)
      | some change => each operands (changeMode c change)

def install (c : Call) : Running Nat :=
  c.withOptions ⟨"bcCDdm:o:g:pst:T", [("mode", 'm', true), ("directory", 'd', false)], false⟩ 1 fun o =>
    if o.has 'd' then each o.operands (makeDirectories c)
    else transfer c o fun source target => do
      let code ← copy c o source target
      if code = 0 then
        let m ← get
        changeMode c ((modeChange? ((o.value? 'm').getD ['7'])).getD fun _ => true)
          (destination c m true source target)
      else return code

/-! Listing and naming -/

def visible (o : Options) (name : String) : Bool := o.has 'a' || o.has 'A' || !name.startsWith "."

def listed (o : Options) (d : Disk) (l : Location) : List ByteText :=
  (if o.has 'a' then [['.'], ['.', '.']] else []) ++ ByteText.sort (((d.names l).filter (visible o)).map .ofString)

def ls (c : Call) : Running Nat :=
  c.withOptions ⟨"abcdfghiklmnopqrstuvw:xABCDFGHI:LNQRST:UXZ1", [("all", 'a', false), ("directory", 'd', false),
      ("almost-all", 'A', false)], false⟩ 2 fun o => do
    let m ← get
    let operands := if o.operands.isEmpty then [['.']] else o.operands
    let mut code := 0
    for p in operands do
      if let .error e := c.find m p then
        c.complain (.ofString "cannot access " ++ quoted p ++ [':', ' '] ++ .ofString e.text)
        code := 2
    let isListed (p : ByteText) : Bool := !o.has 'd' && m.disk.isDirectory c.directory (Call.path p)
    let files := operands.filter fun p => (c.find m p).isOk && !isListed p
    let directories := ByteText.sort (operands.filter isListed)
    for p in ByteText.sort files do c.print (p ++ ['\n'])
    for (p, i) in directories.zipIdx do
      if 1 < operands.length then
        c.print ((if i = 0 ∧ files.isEmpty then [] else ['\n']) ++ p ++ [':', '\n'])
      match locate c m p with
      | .ok l => for name in listed o m.disk l do c.print (name ++ ['\n'])
      | .error _ => pure ()
    return code

def pwd (c : Call) : Running Nat :=
  c.withOptions ⟨"LP", [("logical", 'L', false), ("physical", 'P', false)], false⟩ 1 fun o => do
    unless o.operands.isEmpty do c.complainText "ignoring non-option arguments"
    c.print (locationText c.directory ++ ['\n'])
    return 0

def basename (c : Call) : Running Nat :=
  c.withOptions ⟨"as:z", [("multiple", 'a', false), ("suffix", 's', true)], true⟩ 1 fun o => do
    let cut (name suffix : ByteText) : ByteText :=
      if suffix.isSuffixOf name ∧ suffix ≠ name then name.take (name.length - suffix.length) else name
    match o.operands with
    | [] => missingOperand c
    | operand :: rest =>
      if o.has 'a' || o.has 's' then
        for p in o.operands do c.print (cut (baseName p) ((o.value? 's').getD []) ++ ['\n'])
        return 0
      else match rest with
        | _ :: extra :: _ => do
          c.complain (.ofString "extra operand " ++ quoted extra)
          c.hint
          return 1
        | _ =>
          c.print (cut (baseName operand) (rest.headD []) ++ ['\n'])
          return 0

def dirname (c : Call) : Running Nat :=
  c.withOptions ⟨"z", [("zero", 'z', false)], false⟩ 1 fun o => do
    if o.operands.isEmpty then missingOperand c
    else
      for p in o.operands do c.print (directoryName p ++ ['\n'])
      return 0

/-- Prints where operands are. -/
def realpath (c : Call) : Running Nat :=
  c.withOptions ⟨"eEmsqzLP", [], false⟩ 1 fun o => do
    if o.operands.isEmpty then missingOperand c
    else each o.operands fun p => do
      match locate c (← get) p with
      | .ok l =>
        c.print (locationText l ++ ['\n'])
        return 0
      | .error e => report c (.error e) p

/-- Prints what operands lead to. Nothing does by itself; `f` asks where they are. -/
def readlink (c : Call) : Running Nat :=
  c.withOptions ⟨"efmnqsvz", [("canonicalize", 'f', false)], false⟩ 1 fun o => do
    if o.operands.isEmpty then missingOperand c
    else each o.operands fun p => do
      let m ← get
      let found : Except IoError Location := do
        if o.has 'e' then let _ ← c.find m p
        if o.has 'f' || o.has 'e' || o.has 'm' then locate c m p
        else
          let _ ← c.find m p
          throw .invalid
      match found with
      | .ok l =>
        c.print (locationText l ++ (if o.has 'n' then [] else ['\n']))
        return 0
      | .error e => if o.has 'v' then report c (.error e) p else return 1

def mktemp (c : Call) : Running Nat :=
  c.withOptions ⟨"dp:qtu", [("directory", 'd', false)], false⟩ 1 fun o => do
    let m ← get
    let directory := (o.value? 'p').getD (.ofString "/tmp")
    let p := inside directory (.ofString (toString ("tmp." ++ toString m.disk.entries.length)))
    match locate c m p with
    | .error e => report c (.error e) (.ofString "failed to create file via template " ++ quoted p)
    | .ok l =>
      set { m with disk := m.disk.insert l (if o.has 'd' then .directory else .file .empty false) }
      c.print (p ++ ['\n'])
      return 0

end AutoDiff.FileTools
