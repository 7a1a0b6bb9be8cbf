import AutoDiff.CSource.Text
import AutoDiff.Path
import AutoDiff.Text.ByteText

namespace AutoDiff

inductive IoError where
  | notFound
  | notDirectory
  | isDirectory
  | alreadyExists
  | notEmpty
  | permissionDenied
  | notExecutable
  | nameTooLong
  | tooManyLinks
  | invalid
  | nulByte
  | nulData
  | notText
  | noSpace
  deriving DecidableEq, Repr

namespace IoError

/-- The wording of an error, and its number where the machine has one for it. -/
def description : IoError → String × Option Nat
  | notFound => ("No such file or directory", some 2)
  | notDirectory => ("Not a directory", some 20)
  | isDirectory => ("Is a directory", some 21)
  | alreadyExists => ("File exists", some 17)
  | notEmpty => ("Directory not empty", some 39)
  | permissionDenied => ("Permission denied", some 13)
  | notExecutable => ("Exec format error", some 8)
  | nameTooLong => ("File name too long", some 36)
  | tooManyLinks => ("Too many levels of symbolic links", some 40)
  | invalid => ("Invalid argument", some 22)
  | nulByte => ("file name contained an unexpected NUL byte", none)
  | nulData => ("nul byte found in provided data", none)
  | notText => ("stream did not contain valid UTF-8", none)
  | noSpace => ("No space left on device", some 28)

def text (e : IoError) : String := e.description.1

def message (e : IoError) : String :=
  match e.description with
  | (text, some number) => s!"{text} (os error {number})"
  | (text, none) => text

end IoError

/-- What a file holds. Sources, and the objects and libraries built from them, keep their structure. -/
inductive Content where
  | bytes (data : Array UInt8)
  | source (unit : CSource.TranslationUnit)
  | object (unit : CSource.TranslationUnit)
  | library (unit : CSource.TranslationUnit)
  /-- A program of the system, known by its name. -/
  | program (name : String)
  deriving DecidableEq

namespace Content

def ofText (text : String) : Content := bytes text.toUTF8.data

/-- The text of a file; what was built from a source and a program have none. -/
def text? : Content → Option String
  | bytes data => String.fromUTF8? ⟨data⟩
  | source unit => some unit.text
  | object _ | library _ | program _ => none

def empty : Content := bytes #[]

/-- The bytes of a file; of what was built from a source and of a program only their mark is known. -/
def byteText : Content → ByteText
  | bytes data => .ofBytes data.toList
  | source unit => .ofString unit.text
  | object _ | library _ | program _ => ['\x7f', 'E', 'L', 'F']

def ofByteText (t : ByteText) : Content := bytes t.toBytes.toArray

/-- One content after another. What stands alone keeps its structure. -/
def append (a b : Content) : Content :=
  if a = empty then b else if b = empty then a else .ofByteText (a.byteText ++ b.byteText)

end Content

inductive Entry where
  | directory
  | file (content : Content) (executable : Bool)
  /-- What is written to it is lost, and there is nothing to read. -/
  | sink
  deriving DecidableEq

namespace Entry

def isFile : Entry → Bool
  | file _ _ => true
  | directory | sink => false

end Entry

abbrev Location := List String

structure Disk where
  entries : List (Location × Entry) := []
  deriving DecidableEq

namespace Disk

/-- The root is always there. -/
def entry? (d : Disk) (l : Location) : Option Entry :=
  if l = [] then some .directory else d.entries.lookup l

def erase (d : Disk) (l : Location) : Disk := ⟨d.entries.filter (·.1 ≠ l)⟩

def insert (d : Disk) (l : Location) (e : Entry) : Disk := ⟨(l, e) :: (d.erase l).entries⟩

/-- The names in a directory. -/
def names (d : Disk) (l : Location) : List String :=
  d.entries.filterMap fun (k, _) =>
    match k.getLast? with
    | some name => if k = l ++ [name] then some name else none
    | none => none

/-- Follows parts from a location. Every location before the last has to be a directory. -/
def walk (d : Disk) (l : Location) : List String → Except IoError Location
  | [] => .ok l
  | part :: parts =>
    match d.entry? l with
    | none => .error .notFound
    | some .directory =>
      if part = "" ∨ part = "." then d.walk l parts
      else if part = ".." then d.walk l.dropLast parts
      else if 255 < part.utf8ByteSize then .error .nameTooLong
      else d.walk (l ++ [part]) parts
    | some _ => .error .notDirectory

def start (workingDirectory : Location) (p : Path) : Location × List String :=
  if p.isAbsolute then ([], p.parts.drop 1) else (workingDirectory, p.parts)

/-- What is wrong with a path whatever is on the disk. -/
def checkPath (p : Path) : Except IoError Unit :=
  if p.text.toList.contains '\x00' then .error .nulByte
  else if p.text.isEmpty then .error .notFound
  else if 4096 ≤ p.text.utf8ByteSize then .error .nameTooLong
  else .ok ()

/-- The location a path leads to, which need not exist. -/
def locate (d : Disk) (workingDirectory : Location) (p : Path) : Except IoError Location := do
  checkPath p
  let (l, parts) := start workingDirectory p
  d.walk l parts

def find (d : Disk) (workingDirectory : Location) (p : Path) : Except IoError Entry := do
  match d.entry? (← d.locate workingDirectory p) with
  | some e => return e
  | none => throw .notFound

def isPresent (d : Disk) (workingDirectory : Location) (p : Path) : Bool := (d.find workingDirectory p).isOk

def isFile (d : Disk) (workingDirectory : Location) (p : Path) : Bool :=
  match d.find workingDirectory p with
  | .ok e => e.isFile
  | .error _ => false

def isDirectory (d : Disk) (workingDirectory : Location) (p : Path) : Bool :=
  match d.find workingDirectory p with
  | .ok .directory => true
  | _ => false

def read (d : Disk) (workingDirectory : Location) (p : Path) : Except IoError Content := do
  match ← d.find workingDirectory p with
  | .file content _ => return content
  | .directory => throw .isDirectory
  | .sink => return .empty

def readText (d : Disk) (workingDirectory : Location) (p : Path) : Except IoError String := do
  match (← d.read workingDirectory p).text? with
  | some text => return text
  | none => throw .notText

/-- The directory around a location has to be there. -/
def checkParent (d : Disk) (l : Location) : Except IoError Unit :=
  match d.entry? l.dropLast with
  | some .directory => .ok ()
  | some _ => .error .notDirectory
  | none => .error .notFound

/-- A file to be written or replaced at a location. -/
def checkTarget (d : Disk) (l : Location) : Except IoError Unit :=
  match d.entry? l with
  | some .directory => .error .isDirectory
  | _ => d.checkParent l

/-- Puts content into the file at a location. One that was there keeps its mode. -/
def put (d : Disk) (l : Location) (content : Content) : Disk :=
  match d.entry? l with
  | some (.file _ executable) => d.insert l (.file content executable)
  | some _ => d
  | none => d.insert l (.file content false)

/-- Writes a file. -/
def write (d : Disk) (workingDirectory : Location) (p : Path) (content : Content) : Except IoError Disk := do
  let l ← d.locate workingDirectory p
  d.checkTarget l
  return d.put l content

/-- Moves a directory with all that is in it. -/
def moveTree (d : Disk) (source target : Location) : Disk :=
  ⟨(d.erase target).entries.map fun (k, e) =>
    if source.isPrefixOf k then (target ++ k.drop source.length, e) else (k, e)⟩

/-- What a directory may be moved to: a free location, or an empty directory. -/
def checkDirectoryTarget (d : Disk) (source target : Location) : Except IoError Unit :=
  if source.isPrefixOf target then (if source = target then .ok () else .error .invalid)
  else match d.entry? target with
    | none => d.checkParent target
    | some .directory => if (d.names target).isEmpty then .ok () else .error .notEmpty
    | some _ => .error .notDirectory

/-- Moves what is at a location to another one, in place of what is there. -/
def rename (d : Disk) (source target : Location) : Except IoError Disk := do
  match d.entry? source with
  | none => throw .notFound
  | some .directory =>
    d.checkDirectoryTarget source target
    return d.moveTree source target
  | some e =>
    d.checkTarget target
    return (d.erase source).insert target e

def makeDirectory (d : Disk) (workingDirectory : Location) (p : Path) : Except IoError Disk := do
  checkPath p
  let (l, parts) := start workingDirectory p
  let l ← d.walk l (parts.reverse.dropWhile (· = "")).reverse
  if (d.entry? l).isSome then throw .alreadyExists
  d.checkParent l
  return d.insert l .directory

/-- The sorted names in a directory. -/
def list (d : Disk) (workingDirectory : Location) (p : Path) : Except IoError (List String) := do
  let l ← d.locate workingDirectory p
  match d.entry? l with
  | some .directory => return (d.names l).mergeSort
  | some _ => throw .notDirectory
  | none => throw .notFound

def setMode (d : Disk) (l : Location) (executable : Bool) : Disk :=
  match d.entry? l with
  | some (.file content _) => d.insert l (.file content executable)
  | _ => d

/-- Writes a file that can be run. -/
def writeExecutable (d : Disk) (workingDirectory : Location) (p : Path) (content : Content) :
    Except IoError Disk := do
  let d ← d.write workingDirectory p content
  return d.setMode (← d.locate workingDirectory p) true

/-- Copies a file with its mode. -/
def copy (d : Disk) (workingDirectory : Location) (source target : Path) : Except IoError Disk := do
  match ← d.find workingDirectory source with
  | .file content executable =>
    let d ← d.write workingDirectory target content
    return d.setMode (← d.locate workingDirectory target) executable
  | _ => throw .isDirectory

/-- Without a location and all that is in it. -/
def eraseTree (d : Disk) (l : Location) : Disk := ⟨d.entries.filter fun (k, _) => !l.isPrefixOf k⟩

/-- Removes a file, or a directory with all that is in it. -/
def remove (d : Disk) (workingDirectory : Location) (p : Path) : Except IoError Disk := do
  let l ← d.locate workingDirectory p
  if (d.entry? l).isNone then throw .notFound
  return d.eraseTree l

end Disk

end AutoDiff
