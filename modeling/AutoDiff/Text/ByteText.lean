namespace AutoDiff

abbrev ByteText := List Char

namespace ByteText

def ofBytes (bytes : List UInt8) : ByteText := bytes.map fun b => Char.ofNat b.toNat

def toBytes (t : ByteText) : List UInt8 := t.map fun c => c.toNat.toUInt8

/-- The bytes of a text in UTF-8. -/
def ofString (text : String) : ByteText := ofBytes text.toUTF8.data.toList

/-- The text whose UTF-8 bytes these are, if there is one. -/
def text? (t : ByteText) : Option String := String.fromUTF8? ⟨t.toBytes.toArray⟩

/-- Bytes that are no UTF-8 are taken one by one. -/
def text (t : ByteText) : String := t.text?.getD (String.ofList t)

def lines (t : ByteText) : List ByteText :=
  match t.splitOn '\n' |>.reverse with
  | [] :: rest => rest.reverse
  | rest => rest.reverse

/-- The order of texts byte by byte. -/
def isAtMost : ByteText → ByteText → Bool
  | [], _ => true
  | _ :: _, [] => false
  | a :: as, b :: bs => a.toNat < b.toNat || (a.toNat == b.toNat && isAtMost as bs)

def sort (texts : List ByteText) : List ByteText := texts.mergeSort isAtMost

def joinWith (separator : ByteText) (parts : List ByteText) : ByteText := (parts.intersperse separator).flatten

end ByteText

end AutoDiff
