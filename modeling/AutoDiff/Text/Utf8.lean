namespace AutoDiff.Text

def replacement : Char := '\ufffd'

def isContinuation (b : UInt8) : Bool := 0x80 ≤ b && b ≤ 0xbf

/-- How many continuation bytes follow a first byte, and which values the first of them may have. -/
def lead? (b : UInt8) : Option (Nat × UInt8 × UInt8) :=
  if b < 0xc2 then none
  else if b < 0xe0 then some (1, 0x80, 0xbf)
  else if b = 0xe0 then some (2, 0xa0, 0xbf)
  else if b = 0xed then some (2, 0x80, 0x9f)
  else if b < 0xf0 then some (2, 0x80, 0xbf)
  else if b = 0xf0 then some (3, 0x90, 0xbf)
  else if b < 0xf4 then some (3, 0x80, 0xbf)
  else if b = 0xf4 then some (3, 0x80, 0x8f)
  else none

/-- The continuation bytes that `lead` allows at the start of `bs`. -/
def continuation (lead : Nat × UInt8 × UInt8) (bs : List UInt8) : List UInt8 :=
  match bs with
  | b :: rest => if lead.2.1 ≤ b ∧ b ≤ lead.2.2 then b :: (rest.take (lead.1 - 1)).takeWhile isContinuation else []
  | [] => []

def scalar (count : Nat) (first : UInt8) (rest : List UInt8) : Char :=
  Char.ofNat (rest.foldl (fun n b => n * 64 + (b &&& 0x3f).toNat) (first &&& 0x3f >>> count.toUInt8).toNat)

/-- The characters of a text; a malformed sequence, as long as it could still have been completed, is one
replacement character. -/
def decodeLossy : List UInt8 → List Char
  | [] => []
  | b :: bs =>
    if b < 0x80 then Char.ofNat b.toNat :: decodeLossy bs
    else match lead? b with
      | none => replacement :: decodeLossy bs
      | some lead =>
        let rest := continuation lead bs
        (if rest.length = lead.1 then scalar lead.1 b rest else replacement) :: decodeLossy (bs.drop rest.length)
termination_by bs => bs.length
decreasing_by all_goals (simp only [List.length_cons, List.length_drop]; omega)

end AutoDiff.Text
