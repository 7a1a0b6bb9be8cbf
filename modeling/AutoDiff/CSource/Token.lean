import AutoDiff.Artifact.Path
import AutoDiff.Numeral

namespace AutoDiff.CSource

inductive Token where
  /-- A keyword or an identifier. -/
  | word (name : String)
  /-- Whatever starts with a digit, with the signs of exponents. -/
  | number (spelling : String)
  | mark (c : Char)
  | operator (symbol : String)
  | quoted (text : String)
  | comment (text : String)
  deriving DecidableEq, Repr

def Token.isComment : Token → Bool
  | comment _ => true
  | _ => false

def isWordChar (c : Char) : Bool := Artifact.isLetter c || c.isDigit

def isOperatorChar (c : Char) : Bool := ['+', '-', '*', '/', '%', '<', '>', '=', '!', '&', '|', '^', '~'].contains c

def isMark (c : Char) : Bool := ['(', ')', '[', ']', '\x7b', '\x7d', ',', ';', ':', '?', '.', '#'].contains c

/-- The longest text that goes on with a number, and what follows. -/
def numberTail : List Char → List Char × List Char
  | [] => ([], [])
  | [c] => if isWordChar c || c == '.' then ([c], []) else ([], [c])
  | c :: next :: rest =>
    if (c == 'e' || c == 'E') && Numeral.isSign next then
      let (tail, after) := numberTail rest
      (c :: next :: tail, after)
    else if isWordChar c || c == '.' then
      let (tail, after) := numberTail (next :: rest)
      (c :: tail, after)
    else ([], c :: next :: rest)

/-- The text up to the end of a comment, and what follows. -/
def commentTail : List Char → Option (List Char × List Char)
  | [] => none
  | '*' :: '/' :: rest => some ([], rest)
  | c :: rest => (commentTail rest).map fun (inside, after) => (c :: inside, after)

/-- The token that a text starts with, and what follows. Texts in quotes have no escapes. -/
def next? : List Char → Option (Token × List Char)
  | [] => none
  | '"' :: rest =>
    match rest.dropWhile fun c => c != '"' && c != '\\' with
    | '"' :: after => some (.quoted (String.ofList (rest.takeWhile fun c => c != '"' && c != '\\')), after)
    | _ => none
  | '/' :: '*' :: rest => (commentTail rest).map fun (inside, after) => (.comment (String.ofList inside), after)
  | c :: rest =>
    if Artifact.isLetter c then
      some (.word (String.ofList (c :: rest.takeWhile isWordChar)), rest.dropWhile isWordChar)
    else if c.isDigit then
      let (tail, after) := numberTail rest
      some (.number (String.ofList (c :: tail)), after)
    else if isOperatorChar c then
      some (.operator (String.ofList (c :: rest.takeWhile isOperatorChar)), rest.dropWhile isOperatorChar)
    else if isMark c then some (.mark c, rest)
    else none

theorem numberTail_length (cs : List Char) : (numberTail cs).2.length ≤ cs.length := by
  fun_induction numberTail cs <;> simp_all <;> omega

theorem commentTail_length {cs inside after : List Char} (found : commentTail cs = some (inside, after)) :
    after.length < cs.length := by
  induction cs using commentTail.induct generalizing inside with
  | case1 => simp [commentTail] at found
  | case2 rest =>
      simp only [commentTail, Option.some.injEq, Prod.mk.injEq] at found
      rw [← found.2, List.length_cons, List.length_cons]
      omega
  | case3 c rest other ih =>
      rw [commentTail.eq_3 _ _ other] at found
      obtain ⟨⟨inside, after⟩, run, same⟩ := Option.map_eq_some_iff.mp found
      obtain ⟨_, rfl⟩ := Prod.mk.inj same
      exact Nat.lt_succ_of_lt (ih run)

theorem next?_length {cs after : List Char} {t : Token} (found : next? cs = some (t, after)) :
    after.length < cs.length := by
  unfold next? at found
  split at found
  · cases found
  · next rest =>
      have shorter := (List.dropWhile_sublist fun c => c != '"' && c != '\\' : List.Sublist _ rest).length_le
      split at found
      · next after' same =>
          obtain ⟨_, rfl⟩ := Prod.mk.inj (Option.some.inj found)
          rw [same, List.length_cons] at shorter
          exact Nat.lt_succ_of_le (Nat.le_of_succ_le shorter)
      · cases found
  · next rest =>
      obtain ⟨⟨inside, after'⟩, run, same⟩ := Option.map_eq_some_iff.mp found
      obtain ⟨_, rfl⟩ := Prod.mk.inj same
      exact Nat.lt_succ_of_lt (Nat.lt_succ_of_lt (commentTail_length run))
  · next c rest _ _ =>
      split at found
      · obtain ⟨_, rfl⟩ := Prod.mk.inj (Option.some.inj found)
        exact Nat.lt_succ_of_le (List.dropWhile_sublist isWordChar).length_le
      split at found
      · obtain ⟨_, rfl⟩ := Prod.mk.inj (Option.some.inj found)
        exact Nat.lt_succ_of_le (numberTail_length rest)
      split at found
      · obtain ⟨_, rfl⟩ := Prod.mk.inj (Option.some.inj found)
        exact Nat.lt_succ_of_le (List.dropWhile_sublist isOperatorChar).length_le
      split at found
      · obtain ⟨_, rfl⟩ := Prod.mk.inj (Option.some.inj found)
        exact Nat.lt_succ_self _
      · cases found

/-- The tokens of a line. -/
def lex (cs : List Char) : Option (List Token) :=
  match cs with
  | [] => some []
  | ' ' :: rest => lex rest
  | c :: rest =>
    match _found : next? (c :: rest) with
    | none => none
    | some (t, after) => (lex after).map (t :: ·)
termination_by cs.length
decreasing_by
  · exact Nat.lt_succ_self _
  · exact next?_length _found

end AutoDiff.CSource
