import AutoDiff.Artifact.Load
import AutoDiff.Proofs.JsonTexts
import AutoDiff.Proofs.Usability
import Mathlib.Data.List.Forall2

namespace AutoDiff

namespace Json

def plainNames (names : List String) : Bool := names.all fun name => name.toList.all fun c => decide (Plain c)

theorem printable_record {fields : List (String × Json)} (names : List String)
    (same : fields.map Prod.fst = names) (plain : plainNames names = true)
    (each : ∀ m ∈ fields, Printable m.2) : Printable (record fields) := by
  apply Printable.record fields _ each
  intro m member c inside
  have among : m.1 ∈ names := same ▸ List.mem_map_of_mem member
  exact of_decide_eq_true (List.all_eq_true.mp (List.all_eq_true.mp plain m.1 among) c inside)

theorem printable_ofString {s : String} (plain : plainNames [s] = true) : Printable (ofString s) := by
  apply Printable.string
  intro c inside
  exact of_decide_eq_true (List.all_eq_true.mp (List.all_eq_true.mp plain s (by simp)) c inside)

theorem printable_ofInt (i : Int) : Printable (ofInt i) := .number _ (Digit.isWhole_ofNat _)

theorem printable_ofNat (n : Nat) : Printable (ofNat n) := printable_ofInt n

theorem printable_ofBinary64 (x : Binary64) : Printable (ofBinary64 x) := by
  unfold ofBinary64
  split
  · exact .number _ (x.isWhole_numeral _)
  · exact .null

theorem mapM_keys (fields : List (String × Json)) :
    (fields.map fun (k, v) => (some k, v)).mapM (fun (key, item) => key.map (·, item)) = some fields := by
  induction fields with
  | nil => rfl
  | cons field fields ih =>
      rw [List.map_cons, List.mapM_cons]
      simp [ih]

theorem fields?_record (names : List String) {fields : List (String × Json)}
    (distinct : hasRepeated names (fields.map Prod.fst) = false) :
    fields? names (record fields) = some (names.map (fields.lookup ·)) := by
  simp only [fields?, record, mapM_keys, Option.bind_eq_bind, Option.bind_some, distinct]
  rfl

theorem mapM_ofNat_word? {words : List Nat} (small : ∀ n ∈ words, n < UInt64.size) :
    (words.map ofNat).mapM word? = some words := by
  induction words with
  | nil => rfl
  | cons n words ih =>
      rw [List.map_cons, List.mapM_cons, word?_ofNat (small n (by simp)), ih fun m member => small m (by simp [member])]
      rfl

end Json

namespace Node

/-- A node as it comes back from its JSON text. -/
def reread : Node Binary64 → Option (Node Binary64)
  | const c => const <$> (Json.ofBinary64 c).binary64?
  | node => some node

/-- All numbers in a node are machine words. -/
def Words : Node Binary64 → Prop
  | input index | weight index => index < UInt64.size
  | const _ => True
  | unary _ arg => arg < UInt64.size
  | binary _ lhs rhs => lhs < UInt64.size ∧ rhs < UInt64.size
  | power base _ => base < UInt64.size

theorem printable_toJson (node : Node Binary64) : node.toJson.Printable := by
  cases node with
  | input index =>
      apply Json.printable_record ["input"] rfl (by decide)
      simp [Json.printable_ofNat]
  | weight index =>
      apply Json.printable_record ["weight"] rfl (by decide)
      simp [Json.printable_ofNat]
  | const c =>
      apply Json.printable_record ["const"] rfl (by decide)
      simp [Json.printable_ofBinary64]
  | unary op arg =>
      have name : (Json.ofString op.name).Printable := Json.printable_ofString (by cases op <;> decide)
      have content : (Json.record [("op", .ofString op.name), ("arg", .ofNat arg)]).Printable := by
        apply Json.printable_record ["op", "arg"] rfl (by decide)
        simp [Json.printable_ofNat, name]
      apply Json.printable_record ["unary"] rfl (by decide)
      simpa using content
  | binary op lhs rhs =>
      have name : (Json.ofString op.name).Printable := Json.printable_ofString (by cases op <;> decide)
      have content : (Json.record
          [("op", .ofString op.name), ("lhs", .ofNat lhs), ("rhs", .ofNat rhs)]).Printable := by
        apply Json.printable_record ["op", "lhs", "rhs"] rfl (by decide)
        simp [Json.printable_ofNat, name]
      apply Json.printable_record ["binary"] rfl (by decide)
      simpa using content
  | power base exponent =>
      have content : (Json.record [("base", .ofNat base), ("exp", .ofInt exponent.toInt)]).Printable := by
        apply Json.printable_record ["base", "exp"] rfl (by decide)
        simp [Json.printable_ofNat, Json.printable_ofInt]
      apply Json.printable_record ["powi"] rfl (by decide)
      simpa using content

theorem ofVariant?_unary (op arg : Json) : ofVariant? "unary" (.record [("op", op), ("arg", arg)]) =
    do return unary (← UnaryOp.ofName? (← op.constructor?)) (← arg.word?) := by
  rw [ofVariant?, Json.fields?_record _ rfl]
  rfl

theorem ofVariant?_binary (op lhs rhs : Json) :
    ofVariant? "binary" (.record [("op", op), ("lhs", lhs), ("rhs", rhs)]) =
      do return binary (← BinaryOp.ofName? (← op.constructor?)) (← lhs.word?) (← rhs.word?) := by
  rw [ofVariant?, Json.fields?_record _ rfl]
  rfl

theorem ofVariant?_power (base exponent : Json) :
    ofVariant? "powi" (.record [("base", base), ("exp", exponent)]) =
      do return power (← base.word?) (← exponent.int32?) := by
  rw [ofVariant?, Json.fields?_record _ rfl]
  rfl

theorem ofJson?_toJson {node : Node Binary64} (words : node.Words) : ofJson? node.toJson = node.reread := by
  cases node with
  | input index => simp [toJson, ofJson?, Json.record, Json.variant?, ofVariant?, Json.word?_ofNat words, reread]
  | weight index => simp [toJson, ofJson?, Json.record, Json.variant?, ofVariant?, Json.word?_ofNat words, reread]
  | const c => rfl
  | unary op arg =>
      have named : UnaryOp.ofName? op.name = some op := by cases op <;> decide
      calc ofJson? (toJson (unary op arg))
          = ofVariant? "unary" (.record [("op", .ofString op.name), ("arg", .ofNat arg)]) := rfl
        _ = do return unary (← UnaryOp.ofName? op.name) (← (Json.ofNat arg).word?) := ofVariant?_unary _ _
        _ = some (unary op arg) := by
            rw [named, Json.word?_ofNat words]
            rfl
  | binary op lhs rhs =>
      have named : BinaryOp.ofName? op.name = some op := by cases op <;> decide
      calc ofJson? (toJson (binary op lhs rhs))
          = ofVariant? "binary" (.record [("op", .ofString op.name), ("lhs", .ofNat lhs), ("rhs", .ofNat rhs)]) :=
            rfl
        _ = do return binary (← BinaryOp.ofName? op.name) (← (Json.ofNat lhs).word?) (← (Json.ofNat rhs).word?) :=
            ofVariant?_binary _ _ _
        _ = some (binary op lhs rhs) := by
            rw [named, Json.word?_ofNat words.1, Json.word?_ofNat words.2]
            rfl
  | power base exponent =>
      calc ofJson? (toJson (power base exponent))
          = ofVariant? "powi" (.record [("base", .ofNat base), ("exp", .ofInt exponent.toInt)]) := rfl
        _ = do return power (← (Json.ofNat base).word?) (← (Json.ofInt exponent.toInt).int32?) :=
            ofVariant?_power _ _
        _ = some (power base exponent) := by
            rw [Json.word?_ofNat words, Json.int32?_ofInt]
            rfl

end Node

namespace Trace

structure Words (t : Trace Binary64) : Prop where
  inputCount : t.inputCount < UInt64.size
  weightCount : t.weightCount < UInt64.size
  nodes : ∀ node ∈ t.nodes.toList, node.Words
  outputs : ∀ id ∈ t.outputs, id < UInt64.size

/-- All sizes of a trace are machine words. -/
structure Sized (t : Trace Binary64) : Prop where
  size : t.size < UInt64.size
  inputCount : t.inputCount < UInt64.size
  weightCount : t.weightCount < UInt64.size

def reread (t : Trace Binary64) : Option (Trace Binary64) := do
  return { t with nodes := (← t.nodes.toList.mapM Node.reread).toArray }

theorem printable_toJson (t : Trace Binary64) : t.toJson.Printable := by
  apply Json.printable_record ["nodes", "num_inputs", "num_weights", "outputs"] rfl (by decide)
  have nodes : (Json.array (t.nodes.toList.map Node.toJson)).Printable := by
    apply Json.Printable.array
    intro item member
    obtain ⟨node, _, rfl⟩ := List.mem_map.mp member
    exact node.printable_toJson
  have outputs : (Json.array (t.outputs.map Json.ofNat)).Printable := by
    apply Json.Printable.array
    intro item member
    obtain ⟨id, _, rfl⟩ := List.mem_map.mp member
    exact Json.printable_ofNat id
  simp [nodes, outputs, Json.printable_ofNat]

theorem words_of_wellFormed {t : Trace Binary64} (wellFormed : t.WellFormed) (sized : t.Sized) : t.Words := by
  refine ⟨sized.inputCount, sized.weightCount, ?_, ?_⟩
  · intro node member
    obtain ⟨id, inside, same⟩ := List.mem_iff_getElem.mp member
    have found : t.nodes[id]? = some node := by
      rw [← Array.getElem?_toList, List.getElem?_eq_getElem inside, same]
    have operand (v : Nat) (used : v ∈ node.operands) : v < UInt64.size :=
      Nat.lt_trans (Nat.lt_trans (wellFormed.ordered id node found v used) (lt_size found)) sized.size
    cases node with
    | input index => exact Nat.lt_trans (wellFormed.inputs id index found) sized.inputCount
    | weight index => exact Nat.lt_trans (wellFormed.weights id index found) sized.weightCount
    | const => trivial
    | unary op arg => exact operand arg (by simp [Node.operands])
    | binary op lhs rhs => exact ⟨operand lhs (by simp [Node.operands]), operand rhs (by simp [Node.operands])⟩
    | power base exponent => exact operand base (by simp [Node.operands])
  · intro id member
    exact Nat.lt_trans (wellFormed.outputs id member) sized.size

theorem mapM_toJson {nodes : List (Node Binary64)} (words : ∀ node ∈ nodes, node.Words) :
    (nodes.map Node.toJson).mapM Node.ofJson? = nodes.mapM Node.reread := by
  induction nodes with
  | nil => rfl
  | cons node nodes ih =>
      rw [List.map_cons, List.mapM_cons, List.mapM_cons, Node.ofJson?_toJson (words node (by simp)),
        ih fun other member => words other (by simp [member])]

theorem ofJson?_record (nodes inputs weights outputs : Json) :
    ofJson? (.record [("nodes", nodes), ("num_inputs", inputs), ("num_weights", weights), ("outputs", outputs)]) =
      do return { nodes := (← (← nodes.array?).mapM Node.ofJson?).toArray
                  inputCount := ← inputs.word?
                  weightCount := ← weights.word?
                  outputs := ← (← outputs.array?).mapM Json.word? } := by
  rw [ofJson?, Json.fields?_record _ rfl]
  rfl

theorem ofJson?_toJson {t : Trace Binary64} (words : t.Words) : ofJson? t.toJson = t.reread := by
  rw [toJson, ofJson?_record, Json.word?_ofNat words.inputCount, Json.word?_ofNat words.weightCount]
  simp only [Json.array?, Option.bind_eq_bind, Option.bind_some, mapM_toJson words.nodes,
    Json.mapM_ofNat_word? words.outputs]
  rfl

theorem mapM_eq_some_iff {β γ : Type} (f : β → Option γ) (xs : List β) (ys : List γ) :
    xs.mapM f = some ys ↔ List.Forall₂ (fun x y => f x = some y) xs ys := by
  induction xs generalizing ys with
  | nil => cases ys <;> simp
  | cons x xs ih =>
      rw [List.mapM_cons]
      cases first : f x with
      | none => cases ys <;> simp [first]
      | some y =>
          cases rest : xs.mapM f with
          | none => cases ys <;> simp [first, ← ih, rest]
          | some others => cases ys <;> simp [first, ← ih, rest]

theorem exists_mapM_iff {β γ : Type} (f : β → Option γ) (xs : List β) :
    (∃ ys, xs.mapM f = some ys) ↔ ∀ x ∈ xs, ∃ y, f x = some y := by
  induction xs with
  | nil => simp
  | cons x xs ih =>
      rw [List.forall_mem_cons, ← ih, List.mapM_cons]
      cases f x <;> cases xs.mapM f <;> simp

theorem exists_reread_node_iff (node : Node Binary64) : (∃ other, node.reread = some other) ↔
    ∀ c, node = .const c → ∃ d, (Json.ofBinary64 c).binary64? = some d := by
  cases node <;> simp [Node.reread]

theorem eq_or_const_of_reread {old node : Node Binary64} (read : old.reread = some node) :
    node = old ∨ ∃ c d, old = .const c ∧ node = .const d := by
  cases old with
  | const c =>
      obtain ⟨d, _, rfl⟩ := Option.map_eq_some_iff.mp read
      exact .inr ⟨c, d, rfl, rfl⟩
  | input | weight | unary | binary | power => exact .inl (Option.some.inj read).symm

/-- A trace comes back exactly if all of its constants do. -/
theorem exists_reread_iff (t : Trace Binary64) : (∃ u, t.reread = some u) ↔
    ∀ c, .const c ∈ t.nodes → ∃ d, (Json.ofBinary64 c).binary64? = some d := by
  have nodes : (∃ u, t.reread = some u) ↔ ∃ nodes, t.nodes.toList.mapM Node.reread = some nodes := by
    unfold reread
    cases t.nodes.toList.mapM Node.reread <;> simp
  rw [nodes, exists_mapM_iff]
  simp only [exists_reread_node_iff, Array.mem_toList_iff]
  constructor
  · intro each c member
    exact each _ member c rfl
  · rintro each node member c rfl
    exact each c member

theorem fits_of_reread {t u : Trace Binary64} (read : t.reread = some u) {inputs weights results : Nat}
    (fits : t.Fits inputs weights results) : u.Fits inputs weights results := by
  obtain ⟨nodes, mapped, rfl⟩ : ∃ nodes, t.nodes.toList.mapM Node.reread = some nodes ∧
      { t with nodes := nodes.toArray } = u := by
    unfold reread at read
    cases mapped : t.nodes.toList.mapM Node.reread <;> simp [mapped] at read
    exact ⟨_, rfl, read⟩
  have pairs := (mapM_eq_some_iff _ _ _).mp mapped
  have length : nodes.length = t.size := by simpa [size] using pairs.length_eq.symm
  have before (id : Nat) (node : Node Binary64) (found : nodes.toArray[id]? = some node) :
      ∃ old, t.nodes[id]? = some old ∧ (node = old ∨ ∃ c d, old = .const c ∧ node = .const d) := by
    rw [List.getElem?_toArray] at found
    obtain ⟨inside, same⟩ := List.getElem?_eq_some_iff.mp found
    have old : id < t.nodes.size := by rw [← size, ← length]; exact inside
    have reread := pairs.get (by simpa using old) inside
    exact ⟨t.nodes[id], Array.getElem?_eq_getElem old, eq_or_const_of_reread (by simpa [same] using reread)⟩
  have leaf (id : Nat) (node : Node Binary64) (found : nodes.toArray[id]? = some node)
      (other : ∀ d, node ≠ .const d) : t.nodes[id]? = some node := by
    obtain ⟨old, there, rfl | ⟨_, d, _, same⟩⟩ := before id node found
    · exact there
    · exact absurd same (other d)
  obtain ⟨⟨⟨ordered, inputs, weights, distinct⟩, outputs⟩, rfl, rfl, rfl⟩ := fits
  refine ⟨⟨⟨?_, ?_, ?_, ?_⟩, ?_⟩, rfl, rfl, rfl⟩
  · intro id node found operand used
    obtain ⟨old, there, rfl | ⟨_, d, _, rfl⟩⟩ := before id node found
    · exact ordered id node there operand used
    · simp [Node.operands] at used
  · intro id index found
    exact inputs id index (leaf id _ found (by simp))
  · intro id index found
    exact weights id index (leaf id _ found (by simp))
  · intro first second index found also
    exact distinct first second index (leaf first _ found (by simp)) (leaf second _ also (by simp))
  · intro id member
    have less := outputs id member
    rw [← length] at less
    simpa [size] using less

end Trace

namespace KernelSet

structure Words (k : KernelSet Binary64) : Prop where
  inputSize : k.inputSize < UInt64.size
  parameterSize : k.parameterSize < UInt64.size
  outputSize : k.outputSize < UInt64.size
  traces : ∀ t, k.forward = t ∨ k.jacobian = some t ∨ k.hessian = some t → t.Words

structure Sized (k : KernelSet Binary64) : Prop where
  inputSize : k.inputSize < UInt64.size
  parameterSize : k.parameterSize < UInt64.size
  outputSize : k.outputSize < UInt64.size
  forward : k.forward.Sized
  jacobian : ∀ t, k.jacobian = some t → t.Sized
  hessian : ∀ t, k.hessian = some t → t.Sized

def reread (k : KernelSet Binary64) : Option (KernelSet Binary64) := do
  return { k with
    forward := ← k.forward.reread
    jacobian := ← k.jacobian.mapM Trace.reread
    hessian := ← k.hessian.mapM Trace.reread }

theorem printable_optionalTrace (t? : Option (Trace Binary64)) : (optionalTrace t?).Printable := by
  cases t? with
  | none => exact .null
  | some t => exact t.printable_toJson

theorem printable_toJson (k : KernelSet Binary64) : k.toJson.Printable := by
  apply Json.printable_record
    ["input_size", "parameter_size", "output_size", "order", "forward", "jacobian", "hessian"] rfl (by decide)
  have order : k.order.toJson.Printable := Json.printable_ofString (by cases k.order <;> decide)
  simp [Json.printable_ofNat, order, Trace.printable_toJson, printable_optionalTrace]

theorem ofJson?_record (inputs parameters outputs order forward jacobian hessian : Json) :
    ofJson? (.record [("input_size", inputs), ("parameter_size", parameters), ("output_size", outputs),
        ("order", order), ("forward", forward), ("jacobian", jacobian), ("hessian", hessian)]) =
      do return { inputSize := ← inputs.word?
                  parameterSize := ← parameters.word?
                  outputSize := ← outputs.word?
                  order := ← Order.ofJson? order
                  forward := ← Trace.ofJson? forward
                  jacobian := ← Json.optional? Trace.ofJson? (some jacobian)
                  hessian := ← Json.optional? Trace.ofJson? (some hessian) } := by
  rw [ofJson?, Json.fields?_record _ rfl]
  rfl

theorem optional?_optionalTrace {t? : Option (Trace Binary64)} (words : ∀ t, t? = some t → t.Words) :
    Json.optional? Trace.ofJson? (some (optionalTrace t?)) = t?.mapM Trace.reread := by
  cases t? with
  | none => rfl
  | some t =>
      calc Json.optional? Trace.ofJson? (some (optionalTrace (some t)))
          = some <$> Trace.ofJson? t.toJson := rfl
        _ = some <$> t.reread := by rw [Trace.ofJson?_toJson (words t rfl)]

theorem words_of_valid {k : KernelSet Binary64} (valid : k.Valid) (sized : k.Sized) : k.Words := by
  refine ⟨sized.inputSize, sized.parameterSize, sized.outputSize, ?_⟩
  rintro t (rfl | found | found)
  · exact Trace.words_of_wellFormed valid.forward.wellFormed sized.forward
  · exact Trace.words_of_wellFormed (valid.jacobian t found).wellFormed (sized.jacobian t found)
  · exact Trace.words_of_wellFormed (valid.hessian t found).wellFormed (sized.hessian t found)

theorem parse?_pretty {k : KernelSet Binary64} (words : k.Words) : parse? k.toJson.pretty = k.reread := by
  have order : Order.ofJson? k.order.toJson = some k.order := by cases k.order <;> decide
  have forward : Trace.ofJson? k.forward.toJson = k.forward.reread :=
    Trace.ofJson?_toJson (words.traces k.forward (.inl rfl))
  have jacobian := optional?_optionalTrace fun t found => words.traces t (.inr (.inl found))
  have hessian := optional?_optionalTrace fun t found => words.traces t (.inr (.inr found))
  calc parse? k.toJson.pretty
      = ofJson? k.toJson := by
        rw [parse?, k.printable_toJson.parse?_pretty, Option.bind_eq_bind, Option.bind_some]
    _ = k.reread := by
        rw [toJson, ofJson?_record, Json.word?_ofNat words.inputSize, Json.word?_ofNat words.parameterSize,
          Json.word?_ofNat words.outputSize, order, forward, jacobian, hessian]
        rfl

theorem exists_mapM_reread_iff (t? : Option (Trace Binary64)) : (∃ u?, t?.mapM Trace.reread = some u?) ↔
    ∀ t, t? = some t → ∃ u, t.reread = some u := by
  cases t? with
  | none => simp
  | some t =>
      constructor
      · rintro ⟨u?, read⟩ _ ⟨⟩
        obtain ⟨u, reread, _⟩ := Option.map_eq_some_iff.mp (show some <$> t.reread = some u? from read)
        exact ⟨u, reread⟩
      · intro each
        obtain ⟨u, reread⟩ := each t rfl
        exact ⟨some u, congrArg (some <$> ·) reread⟩

theorem fits_of_mapM_reread {t? u? : Option (Trace Binary64)} (read : t?.mapM Trace.reread = some u?)
    {inputs weights results : Nat} (fits : ∀ t, t? = some t → t.Fits inputs weights results) :
    u?.isSome = t?.isSome ∧ ∀ u, u? = some u → u.Fits inputs weights results := by
  cases t? with
  | none =>
      obtain rfl : none = u? := Option.some.inj read
      simp
  | some t =>
      obtain ⟨u, reread, rfl⟩ := Option.map_eq_some_iff.mp (show some <$> t.reread = some u? from read)
      constructor
      · rfl
      · rintro _ ⟨⟩
        exact Trace.fits_of_reread reread (fits t rfl)

theorem reread_eq_some_iff (k other : KernelSet Binary64) : k.reread = some other ↔
    ∃ forward jacobian hessian, k.forward.reread = some forward ∧ k.jacobian.mapM Trace.reread = some jacobian ∧
      k.hessian.mapM Trace.reread = some hessian ∧ { k with forward, jacobian, hessian } = other := by
  unfold reread
  simp [Option.bind_eq_some_iff]

theorem valid_of_reread {k other : KernelSet Binary64} (read : k.reread = some other) (valid : k.Valid) :
    other.Valid := by
  obtain ⟨forward, jacobian, hessian, first, second, third, rfl⟩ := (reread_eq_some_iff k other).mp read
  obtain ⟨hasJacobian, fitsJacobian⟩ := fits_of_mapM_reread second valid.jacobian
  obtain ⟨hasHessian, fitsHessian⟩ := fits_of_mapM_reread third valid.hessian
  constructor
  · exact Trace.fits_of_reread first valid.forward
  · exact hasJacobian.trans valid.hasJacobian
  · exact fitsJacobian
  · exact hasHessian.trans valid.hasHessian
  · exact fitsHessian

/-- A constant whose text is read as a number: it is finite, and its digits do not overflow. -/
def Readable (c : Binary64) : Prop := c.isFinite = true ∧ (c.numeral Binary64.jsonLayout).read?.isSome = true

theorem readable_iff (c : Binary64) : Readable c ↔ ∃ d, (Json.ofBinary64 c).binary64? = some d := by
  unfold Readable Json.ofBinary64
  cases finite : c.isFinite with
  | false => simp [Json.binary64?]
  | true => simp [Json.binary64?, Option.isSome_iff_exists]

theorem exists_reread_iff (k : KernelSet Binary64) :
    (∃ other, k.reread = some other) ↔ ∀ c, k.Mentions c → Readable c := by
  have parts : (∃ other, k.reread = some other) ↔ (∃ u, k.forward.reread = some u) ∧
      (∃ u?, k.jacobian.mapM Trace.reread = some u?) ∧ ∃ u?, k.hessian.mapM Trace.reread = some u? := by
    constructor
    · rintro ⟨other, read⟩
      obtain ⟨_, _, _, first, second, third, _⟩ := (reread_eq_some_iff k other).mp read
      exact ⟨⟨_, first⟩, ⟨_, second⟩, _, third⟩
    · rintro ⟨⟨_, first⟩, ⟨_, second⟩, _, third⟩
      exact ⟨_, (reread_eq_some_iff k _).mpr ⟨_, _, _, first, second, third, rfl⟩⟩
  rw [parts, exists_mapM_reread_iff, exists_mapM_reread_iff, Trace.exists_reread_iff]
  simp only [Trace.exists_reread_iff, ← readable_iff]
  constructor
  · rintro ⟨forward, jacobian, hessian⟩ c ⟨t, rfl | found | found, member⟩
    · exact forward c member
    · exact jacobian t found c member
    · exact hessian t found c member
  · intro readable
    refine ⟨fun c member => ?_, fun t found c member => ?_, fun t found c member => ?_⟩
    · exact readable c ⟨k.forward, .inl rfl, member⟩
    · exact readable c ⟨t, .inr (.inl found), member⟩
    · exact readable c ⟨t, .inr (.inr found), member⟩

def Loads (text : String) : Prop := ∃ k a, parse? text = some k ∧ k.toArtifact = .ok a

/-- What is written loads exactly if all constants are readable. -/
theorem loads_pretty_iff {k : KernelSet Binary64} (valid : k.Valid) (sized : k.Sized) :
    Loads k.toJson.pretty ↔ ∀ c, k.Mentions c → Readable c := by
  rw [← exists_reread_iff, Loads, parse?_pretty (words_of_valid valid sized)]
  constructor
  · rintro ⟨other, _, read, _⟩
    exact ⟨other, read⟩
  · rintro ⟨other, read⟩
    have checked := other.validate_eq_ok_iff.mpr (valid_of_reread read valid)
    exact ⟨other, other.artifact, read, by rw [toArtifact, checked]⟩

end KernelSet

end AutoDiff
