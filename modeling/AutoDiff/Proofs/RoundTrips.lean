import AutoDiff.Proofs.ArtifactFiles

namespace AutoDiff

/-- A finite number whose numeral is read as the same number. -/
def Binary64.ReadsBack (c : Binary64) : Prop :=
  c.isFinite = true ∧ (c.numeral Binary64.jsonLayout).read? = some c

instance (c : Binary64) : Decidable c.ReadsBack := inferInstanceAs (Decidable (_ ∧ _))

theorem Binary64.ReadsBack.binary64? {c : Binary64} (reads : c.ReadsBack) :
    (Json.ofBinary64 c).binary64? = some c := by
  obtain ⟨finite, read⟩ := reads
  rw [Json.ofBinary64, if_pos finite]
  exact read

theorem Node.reread_eq_self {node : Node Binary64} (reads : ∀ c, node = .const c → c.ReadsBack) :
    node.reread = some node := by
  cases node with
  | const c => rw [reread, (reads c rfl).binary64?, Option.map_eq_map, Option.map_some]
  | input | weight | unary | binary | power => rfl

theorem Trace.reread_eq_self {t : Trace Binary64} (reads : ∀ c, .const c ∈ t.nodes → c.ReadsBack) :
    t.reread = some t := by
  have nodes : t.nodes.toList.mapM Node.reread = some t.nodes.toList := by
    rw [mapM_eq_some_iff, List.forall₂_same]
    intro node member
    apply Node.reread_eq_self
    rintro c rfl
    exact reads c (Array.mem_toList_iff.mp member)
  rw [reread, nodes]
  rfl

theorem Trace.parse?_texts {t : Trace Binary64} (words : t.Words) (reads : ∀ c, .const c ∈ t.nodes → c.ReadsBack) :
    (Json.parse? t.toJson.compact).bind ofJson? = some t ∧ (Json.parse? t.toJson.pretty).bind ofJson? = some t := by
  have decoded : ofJson? t.toJson = some t := (ofJson?_toJson words).trans (reread_eq_self reads)
  rw [t.printable_toJson.parse?_compact, t.printable_toJson.parse?_pretty]
  exact ⟨decoded, decoded⟩

namespace KernelSet

theorem mapM_reread_eq_self {t? : Option (Trace Binary64)}
    (reads : ∀ t, t? = some t → ∀ c, .const c ∈ t.nodes → c.ReadsBack) : t?.mapM Trace.reread = some t? := by
  cases t? with
  | none => rfl
  | some t => exact congrArg (some <$> ·) (Trace.reread_eq_self (reads t rfl))

theorem reread_eq_self {k : KernelSet Binary64} (reads : ∀ c, k.Mentions c → c.ReadsBack) : k.reread = some k := by
  apply (reread_eq_some_iff k k).mpr
  refine ⟨k.forward, k.jacobian, k.hessian, ?_, ?_, ?_, rfl⟩
  · exact Trace.reread_eq_self fun c member => reads c ⟨k.forward, .inl rfl, member⟩
  · exact mapM_reread_eq_self fun t found c member => reads c ⟨t, .inr (.inl found), member⟩
  · exact mapM_reread_eq_self fun t found c member => reads c ⟨t, .inr (.inr found), member⟩

end KernelSet

/-- Kernels are read from the contents of their file as they were written, and traces from both of their texts. -/
theorem json_round_trip :
    (∀ k : KernelSet Binary64, k.Words → (∀ c, k.Mentions c → c.ReadsBack) →
      (Content.ofText k.toJson.pretty).text?.bind KernelSet.parse? = some k) ∧
    ∀ t : Trace Binary64, t.Words → (∀ c, .const c ∈ t.nodes → c.ReadsBack) →
      (Json.parse? t.toJson.compact).bind Trace.ofJson? = some t ∧
        (Json.parse? t.toJson.pretty).bind Trace.ofJson? = some t := by
  constructor
  · intro k words reads
    rw [Content.text?_ofText, Option.bind_some, KernelSet.parse?_pretty words]
    exact KernelSet.reread_eq_self reads
  · intro t words reads
    exact Trace.parse?_texts words reads

def Trace.assorted : Trace Binary64 where
  nodes := #[.input 7, .weight 3, .const ⟨0x3fb999999999999a⟩, .unary .tanh 9, .binary .pow 0 12, .power 4 (-3)]
  inputCount := 1
  weightCount := 18446744073709551615
  outputs := [5, 5, 40]

def KernelSet.assorted : KernelSet Binary64 where
  inputSize := 0
  parameterSize := 18446744073709551615
  outputSize := 2
  order := .first
  forward := .assorted
  jacobian := none
  hessian := some .assorted

theorem Trace.words_assorted : assorted.Words := by
  refine ⟨by decide, by decide, ?_, ?_⟩
  · simp [assorted, Node.Words, UInt64.size]
  · simp [assorted, UInt64.size]

theorem Trace.readsBack_assorted {c : Binary64} (member : .const c ∈ assorted.nodes) : c.ReadsBack := by
  obtain rfl : c = ⟨0x3fb999999999999a⟩ := by simpa [assorted] using member
  decide +kernel

theorem json_round_trip_assorted :
    (Content.ofText KernelSet.assorted.toJson.pretty).text?.bind KernelSet.parse? = some .assorted ∧
      (Json.parse? Trace.assorted.toJson.compact).bind Trace.ofJson? = some .assorted := by
  have words : KernelSet.assorted.Words := by
    refine ⟨by decide, by decide, by decide, ?_⟩
    rintro t (rfl | absent | found)
    · exact Trace.words_assorted
    · cases absent
    · cases found
      exact Trace.words_assorted
  have reads (c : Binary64) (mentions : KernelSet.assorted.Mentions c) : c.ReadsBack := by
    obtain ⟨t, rfl | absent | found, member⟩ := mentions
    · exact Trace.readsBack_assorted member
    · cases absent
    · cases found
      exact Trace.readsBack_assorted member
  obtain ⟨kernels, traces⟩ := json_round_trip
  exact ⟨kernels _ words reads, (traces _ Trace.words_assorted fun _ => Trace.readsBack_assorted).1⟩

end AutoDiff
