import AutoDiff.Proofs.Compilations
import AutoDiff.Proofs.FiniteReading
import AutoDiff.Proofs.Generation
import AutoDiff.Proofs.RoundTrips

/-!
Constants of kernels that are kept as a file. The digits in the file identify every finite constant, but a reader that
rounds them twice may take them for another number, which is close to it. Kernels are always loaded, and they are
loaded as they were exactly if no constant is misread; constants of few digits never are.
-/

namespace AutoDiff

theorem Binary64.readsBack_of_binary64? {c : Binary64} (read : (Json.ofBinary64 c).binary64? = some c) :
    c.ReadsBack := by
  unfold Json.ofBinary64 at read
  split_ifs at read with finite
  · exact ⟨finite, read⟩
  · cases read

theorem Trace.readsBack_of_reread {t : Trace Binary64} (same : t.reread = some t) {c : Binary64}
    (member : .const c ∈ t.nodes) : c.ReadsBack := by
  obtain ⟨nodes, mapped, kept⟩ : ∃ nodes, t.nodes.toList.mapM Node.reread = some nodes ∧
      { t with nodes := nodes.toArray } = t := by
    unfold reread at same
    cases mapped : t.nodes.toList.mapM Node.reread <;> simp [mapped] at same
    exact ⟨_, rfl, same⟩
  obtain rfl : nodes = t.nodes.toList := congrArg (fun t => t.nodes.toList) kept
  have each := List.forall₂_same.mp ((mapM_eq_some_iff _ _ _).mp mapped) _ (Array.mem_toList_iff.mpr member)
  obtain ⟨d, read, same⟩ := Option.map_eq_some_iff.mp each
  obtain rfl := Node.const.inj same
  exact Binary64.readsBack_of_binary64? read

namespace KernelSet

theorem readsBack_of_mapM_reread {t? : Option (Trace Binary64)} (same : t?.mapM Trace.reread = some t?)
    {t : Trace Binary64} (found : t? = some t) {c : Binary64} (member : .const c ∈ t.nodes) : c.ReadsBack := by
  obtain rfl := found
  obtain ⟨u, read, same⟩ := Option.map_eq_some_iff.mp (show some <$> t.reread = some (some t) from same)
  obtain rfl := Option.some.inj same
  exact Trace.readsBack_of_reread read member

/-- Kernels come back as they were exactly if all of their constants do. -/
theorem reread_eq_self_iff (k : KernelSet Binary64) : k.reread = some k ↔ ∀ c, k.Mentions c → c.ReadsBack := by
  constructor
  · intro same c ⟨t, place, member⟩
    obtain ⟨forward, jacobian, hessian, first, second, third, kept⟩ := (reread_eq_some_iff k k).mp same
    obtain rfl : forward = k.forward := congrArg KernelSet.forward kept
    obtain rfl : jacobian = k.jacobian := congrArg KernelSet.jacobian kept
    obtain rfl : hessian = k.hessian := congrArg KernelSet.hessian kept
    rcases place with rfl | found | found
    · exact Trace.readsBack_of_reread first member
    · exact readsBack_of_mapM_reread second found member
    · exact readsBack_of_mapM_reread third found member
  · exact reread_eq_self

theorem exists_reread_of_finite {k : KernelSet Binary64} (finite : ∀ c, k.Mentions c → c.isFinite = true) :
    ∃ other, k.reread = some other := by
  rw [exists_reread_iff]
  intro c mentions
  obtain ⟨d, read, -⟩ := Binary64.exists_read? (finite c mentions)
  exact ⟨finite c mentions, Option.isSome_iff_exists.mpr ⟨d, read⟩⟩

end KernelSet

theorem Binary64.readsBack_of_short {c : Binary64} (finite : c.isFinite = true) (short : (c.numeral jsonLayout).Short) :
    c.ReadsBack := ⟨finite, read?_numeral jsonLayout finite short⟩

namespace Backend

variable {h after : Host} {name : String} {directory path : Path} {c : Config} {k : KernelSet Binary64}

theorem run_interpreted (name : String) (k : KernelSet Binary64) (generic : Path) (c : Config) (h : Host) :
    (interpreted.generate name k generic c).run.run h =
      (((generateInterpreted k (Artifact.kernels generic)).run.run h).1.map fun _ => Artifact.kernels generic,
        ((generateInterpreted k (Artifact.kernels generic)).run.run h).2) :=
  run_generate interpreted name k generic c h rfl

theorem readText_of_generate (named : Artifact.isModelName name = true)
    (generated : (interpreted.generate name k (Artifact.generic name directory) c).run.run h = (.ok path, after)) :
    after.isFile (Artifact.kernels (Artifact.generic name directory)) = true ∧
      after.disk.readText after.workingDirectory (Artifact.kernels (Artifact.generic name directory)) =
        .ok k.toJson.pretty := by
  obtain ⟨led, down⟩ := Artifact.leads_of_head (Artifact.head_fileName name)
  have isName : Path.IsName (Artifact.fileName name) := ⟨led, down, Artifact.plain_fileName named⟩
  have unstaged := not_isStaged_artifactPath interpreted named directory
  rw [run_interpreted] at generated
  obtain ⟨result, final⟩ := Prod.mk.inj generated
  change ¬ Artifact.IsStaged (Artifact.kernels (Artifact.generic name directory)) at unstaged
  rw [Artifact.kernels_generic] at result final unstaged ⊢
  have settles := settles_generateInterpreted (h := h) k isName unstaged
  generalize (generateInterpreted k (directory.join (Artifact.fileName name))).run.run h = outcome
    at result final settles
  cases settles with
  | failed => cases result
  | held => cases result
  | done u between l e made free changed =>
      obtain ⟨located, rfl⟩ := made
      obtain rfl : between = after := final
      have still : between.disk.locate between.workingDirectory (directory.join (Artifact.fileName name)) = .ok l := by
        rw [changed.workingDirectory]
        refine Disk.locate_mono ?_ located
        intro m there
        have apart : m ≠ l := by
          rintro rfl
          exact free there
        rw [changed.entries, Function.update_of_ne apart, there]
      have there := (changed.entries l).trans (Function.update_self ..)
      refine ⟨Host.isFile_iff.mpr ⟨l, _, still, there, rfl⟩, ?_⟩
      simp [Disk.readText, Disk.read, Disk.find, still, there, bind, Except.bind, pure, Except.pure,
        Content.text?_ofText]

theorem load_of_readText {other : KernelSet Binary64} (valid : k.Valid) (sized : k.Sized) (read : k.reread = some other)
    (named : Artifact.isModelName name = true)
    (there : after.isFile (Artifact.kernels (Artifact.generic name directory)) = true)
    (text : after.disk.readText after.workingDirectory (Artifact.kernels (Artifact.generic name directory)) =
      .ok k.toJson.pretty) :
    ((interpreted.load name (Artifact.generic name directory)).run.run after).1 = .ok other.artifact := by
  have parsed := KernelSet.parse?_pretty (KernelSet.words_of_valid valid sized)
  have checked := other.validate_eq_ok_iff.mpr (KernelSet.valid_of_reread read valid)
  rw [load, Artifact.run_openInterpreted, if_pos named, if_pos there, text]
  simp only [parsed, read, KernelSet.toArtifact, checked]

/-- What becomes of kernels with finite constants that are kept as a file. -/
structure Stored (k : KernelSet Binary64) (name : String) (directory : Path) (after : Host) : Prop where
  /-- The file holds the text of the kernels. -/
  text : after.disk.readText after.workingDirectory (Artifact.kernels (Artifact.generic name directory)) =
    .ok k.toJson.pretty
  /-- In this text only constants may be taken for others, each for what its digits are read as. -/
  read : KernelSet.parse? k.toJson.pretty = k.reread
  /-- The file can be loaded, as the kernels that are read. -/
  loaded : ∃ other, k.reread = some other ∧
    ((interpreted.load name (Artifact.generic name directory)).run.run after).1 = .ok other.artifact
  /-- They are the kernels that were written exactly if no constant is misread. -/
  same : k.reread = some k ↔ ∀ c, k.Mentions c → c.ReadsBack
  /-- The digits in the file belong to no other number. -/
  digits : ∀ c, k.Mentions c → (c.numeral Binary64.jsonLayout).nearest = c
  /-- A constant is read with its sign, and with an error of at most eight units of its last place. -/
  close : ∀ c, k.Mentions c → ∃ d, (c.numeral Binary64.jsonLayout).read? = some d ∧ c.Close d
  /-- A constant of few digits is not misread. -/
  short : ∀ c, k.Mentions c → (c.numeral Binary64.jsonLayout).Short → c.ReadsBack

/-- Kernels with finite constants are kept under digits that identify their constants, and can be loaded. They are
loaded as they were exactly if the reader, which rounds the digits and then what it makes of them, gives back each
constant. -/
theorem generate_stores (named : Artifact.isModelName name = true) (valid : k.Valid) (sized : k.Sized)
    (finite : ∀ c, k.Mentions c → c.isFinite = true)
    (generated : (interpreted.generate name k (Artifact.generic name directory) c).run.run h = (.ok path, after)) :
    Stored k name directory after := by
  obtain ⟨there, text⟩ := readText_of_generate named generated
  obtain ⟨other, read⟩ := KernelSet.exists_reread_of_finite finite
  constructor
  · exact text
  · exact KernelSet.parse?_pretty (KernelSet.words_of_valid valid sized)
  · exact ⟨other, read, load_of_readText valid sized read named there text⟩
  · exact k.reread_eq_self_iff
  · intro c mentions
    exact Binary64.numeral_nearest Binary64.jsonLayout (finite c mentions)
  · intro c mentions
    exact Binary64.exists_read? (finite c mentions)
  · intro c mentions short
    exact Binary64.readsBack_of_short (finite c mentions) short

theorem valid_single (c : Binary64) : (KernelSet.single (.const c)).Valid :=
  (KernelSet.single (.const c)).validate_eq_ok_iff.mp rfl

theorem eq_of_mentions_single {c d : Binary64} (mentions : (KernelSet.single (.const c)).Mentions d) : d = c := by
  obtain ⟨t, rfl | absent | absent, member⟩ := mentions
  · simpa [KernelSet.single] using member
  · cases absent
  · cases absent

theorem finite_single {c : Binary64} (finite : c.isFinite = true) (d : Binary64)
    (mentions : (KernelSet.single (.const c)).Mentions d) : d.isFinite = true := by
  rw [eq_of_mentions_single mentions]
  exact finite

theorem exists_generate_single (c : Binary64) : ∃ after, (interpreted.generate "m" (.single (.const c))
    (Artifact.generic "m" ⟨"out"⟩) (.inDirectory ⟨"out"⟩)).run.run Host.bare =
      (.ok (Artifact.kernels (Artifact.generic "m" ⟨"out"⟩)), after) := by
  have located : Host.bare.disk.locate Host.bare.workingDirectory (Artifact.kernels (Artifact.generic "m" ⟨"out"⟩)) =
      .ok ["out", "libm.kernels.json"] := by decide +kernel
  have named : Artifact.isModelName "m" = true := by decide
  obtain ⟨after, made, -⟩ :=
    run_generateInterpreted Host.bare_isEmptyDirectory.stores named located (.single (.const c))
  refine ⟨after, ?_⟩
  rw [run_interpreted, made]
  rfl

theorem generate_stores_tenth : ∃ after,
    (interpreted.generate "m" (.single (.const ⟨0x3fb999999999999a⟩)) (Artifact.generic "m" ⟨"out"⟩)
      (.inDirectory ⟨"out"⟩)).run.run Host.bare = (.ok (Artifact.kernels (Artifact.generic "m" ⟨"out"⟩)), after) ∧
    (∀ c, (KernelSet.single (.const ⟨0x3fb999999999999a⟩)).Mentions c → c.isFinite = true) ∧
    Stored (.single (.const ⟨0x3fb999999999999a⟩)) "m" ⟨"out"⟩ after ∧
    ((interpreted.load "m" (Artifact.generic "m" ⟨"out"⟩)).run.run after).1 =
      .ok (KernelSet.single (.const ⟨0x3fb999999999999a⟩)).artifact := by
  obtain ⟨after, made⟩ := exists_generate_single ⟨0x3fb999999999999a⟩
  have finite := finite_single (c := ⟨0x3fb999999999999a⟩) (by decide)
  have stored := generate_stores (by decide) (valid_single _) (KernelSet.sized_single _) finite made
  have same := stored.same.mpr <| by
    intro c mentions
    rw [eq_of_mentions_single mentions]
    decide +kernel
  obtain ⟨other, read, loaded⟩ := stored.loaded
  obtain rfl := Option.some.inj (same.symm.trans read)
  exact ⟨after, made, finite, stored, loaded⟩

/-- What is a tenth times eleven tenths in the arithmetic is not: it is loaded as the number below it, and evaluation
gives that number. -/
theorem folded_constant_misread : ∃ after a,
    (⟨0x3fbc28f5c28f5c2a⟩ : Binary64) = .mul ⟨0x3fb999999999999a⟩ ⟨0x3ff199999999999a⟩ ∧
    (∀ c, (KernelSet.single (.const ⟨0x3fbc28f5c28f5c2a⟩)).Mentions c → c.isFinite = true) ∧
    (interpreted.generate "m" (.single (.const ⟨0x3fbc28f5c28f5c2a⟩)) (Artifact.generic "m" ⟨"out"⟩)
      (.inDirectory ⟨"out"⟩)).run.run Host.bare = (.ok (Artifact.kernels (Artifact.generic "m" ⟨"out"⟩)), after) ∧
    ((interpreted.load "m" (Artifact.generic "m" ⟨"out"⟩)).run.run after).1 = .ok a ∧
    a.forward #[.ofNat 1] #[.ofNat 0] = some (.ok #[⟨0x3fbc28f5c28f5c29⟩]) ∧
    (KernelSet.single (.const ⟨0x3fbc28f5c28f5c2a⟩)).toArtifact =
      .ok (KernelSet.single (.const ⟨0x3fbc28f5c28f5c2a⟩)).artifact ∧
    (KernelSet.single (.const ⟨0x3fbc28f5c28f5c2a⟩)).artifact.forward #[.ofNat 1] #[.ofNat 0] =
      some (.ok #[⟨0x3fbc28f5c28f5c2a⟩]) := by
  obtain ⟨after, made⟩ := exists_generate_single ⟨0x3fbc28f5c28f5c2a⟩
  obtain ⟨there, text⟩ := readText_of_generate (by decide) made
  have read : (KernelSet.single (.const ⟨0x3fbc28f5c28f5c2a⟩)).reread =
      some (.single (.const ⟨0x3fbc28f5c28f5c29⟩)) := by
    decide +kernel
  have loaded := load_of_readText (valid_single _) (KernelSet.sized_single _) read (by decide) there text
  exact ⟨after, _, by decide +kernel, finite_single (by decide), made, loaded, rfl, rfl, rfl⟩

end Backend

end AutoDiff
