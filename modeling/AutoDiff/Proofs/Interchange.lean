import AutoDiff.Artifact.Load
import AutoDiff.Proofs.ShortestDigits
import AutoDiff.Proofs.SourceExecution
import AutoDiff.Proofs.SourceReading

namespace AutoDiff

namespace Artifact

def forwardChecks (inputSize outputSize : Nat) (x y : Array Binary64) : Except EvalError Unit := do
  checkBuffer "input" inputSize x.size
  checkBuffer "output" outputSize y.size

def jacobianChecks (inputSize outputSize : Nat) (order : Order) (x result : Array Binary64) :
    Except EvalError Unit :=
  if order.includesJacobian then do
    checkBuffer "input" inputSize x.size
    checkBuffer "jacobian" (wordProduct outputSize inputSize) result.size
  else .error (.derivativeUnavailable "jacobian" .first order)

def hessianChecks (inputSize outputSize : Nat) (order : Order) (x w result : Array Binary64) :
    Except EvalError Unit :=
  if order.includesHessian then do
    checkBuffer "input" inputSize x.size
    checkBuffer "weight" outputSize w.size
    checkBuffer "hessian" (wordProduct inputSize inputSize) result.size
  else .error (.derivativeUnavailable "hessian" .second order)

/-- Two calls report what the checks before them report, or fill their buffers alike. -/
def SameOutcome (R : Binary64 → Binary64 → Prop) (checks : Except EvalError Unit)
    (first second : Filled Binary64) : Prop :=
  match checks with
  | .error e => first = some (.error e) ∧ second = some (.error e)
  | .ok () => ∃ u v, first = some (.ok u) ∧ second = some (.ok v) ∧ List.Forall₂ R u.toList v.toList

/-- Artifacts of the same sizes and order, every call of which has the same outcome. -/
structure Agrees (R : Binary64 → Binary64 → Prop) (a b : Artifact Binary64) : Prop where
  inputSize : a.inputSize = b.inputSize
  outputSize : a.outputSize = b.outputSize
  order : a.order = b.order
  forward : ∀ x y, SameOutcome R (forwardChecks b.inputSize b.outputSize x y) (a.forward x y) (b.forward x y)
  jacobian : ∀ x result, SameOutcome R (jacobianChecks b.inputSize b.outputSize b.order x result)
    (a.jacobian x result) (b.jacobian x result)
  hessian : ∀ x w result, SameOutcome R (hessianChecks b.inputSize b.outputSize b.order x w result)
    (a.hessian x w result) (b.hessian x w result)

theorem sameOutcome_guarded {R : Binary64 → Binary64 → Prop} {checks : Except EvalError Unit}
    {first second : Filled Binary64} (same : checks = .ok () →
      ∃ u v, first = some (.ok u) ∧ second = some (.ok v) ∧ List.Forall₂ R u.toList v.toList) :
    SameOutcome R checks (guarded checks first) (guarded checks second) := by
  cases checks with
  | error e => exact ⟨rfl, rfl⟩
  | ok => exact same rfl

theorem sameOutcome_error {R : Binary64 → Binary64 → Prop} {checks : Except EvalError Unit} {e : EvalError}
    (failed : checks = .error e) : SameOutcome R checks (some (.error e)) (some (.error e)) := by
  rw [failed]
  exact ⟨rfl, rfl⟩

@[simp] theorem checkBuffer_eq_ok_iff (buffer : String) (expected found : Nat) :
    checkBuffer buffer expected found = .ok () ↔ found = expected := by
  unfold checkBuffer
  split
  · next same => simp [same]
  · next different => simp [Ne.symm different]

theorem forwardChecks_eq_ok_iff {inputSize outputSize : Nat} {x y : Array Binary64} :
    forwardChecks inputSize outputSize x y = .ok () ↔ x.size = inputSize ∧ y.size = outputSize := by
  rw [forwardChecks, check_bind_eq_ok_iff, checkBuffer_eq_ok_iff, checkBuffer_eq_ok_iff]

end Artifact

open CSource

theorem CSource.Literal.value_ofBinary64_of_infinite {c : Binary64} (number : c.isNaN = false)
    (infinite : c.isFinite = false) : (Literal.ofBinary64 c).value = c := by
  have exponent : c.exponentField = 0x7ff := by simpa [Binary64.isFinite] using infinite
  have fraction : c.fractionField = 0 := by simpa [Binary64.isNaN, exponent] using number
  have written : Literal.ofBinary64 c = .infinity c.isNegative := by
    simp [Literal.ofBinary64, number, infinite]
  have high : c.bits.toNat / 2 ^ 52 % 2 ^ 11 = 0x7ff := by
    rw [← Nat.shiftRight_eq_div_pow, ← Nat.and_two_pow_sub_one_eq_mod]
    exact exponent
  have low : c.bits.toNat % 2 ^ 52 = 0 := by
    rw [← Nat.and_two_pow_sub_one_eq_mod]
    exact fraction
  have sign : c.isNegative = decide (c.bits.toNat / 2 ^ 63 = 1) := by
    rw [← Nat.shiftRight_eq_div_pow, Binary64.isNegative, Bool.eq_iff_iff, beq_iff_eq, decide_eq_true_iff,
      ← UInt64.toNat_inj]
    rfl
  have bound := c.bits.toNat_lt
  have same : (Binary64.infinity.negIf c.isNegative).bits.toNat = c.bits.toNat := by
    rw [sign]
    by_cases negative : c.bits.toNat / 2 ^ 63 = 1
    · have word : (Binary64.infinity.negIf true).bits.toNat = 0xfff0000000000000 := by decide
      rw [decide_eq_true negative, word]
      omega
    · have word : (Binary64.infinity.negIf false).bits.toNat = 0x7ff0000000000000 := by decide
      rw [decide_eq_false negative, word]
      omega
  rw [written]
  exact congrArg Binary64.mk (UInt64.toNat_inj.mp same)

/-- A constant is read back from its literal. -/
theorem CSource.Literal.alike_value (c : Binary64) : Binary64.Alike (Literal.ofBinary64 c).value c := by
  cases number : c.isNaN with
  | true =>
      have written : Literal.ofBinary64 c = .nan := by simp [Literal.ofBinary64, number]
      rw [written]
      exact .inr ⟨by decide, number⟩
  | false =>
      cases finite : c.isFinite with
      | true =>
          have written : Literal.ofBinary64 c = .decimal (c.numeral Binary64.constantLayout) := by
            simp [Literal.ofBinary64, number, finite]
          rw [written]
          exact .inl (Binary64.numeral_nearest Binary64.constantLayout finite)
      | false => exact .inl (value_ofBinary64_of_infinite number finite)

/-- A kernel in C that stores what a trace evaluates to. -/
def CSource.Kernel.Implements (R : Binary64 → Binary64 → Prop) (kernel : CSource.Kernel) (t : Trace Binary64) :
    Prop :=
  ∀ x w buffer : Array Binary64, x.size = t.inputCount → w.size = t.weightCount →
    buffer.size = t.outputs.length → ∃ stored computed, kernel.run? wholeRule x w buffer = some stored ∧
      t.evaluateInto x w buffer = some (.ok computed) ∧ List.Forall₂ R stored.toList computed.toList

namespace KernelSet

variable {R : Binary64 → Binary64 → Prop} {k : KernelSet Binary64}

theorem implements (congruence : Congruence R) {t : Trace Binary64} (wellFormed : t.WellFormed)
    (literals : t.Literals R) (name part : String) (arguments : List Buffer) (result : Buffer) :
    (kernelSource name part arguments result t).Implements R t :=
  fun _ _ _ inputs weights length =>
    Trace.exists_run congruence literals wellFormed name part arguments result inputs weights length

theorem exists_fill {kernel : CSource.Kernel} {t : Trace Binary64} (implements : kernel.Implements R t)
    {x w buffer : Array Binary64} (inputs : x.size = t.inputCount) (weights : w.size = t.weightCount)
    (length : buffer.size = t.outputs.length) :
    ∃ u v, TranslationUnit.fill wholeRule kernel x w buffer = some (.ok u) ∧
      fill t x w buffer = some (.ok v) ∧ List.Forall₂ R u.toList v.toList := by
  obtain ⟨stored, computed, run, evaluated, related⟩ := implements x w buffer inputs weights length
  exact ⟨stored, computed, by simp [TranslationUnit.fill, run], by rw [fill, evaluated]; rfl,
    related⟩

def compiled (k : KernelSet Binary64) (name : String) (rule : PowerRule) : Artifact Binary64 where
  inputSize := k.inputSize
  outputSize := k.outputSize
  order := k.order
  forward x y :=
    Artifact.guarded (Artifact.forwardChecks k.inputSize k.outputSize x y)
      (TranslationUnit.fill rule (kernelSource name "forward_zero" [.x] .y k.forward) x #[] y)
  jacobian x result :=
    match k.jacobian with
    | none => some (.error (.derivativeUnavailable "jacobian" .first k.order))
    | some t =>
      Artifact.guarded
        (do Artifact.checkBuffer "input" k.inputSize x.size
            Artifact.checkBuffer "jacobian" (wordProduct k.outputSize k.inputSize) result.size)
        (TranslationUnit.fill rule (kernelSource name "jacobian" [.x] .jac t) x #[] result)
  hessian x w result :=
    match k.hessian with
    | none => some (.error (.derivativeUnavailable "hessian" .second k.order))
    | some t =>
      Artifact.guarded
        (do Artifact.checkBuffer "input" k.inputSize x.size
            Artifact.checkBuffer "weight" k.outputSize w.size
            Artifact.checkBuffer "hessian" (wordProduct k.inputSize k.inputSize) result.size)
        (TranslationUnit.fill rule (kernelSource name "hessian" [.x, .w] .hess t) x w result)

theorem bind_source (valid : k.Valid) (inputs : 1 ≤ k.inputSize) (outputs : 1 ≤ k.outputSize)
    (rule : PowerRule) (name : String) : (k.source name).bind rule name = .ok (k.compiled name rule) := by
  obtain ⟨inputSize, outputSize, order⟩ := TranslationUnit.constant?_source k name
  obtain ⟨first, second, third⟩ := TranslationUnit.kernel?_source k name
  have nonempty : ¬(k.inputSize = 0 ∨ k.outputSize = 0) := by omega
  have hasJacobian := valid.hasJacobian
  have hasHessian := valid.hasHessian
  simp only [TranslationUnit.bind, TranslationUnit.bindConstant, TranslationUnit.bindKernel,
    TranslationUnit.bindWanted, inputSize, outputSize, order, first, second, third]
  cases jacobian : k.jacobian <;> cases hessian : k.hessian <;>
    simp only [jacobian, hessian, Option.isSome_none, Option.isSome_some] at hasJacobian hasHessian <;>
    simp [Bind.bind, Except.bind, Pure.pure, Except.pure, TranslationUnit.ofNat?_toNat, nonempty,
      ← hasJacobian, ← hasHessian, compiled, jacobian, hessian] <;> rfl

/-- The artifact of the library and the interpreted one have the same outcomes. -/
theorem agrees (congruence : Congruence R) (valid : k.Valid) (name : String)
    (forward : k.forward.Literals R) (jacobian : ∀ t, k.jacobian = some t → t.Literals R)
    (hessian : ∀ t, k.hessian = some t → t.Literals R) :
    (k.compiled name wholeRule).Agrees R k.artifact := by
  have hasJacobian := valid.hasJacobian
  have hasHessian := valid.hasHessian
  constructor
  · rfl
  · rfl
  · rfl
  · intro x y
    apply Artifact.sameOutcome_guarded
    intro passed
    obtain ⟨inputs, outputs⟩ := Artifact.forwardChecks_eq_ok_iff.mp passed
    obtain ⟨wellFormed, inputCount, weightCount, length⟩ := valid.forward
    exact exists_fill (implements congruence wellFormed forward name _ _ _) (inputs.trans inputCount.symm)
      weightCount.symm (outputs.trans length.symm)
  · intro x result
    cases kernel : k.jacobian with
    | none =>
        have unwanted : k.order.includesJacobian = false := by simpa [kernel] using hasJacobian.symm
        have failed : Artifact.jacobianChecks k.inputSize k.outputSize k.order x result =
            .error (.derivativeUnavailable "jacobian" .first k.order) := by
          simp [Artifact.jacobianChecks, unwanted]
        simp only [compiled, artifact, kernel]
        exact Artifact.sameOutcome_error failed
    | some t =>
        have wanted : k.order.includesJacobian = true := by simpa [kernel] using hasJacobian.symm
        obtain ⟨wellFormed, inputCount, weightCount, length⟩ := valid.jacobian t kernel
        simp only [compiled, artifact, kernel, Artifact.jacobianChecks, wanted, if_true]
        apply Artifact.sameOutcome_guarded
        intro passed
        rw [check_bind_eq_ok_iff, Artifact.checkBuffer_eq_ok_iff, Artifact.checkBuffer_eq_ok_iff] at passed
        exact exists_fill (implements congruence wellFormed (jacobian t kernel) name _ _ _)
          (passed.1.trans inputCount.symm) weightCount.symm (passed.2.trans length.symm)
  · intro x w result
    cases kernel : k.hessian with
    | none =>
        have unwanted : k.order.includesHessian = false := by simpa [kernel] using hasHessian.symm
        have failed : Artifact.hessianChecks k.inputSize k.outputSize k.order x w result =
            .error (.derivativeUnavailable "hessian" .second k.order) := by
          simp [Artifact.hessianChecks, unwanted]
        simp only [compiled, artifact, kernel]
        exact Artifact.sameOutcome_error failed
    | some t =>
        have wanted : k.order.includesHessian = true := by simpa [kernel] using hasHessian.symm
        obtain ⟨wellFormed, inputCount, weightCount, length⟩ := valid.hessian t kernel
        simp only [compiled, artifact, kernel, Artifact.hessianChecks, wanted, if_true]
        apply Artifact.sameOutcome_guarded
        intro passed
        rw [check_bind_eq_ok_iff, check_bind_eq_ok_iff, Artifact.checkBuffer_eq_ok_iff,
          Artifact.checkBuffer_eq_ok_iff, Artifact.checkBuffer_eq_ok_iff] at passed
        exact exists_fill (implements congruence wellFormed (hessian t kernel) name _ _ _)
          (passed.1.trans inputCount.symm) (passed.2.1.trans weightCount.symm)
          (passed.2.2.trans length.symm)

def Carries (R : Binary64 → Binary64 → Prop) (u : TranslationUnit) (s : String) (arguments : List Buffer)
    (t : Trace Binary64) (inputs weights results : Nat) : Prop :=
  ∃ kernel, u.kernel? s = some kernel ∧ kernel.arguments = arguments ∧
    kernel.Proper inputs weights results ∧ kernel.Implements R t

/-- The library of a source exports what opening it looks up, its kernels implement those of a kernel set, and
the opened artifact does what the interpreted one does. -/
structure Realized (R : Binary64 → Binary64 → Prop) (k : KernelSet Binary64) (name : String)
    (u : TranslationUnit) : Prop where
  symbols : u.symbols = exported name k.order
  distinct : (exported name k.order).Nodup
  identifiers : ∀ s ∈ exported name k.order, Artifact.isModelName s = true
  inputSize : u.constant? (symbol name "input_size") = some k.inputSize
  outputSize : u.constant? (symbol name "output_size") = some k.outputSize
  order : u.constant? (symbol name "derivative_order") = some k.order.toNat
  forward : Carries R u (symbol name "forward_zero") [.x] k.forward k.inputSize 0 k.outputSize
  jacobian : ∀ t, k.jacobian = some t → Carries R u (symbol name "jacobian") [.x] t
    k.inputSize 0 (wordProduct k.outputSize k.inputSize)
  hessian : ∀ t, k.hessian = some t → Carries R u (symbol name "hessian") [.x, .w] t
    k.inputSize k.outputSize (wordProduct k.inputSize k.inputSize)
  needed : ∀ s ∈ exported name k.order, (u.without s).bind wholeRule name = .error (.missingSymbol s)
  enough : ∀ v : TranslationUnit, (∀ s ∈ exported name k.order,
    v.constant? s = u.constant? s ∧ v.kernel? s = u.kernel? s) → v.bind wholeRule name = u.bind wholeRule name
  opened : ∃ a, u.bind wholeRule name = .ok a ∧ a.Agrees R k.artifact

theorem carries (congruence : Congruence R) {u : TranslationUnit} {name part : String}
    {arguments : List Buffer} {result : Buffer} {t : Trace Binary64} {inputs weights results : Nat}
    (found : u.kernel? (symbol name part) = some (kernelSource name part arguments result t))
    (fits : t.Fits inputs weights results) (x : .x ∈ arguments) (w : 0 < weights → .w ∈ arguments)
    (literals : t.Literals R) : Carries R u (symbol name part) arguments t inputs weights results :=
  ⟨_, found, rfl, fits.proper x w, implements congruence fits.wellFormed literals name part arguments result⟩

theorem realized (congruence : Congruence R) (valid : k.Valid) (inputs : 1 ≤ k.inputSize)
    (outputs : 1 ≤ k.outputSize) {name : String} (named : Artifact.isModelName name = true)
    (literals : ∀ c, k.Mentions c → R (Literal.ofBinary64 c).value c) : k.Realized R name (k.source name) := by
  have forward : k.forward.Literals R := fun c member => literals c ⟨_, .inl rfl, member⟩
  have jacobian (t : Trace Binary64) (found : k.jacobian = some t) : t.Literals R :=
    fun c member => literals c ⟨t, .inr (.inl found), member⟩
  have hessian (t : Trace Binary64) (found : k.hessian = some t) : t.Literals R :=
    fun c member => literals c ⟨t, .inr (.inr found), member⟩
  obtain ⟨inputSize, outputSize, order⟩ := TranslationUnit.constant?_source k name
  obtain ⟨first, second, third⟩ := TranslationUnit.kernel?_source k name
  constructor
  · exact symbols_source valid name
  · exact exported_nodup name k.order
  · intro s member
    exact isModelName_exported named k.order member
  · exact inputSize
  · exact outputSize
  · exact order
  · exact carries congruence first valid.forward (by simp) (by simp) forward
  · intro t found
    rw [found] at second
    exact carries congruence second (valid.jacobian t found) (by simp) (by simp) (jacobian t found)
  · intro t found
    rw [found] at third
    exact carries congruence third (valid.hessian t found) (by simp) (by simp) (hessian t found)
  · intro s member
    exact TranslationUnit.bind_without name valid inputs outputs wholeRule member
  · intro u same
    exact TranslationUnit.bind_congr name wholeRule (fun s member => (same s member).1)
      (fun s member => (same s member).2)
  · exact ⟨_, bind_source valid inputs outputs wholeRule name,
      agrees congruence valid name forward jacobian hessian⟩

end KernelSet

namespace Artifact

theorem eq_of_sameOutcome {checks : Except EvalError Unit} {first second : Filled Binary64}
    (same : SameOutcome Eq checks first second) : first = second := by
  cases checks with
  | error e => rw [same.1, same.2]
  | ok =>
      obtain ⟨u, v, left, right, equal⟩ := same
      have lists : u.toList = v.toList := by simpa only [List.forall₂_eq_eq_eq] using equal
      rw [left, right, Array.toList_inj.mp lists]

theorem Agrees.eq {a b : Artifact Binary64} (agrees : Agrees Eq a b) (handle : a.handle = b.handle) :
    a = b := by
  have forward : a.forward = b.forward := by
    funext x y
    exact eq_of_sameOutcome (agrees.forward x y)
  have jacobian : a.jacobian = b.jacobian := by
    funext x result
    exact eq_of_sameOutcome (agrees.jacobian x result)
  have hessian : a.hessian = b.hessian := by
    funext x w result
    exact eq_of_sameOutcome (agrees.hessian x w result)
  obtain ⟨inputSize, outputSize, order, _, _, _⟩ := agrees
  cases a
  cases b
  simp_all

end Artifact

namespace KernelSet

variable {k : KernelSet Binary64}

/-- Libraries and interpreted kernels are interchangeable, up to the words of NaN constants, which sources do
not keep. A library is what is read from its text, wherever it is compiled. -/
theorem interchangeable (accepted : k.validate = .ok ()) (inputs : 1 ≤ k.inputSize)
    (outputs : 1 ≤ k.outputSize) {name : String} (named : Artifact.isModelName name = true)
    (predefined : List String) :
    k.toArtifact = .ok k.artifact ∧
      ∃ u, TranslationUnit.read? predefined (k.source name).text = some u ∧
        k.Realized Binary64.Alike name u ∧
        ((∀ c, k.Mentions c → c.isNaN = true → c = .nan) →
          k.Realized Eq name u ∧ u.bind wholeRule name = .ok k.artifact) := by
  have valid := k.validate_eq_ok_iff.mp accepted
  constructor
  · rw [toArtifact, accepted]
  refine ⟨k.source name, k.read?_source named predefined, ?_, ?_⟩
  · exact realized congruence_alike valid inputs outputs named fun c _ => Literal.alike_value c
  intro nans
  have same (c : Binary64) (mentioned : k.Mentions c) : (Literal.ofBinary64 c).value = c := by
    rcases Literal.alike_value c with same | ⟨-, number⟩
    · exact same
    · obtain rfl := nans c mentioned number
      decide
  have faithful := realized congruence_eq valid inputs outputs named same
  constructor
  · exact faithful
  · obtain ⟨a, opened, agrees⟩ := faithful.opened
    have bound := bind_source valid inputs outputs wholeRule name
    rw [bound] at opened
    obtain rfl : k.compiled name wholeRule = a := Except.ok.inj opened
    rw [bound, agrees.eq rfl]

def tenthOfSquare : KernelSet Binary64 where
  order := .second
  inputSize := 1
  outputSize := 1
  parameterSize := 0
  forward := {
    nodes := #[.input 0, .const ⟨0x3fb999999999999a⟩, .power 0 2, .binary .mul 1 2]
    inputCount := 1
    weightCount := 0
    outputs := [3] }
  jacobian := some {
    nodes := #[.input 0, .const ⟨0x3fc999999999999a⟩, .binary .mul 1 0]
    inputCount := 1
    weightCount := 0
    outputs := [2] }
  hessian := some {
    nodes := #[.weight 0, .const ⟨0x3fc999999999999a⟩, .binary .mul 0 1]
    inputCount := 1
    weightCount := 1
    outputs := [2] }

theorem interchangeable_tenthOfSquare : ∃ u,
    TranslationUnit.read? [] (tenthOfSquare.source "tenth").text = some u ∧
      tenthOfSquare.Realized Eq "tenth" u ∧ u.bind wholeRule "tenth" = .ok tenthOfSquare.artifact := by
  obtain ⟨-, u, read, -, faithful⟩ := interchangeable (k := tenthOfSquare) (by decide +kernel) (by decide)
    (by decide) (by decide : Artifact.isModelName "tenth" = true) []
  refine ⟨u, read, faithful ?_⟩
  rintro c ⟨t, rfl | found | found, member⟩ number
  · obtain rfl : c = ⟨0x3fb999999999999a⟩ := by simpa [tenthOfSquare] using member
    exact absurd number (by decide)
  · obtain rfl := Option.some.inj found
    obtain rfl : c = ⟨0x3fc999999999999a⟩ := by simpa using member
    exact absurd number (by decide)
  · obtain rfl := Option.some.inj found
    obtain rfl : c = ⟨0x3fc999999999999a⟩ := by simpa using member
    exact absurd number (by decide)

end KernelSet

end AutoDiff
