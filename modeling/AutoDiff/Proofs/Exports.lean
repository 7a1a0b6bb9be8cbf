import AutoDiff.CSource.Library
import AutoDiff.KernelSet.Source
import AutoDiff.Proofs.Validation
import Mathlib.Data.List.Nodup

namespace AutoDiff

namespace KernelSet

theorem symbol_inj {name part other : String} : symbol name part = symbol name other ↔ part = other := by
  constructor
  · intro same
    apply String.toList_injective
    have characters := congrArg String.toList same
    simp only [symbol, String.toList_append] at characters
    exact List.append_cancel_left characters
  · intro same
    rw [same]

theorem symbol_beq (name part other : String) :
    (symbol name part == symbol name other) = (part == other) := by
  rw [Bool.eq_iff_iff, beq_iff_eq, beq_iff_eq, symbol_inj]

/-- The symbols that opening a library of this name and order looks up. -/
def exported (name : String) (order : Order) : List String :=
  (["input_size", "output_size", "derivative_order", "forward_zero"]
    ++ (if order.includesJacobian then ["jacobian"] else [])
    ++ (if order.includesHessian then ["hessian"] else [])).map (symbol name)

theorem exported_nodup (name : String) (order : Order) : (exported name order).Nodup := by
  unfold exported
  refine List.Nodup.map (fun _ _ => symbol_inj.mp) ?_
  cases order <;> decide

theorem isModelName_symbol {name part : String} (named : Artifact.isModelName name = true)
    (plain : part.toList.all (fun c => Artifact.isLetter c || c.isDigit) = true) :
    Artifact.isModelName (symbol name part) = true := by
  have characters : (symbol name part).toList = name.toList ++ '_' :: part.toList := by simp [symbol]
  unfold Artifact.isModelName at named ⊢
  rw [characters]
  cases first : name.toList with
  | nil => simp [first] at named
  | cons c cs =>
      simp only [first, Bool.and_eq_true] at named
      have underscore : Artifact.isLetter '_' = true := by decide
      simp [named.1, named.2, plain, underscore]

theorem isModelName_exported {name : String} (named : Artifact.isModelName name = true) (order : Order)
    {s : String} (member : s ∈ exported name order) : Artifact.isModelName s = true := by
  obtain ⟨part, among, rfl⟩ := List.mem_map.mp member
  apply isModelName_symbol named
  clear member
  revert part
  cases order <;> decide

variable {k : KernelSet Binary64}

theorem symbols_source (valid : k.Valid) (name : String) : (k.source name).symbols = exported name k.order := by
  have jacobian := valid.hasJacobian
  have hessian := valid.hasHessian
  cases first : k.jacobian <;> cases second : k.hessian <;>
    simp [source, CSource.TranslationUnit.symbols, exported, kernelSource, first, second, ← jacobian,
      ← hessian]

end KernelSet

namespace CSource.TranslationUnit

open KernelSet

variable (k : KernelSet Binary64) (name : String)

theorem constant?_source :
    (k.source name).constant? (symbol name "input_size") = some k.inputSize ∧
      (k.source name).constant? (symbol name "output_size") = some k.outputSize ∧
      (k.source name).constant? (symbol name "derivative_order") = some k.order.toNat := by
  simp [constant?, source, symbol_beq]

theorem kernel?_source :
    (k.source name).kernel? (symbol name "forward_zero") =
        some (kernelSource name "forward_zero" [.x] .y k.forward) ∧
      (k.source name).kernel? (symbol name "jacobian") =
        k.jacobian.map (kernelSource name "jacobian" [.x] .jac) ∧
      (k.source name).kernel? (symbol name "hessian") =
        k.hessian.map (kernelSource name "hessian" [.x, .w] .hess) := by
  cases first : k.jacobian <;> cases second : k.hessian <;>
    simp [kernel?, source, kernelSource, symbol_beq, first, second]

def without (u : TranslationUnit) (s : String) : TranslationUnit :=
  { u with
    constants := u.constants.filter (·.symbol != s)
    kernels := u.kernels.filter (·.symbol != s) }

theorem find?_without {β : Type} (items : List β) (f : β → String) (s other : String) :
    (items.filter (f · != s)).find? (f · == other) =
      if other = s then none else items.find? (f · == other) := by
  induction items with
  | nil => simp
  | cons item items ih =>
      by_cases gone : f item = s
      · rw [List.filter_cons_of_neg (by simp [gone]), ih]
        by_cases same : other = s
        · simp [same]
        · have away : (f item == other) = false := beq_false_of_ne (gone ▸ Ne.symm same)
          simp [same, away]
      · rw [List.filter_cons_of_pos (by simpa using gone), List.find?_cons, List.find?_cons, ih]
        by_cases same : other = s
        · subst same
          rw [beq_false_of_ne gone, if_pos rfl]
        · simp [same]

theorem constant?_without (u : TranslationUnit) (s other : String) :
    (u.without s).constant? other = if other = s then none else u.constant? other := by
  unfold constant? without
  rw [find?_without u.constants Constant.symbol]
  split <;> rfl

theorem kernel?_without (u : TranslationUnit) (s other : String) :
    (u.without s).kernel? other = if other = s then none else u.kernel? other :=
  find?_without u.kernels Kernel.symbol s other

theorem ofNat?_toNat (order : Order) : Order.ofNat? order.toNat = some order := by
  cases order <;> rfl

theorem bind_without {k : KernelSet Binary64} (valid : k.Valid) (inputs : 1 ≤ k.inputSize)
    (outputs : 1 ≤ k.outputSize) (rule : PowerRule) {s : String} (member : s ∈ exported name k.order) :
    ((k.source name).without s).bind rule name = .error (.missingSymbol s) := by
  obtain ⟨part, among, rfl⟩ := List.mem_map.mp member
  obtain ⟨inputSize, outputSize, order⟩ := constant?_source k name
  obtain ⟨forward, jacobian, hessian⟩ := kernel?_source k name
  have first := valid.hasJacobian
  have second := valid.hasHessian
  have nonempty : ¬(k.inputSize = 0 ∨ k.outputSize = 0) := by omega
  have parts : part ∈ ["input_size", "output_size", "derivative_order", "forward_zero"] ∨
      k.order.includesJacobian = true ∧ part = "jacobian" ∨
      k.order.includesHessian = true ∧ part = "hessian" := by
    revert among
    cases k.order <;> simp +decide [or_assoc]
  simp only [bind, bindConstant, bindKernel, bindWanted, constant?_without, kernel?_without, symbol_inj,
    inputSize, outputSize, order, forward, jacobian, hessian]
  rcases parts with plain | ⟨wanted, rfl⟩ | ⟨wanted, rfl⟩
  · simp only [List.mem_cons, List.not_mem_nil, or_false] at plain
    rcases plain with rfl | rfl | rfl | rfl <;>
      simp [Bind.bind, Except.bind, Pure.pure, Except.pure, nonempty, ofNat?_toNat]
  · simp [Bind.bind, Except.bind, Pure.pure, Except.pure, nonempty, ofNat?_toNat, wanted]
  · have both := Order.includesJacobian_of_includesHessian wanted
    obtain ⟨t, found⟩ := Option.isSome_iff_exists.mp (first.trans both)
    simp [Bind.bind, Except.bind, Pure.pure, Except.pure, nonempty, ofNat?_toNat, wanted, both, found]

theorem bind_congr {k : KernelSet Binary64} (rule : PowerRule) {u : TranslationUnit}
    (constants : ∀ s ∈ exported name k.order, u.constant? s = (k.source name).constant? s)
    (kernels : ∀ s ∈ exported name k.order, u.kernel? s = (k.source name).kernel? s) :
    u.bind rule name = (k.source name).bind rule name := by
  obtain ⟨inputSize, outputSize, order⟩ := constant?_source k name
  have among (part : String) (member : part ∈ ["input_size", "output_size", "derivative_order", "forward_zero"]) :
      symbol name part ∈ exported name k.order :=
    List.mem_map.mpr ⟨part, List.mem_append_left _ (List.mem_append_left _ member), rfl⟩
  have jacobian : u.bindWanted k.order.includesJacobian (symbol name "jacobian") =
      (k.source name).bindWanted k.order.includesJacobian (symbol name "jacobian") := by
    cases wanted : k.order.includesJacobian with
    | false => rfl
    | true =>
        have member : symbol name "jacobian" ∈ exported name k.order := by simp [exported, wanted]
        simp only [bindWanted, bindKernel, kernels _ member]
  have hessian : u.bindWanted k.order.includesHessian (symbol name "hessian") =
      (k.source name).bindWanted k.order.includesHessian (symbol name "hessian") := by
    cases wanted : k.order.includesHessian with
    | false => rfl
    | true =>
        have member : symbol name "hessian" ∈ exported name k.order := by simp [exported, wanted]
        simp only [bindWanted, bindKernel, kernels _ member]
  have forward := kernels _ (among "forward_zero" (by decide))
  have first := constants _ (among "input_size" (by decide))
  have second := constants _ (among "output_size" (by decide))
  have third := constants _ (among "derivative_order" (by decide))
  simp only [bind, bindConstant, bindKernel, first, second, third, inputSize, outputSize, order, forward]
  simp only [Bind.bind, Except.bind, Pure.pure, Except.pure, ofNat?_toNat, jacobian, hessian]

end CSource.TranslationUnit

end AutoDiff
