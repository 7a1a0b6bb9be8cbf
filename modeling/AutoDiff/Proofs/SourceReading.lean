import AutoDiff.Proofs.Exports
import AutoDiff.Proofs.SourceTexts

namespace AutoDiff

namespace Binary64

theorem typed_numeral (layout : Layout) (x : Binary64) :
    (x.numeral layout).fraction ≠ [] ∨ (x.numeral layout).exponent ≠ none := by
  unfold numeral
  dsimp only
  split
  · exact .inl (by simp)
  · next some =>
      obtain ⟨d, ds, digits, -⟩ := exists_head_shortestFrom some layout.tie
        (leadingExponent x.magnitude.1 x.magnitude.2) 17
      split
      · left
        unfold positional
        split
        · simp [shortest, digits]
        · dsimp only
          split
          · exact List.cons_ne_nil _ _
          · next other => simpa using other
      · exact .inr (by simp [scientific])

theorem whole_numeral_ne_nil (layout : Layout) (x : Binary64) : (x.numeral layout).whole ≠ [] := by
  intro empty
  have whole := isWhole_numeral layout x
  rw [empty] at whole
  cases whole

end Binary64

open CSource

theorem CSource.Literal.readable_ofBinary64 (c : Binary64) : (Literal.ofBinary64 c).Readable := by
  unfold ofBinary64
  split
  · trivial
  split
  · exact ⟨c.whole_numeral_ne_nil _, c.typed_numeral _⟩
  · trivial

theorem Node.readable_toExpr (node : Node Binary64) : node.toExpr.Readable := by
  cases node with
  | const c => exact Literal.readable_ofBinary64 c
  | unary op arg => cases op <;> trivial
  | binary op lhs rhs => cases op <;> trivial
  | _ => trivial

theorem Trace.readable_statements (t : Trace Binary64) (result : Buffer) :
    ∀ s ∈ t.statements result, s.Readable := by
  intro s member
  simp only [statements, List.mem_cons, List.mem_append, List.mem_map] at member
  rcases member with ((rfl | among) | ⟨⟨node, id⟩, -, rfl⟩) | ⟨⟨id, slot⟩, -, rfl⟩
  · trivial
  · split at among
    · rw [List.mem_singleton.mp among]
      trivial
    · cases among
  · exact node.readable_toExpr
  · trivial

namespace KernelSet

variable (k : KernelSet Binary64) {name : String} (named : Artifact.isModelName name = true)

include named

/-- The symbols of a library end with a small letter, so that none of them is the attribute that exports them. -/
theorem isSymbol_symbol {part : String} (member : part ∈ ["input_size", "output_size", "derivative_order",
    "forward_zero", "jacobian", "hessian"]) : IsSymbol (symbol name part) := by
  have plain : part.toList.all (fun c => Artifact.isLetter c || c.isDigit) = true ∧
      part.toList.getLast? ≠ some 'T' ∧ part.toList ≠ [] := by
    revert part
    decide
  refine ⟨isModelName_symbol named plain.1, ?_⟩
  intro same
  have last : (symbol name part).toList.getLast? = some 'T' := by rw [same]; decide
  have characters : (symbol name part).toList = (name.toList ++ ['_']) ++ part.toList := by simp [symbol]
  rw [characters, List.getLast?_append_of_ne_nil _ plain.2.2] at last
  exact plain.2.1 last

theorem readable_kernelSource {part : String} (member : part ∈ ["input_size", "output_size", "derivative_order",
    "forward_zero", "jacobian", "hessian"]) (arguments : List Buffer) (result : Buffer) (t : Trace Binary64) :
    (kernelSource name part arguments result t).Readable where
  symbol := isSymbol_symbol named member
  body := t.readable_statements result

theorem readable_title : ∀ c ∈ (k.source name).title.toList, c ≠ '*' ∧ c ≠ '\n' := by
  have title : (k.source name).title =
      name ++ ": generated by adcodegen, derivative order " ++ k.order.name := rfl
  have rest : (": generated by adcodegen, derivative order " ++ k.order.name).toList.all
      (fun c => decide (c ≠ '*' ∧ c ≠ '\n')) = true := by
    cases k.order <;> decide +kernel
  intro c member
  rw [title, String.append_assoc, String.toList_append] at member
  rcases List.mem_append.mp member with member | member
  · have word : isWordChar c = true := by
      obtain ⟨first, tail, same, letter, all⟩ := exists_of_isModelName named
      rw [same] at member
      rcases List.mem_cons.mp member with rfl | member
      · simp [isWordChar, letter]
      · exact all c member
    constructor
    · rintro rfl
      cases word
    · rintro rfl
      cases word
  · exact of_decide_eq_true (List.all_eq_true.mp rest c member)

theorem readable_source : (k.source name).Readable where
  title := k.readable_title named
  constants := by
    intro c member
    simp only [source, List.mem_cons, List.not_mem_nil, or_false] at member
    rcases member with rfl | rfl | rfl
    · exact ⟨.inl rfl, isSymbol_symbol named (by decide)⟩
    · exact ⟨.inl rfl, isSymbol_symbol named (by decide)⟩
    · exact ⟨.inr rfl, isSymbol_symbol named (by decide)⟩
  kernels := by
    intro kernel member
    simp only [source, List.mem_cons, List.mem_append, Option.mem_toList, Option.map_eq_some_iff] at member
    rcases member with (rfl | ⟨t, -, rfl⟩) | ⟨t, -, rfl⟩
    · exact readable_kernelSource named (by decide) _ _ _
    · exact readable_kernelSource named (by decide) _ _ _
    · exact readable_kernelSource named (by decide) _ _ _

theorem read?_source (predefined : List String) :
    TranslationUnit.read? predefined (k.source name).text = some (k.source name) :=
  TranslationUnit.read?_text predefined (k.readable_source named)

end KernelSet

end AutoDiff
