import SchemaTypes.Proofs.CanonicalOrder
import SchemaTypes.Proofs.ValidatorTexts
import SchemaTypes.Proofs.Walks

/-!
# Both written forms go down

Static types and validators both go down into the parts of an expression (`Descends`). A
static type visits the variants of a union and the properties of an object in the order in
which they are written. A validator visits them as they come, and leaves out a variant that
is the name `null` where it makes the other one nullish; a name always has a validator, so
what is left out cannot fail.
-/

namespace SchemaTypes

open Expression Render Rendered

/-! ## Static types -/

namespace StaticType

theorem writesProperties : WritesProperties text propertyText fun _ => ";\n" where
  text_eq := propertyText_eq
  ends_line _ := ⟨";", by decide, by decide⟩

theorem walks_union {vs : List Expression} (hne : vs ≠ []) : Walks text (.union vs) := by
  refine .of_list ((UnionOrder.canonical_perm identifier? vs).map _) (text_union hne) ?_
  exact fun _ fs hfs => .intercalate (by decide) hfs

theorem walks_object (ps : List Property) : Walks text (.object ps) := by
  by_cases hne : ps = []
  · subst hne
    exact .of_no_children rfl (fun _ => rfl) fun _ => by decide
  · have hperm : (keySorted ps).Perm ps := List.mergeSort_perm ps _
    have hnone : Text.OneLine "" := by decide
    refine writesProperties.walks hnone hnone hperm fun depth => ?_
    simp only [text_object hne, String.empty_append, String.append_empty]

theorem walks_generic (name : String) {as : List Expression} (hne : as ≠ []) :
    Walks text (.generic name as) := by
  refine .of_list (.refl _) (text_generic hne name) fun hwords fs hfs => ?_
  have hopen : Text.OneLine (name ++ "<") :=
    Text.oneLine_append.mpr ⟨hwords _ List.mem_cons_self, by decide⟩
  exact (LaidOut.intercalate (by decide) hfs).between hopen (by decide)

theorem walks_mapped (value : Expression) : Walks text (.mapped value) := by
  refine .of_only_child 1 rfl (text_mapped value) fun _ f hf => ?_
  have hline := WholeLines.of_laidOut (s := "[K in string]?: ") (by decide) (by decide)
    (hf.append (.words (s := ";") (by decide)))
  have hend : ";\n" = ";" ++ "\n" := by decide
  refine hline.block.congr fun depth => ?_
  simp only [hend, String.append_assoc]

theorem descends : Descends text where
  identifier id := .of_no_children rfl (fun _ => rfl) fun hwords => hwords _ List.mem_cons_self
  literal _ _ := rfl
  array element := by
    refine .of_only_child 0 rfl (text_array element) fun _ f hf => ?_
    split
    · exact hf.between (by decide) (by decide)
    · exact hf.append (.words (by decide))
  emptyUnion _ := rfl
  union _ := walks_union
  object := walks_object
  emptyGeneric _ _ := rfl
  generic name _ := walks_generic name
  conditional _ _ _ _ := .conditional fun _ => by rw [text]
  infer _ _ := rfl
  mapped := walks_mapped
  moduleReference _ _ := rfl

end StaticType

/-! ## Validators -/

namespace Validator

theorem writesProperties : WritesProperties text propertyText fun p => describeText p ++ ",\n" where
  text_eq := propertyText_eq
  ends_line p := by
    refine ⟨describeText p ++ ",", ?_, by rw [String.append_assoc]; rfl⟩
    exact Text.oneLine_append.mpr ⟨oneLine_describeText p, by decide⟩

theorem walks_union {vs : List Expression} (hne : vs ≠ []) : Walks text (.union vs) := by
  cases hnullable : nullableInner? vs with
  | none =>
    refine .of_list (.refl _) (text_union_of_not_nullable hne hnullable) fun _ fs hfs => ?_
    exact (LaidOut.intercalate (by decide) hfs).between (by decide) (by decide)
  | some inner =>
    obtain ⟨i, rfl, _⟩ := nullableInner?_eq_some hnullable
    refine .of_one_part 0 List.mem_cons_self (fun p hp => ?_)
      (text_union_of_nullable hnullable) fun _ f hf => hf.append (.words (by decide))
    rcases List.mem_cons.mp hp with rfl | hp
    · exact .inl rfl
    · rw [List.mem_singleton.mp hp]
      exact .inr fun d => ⟨_, text_identifier i d⟩

theorem walks_object (ps : List Property) : Walks text (.object ps) := by
  by_cases hne : ps = []
  · subst hne
    exact .of_no_children rfl (fun _ => rfl) fun _ => by decide
  · exact writesProperties.walks (by decide) (by decide) (.refl ps) (text_object hne)

theorem descends : Descends text where
  identifier id := .of_no_children rfl (text_identifier id) fun hwords =>
    oneLine_identifierText (hwords _ List.mem_cons_self)
  literal := text_literal
  array element := by
    refine .of_only_child 0 rfl (text_array element) fun _ f hf => ?_
    split
    · exact hf.between (by decide) (by decide)
    · exact hf.between (by decide) (by decide)
  emptyUnion _ := rfl
  union _ := walks_union
  object := walks_object
  emptyGeneric _ _ := rfl
  generic name _ hne := .of_list (.refl _) (text_generic hne name) fun _ fs hfs =>
    .intercalate (by decide) hfs
  conditional _ _ _ _ := .conditional (text_conditional _ _ _ _)
  infer := text_infer
  mapped value := .of_only_child 0 rfl (text_mapped value) fun _ f hf =>
    hf.between (by decide) (by decide)
  moduleReference _ _ := rfl

end Validator

end SchemaTypes
