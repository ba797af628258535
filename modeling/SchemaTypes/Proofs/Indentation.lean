import SchemaTypes.Proofs.WrittenForms

/-!
# Depth is indentation

The depth at which an expression is rendered says how many levels are open around it, and
each form passes it on to its parts in its own way. What comes of it all is simple: the
text at some depth is the text at depth zero with that many levels of spaces put in after
each newline (`shifted`).

> `texts_at_depth`: so it is in both written forms, for every expression in which no name
> and no description has a newline; where there is an error, it is the same at every depth.

It is enough to look at the fragments that a text is made of, since they are the same at
every depth.
-/

namespace SchemaTypes.Render

open Text

/-- The text with spaces for so many levels put in after each newline. -/
def shifted (depth : Nat) (s : String) : String :=
  String.ofList (s.toList.flatMap fun c =>
    if c = '\n' then '\n' :: List.replicate (2 * depth) ' ' else [c])

@[simp] theorem shifted_append (depth : Nat) (s t : String) :
    shifted depth (s ++ t) = shifted depth s ++ shifted depth t := by
  simp only [shifted, String.toList_append, List.flatMap_append, String.ofList_append]

theorem shifted_newline (depth : Nat) : shifted depth "\n" = "\n" ++ indent depth := by
  rw [String.ext_iff]
  simp [shifted, indent]

theorem shifted_of_oneLine {s : String} (h : OneLine s) (depth : Nat) : shifted depth s = s := by
  have hself : (s.toList.flatMap fun c =>
      if c = '\n' then '\n' :: List.replicate (2 * depth) ' ' else [c]) = s.toList := by
    rw [← List.flatMap_singleton' s.toList, List.flatMap_assoc]
    refine List.flatMap_congr fun c hc => ?_
    have hne : c ≠ '\n' := fun heq => h (heq ▸ hc)
    rw [List.flatMap_singleton, if_neg hne]
  rw [shifted, hself, String.ofList_toList]

theorem indent_add (depth depth' : Nat) :
    indent depth ++ indent depth' = indent (depth + depth') := by
  rw [indent, indent, indent, ← String.ofList_append, List.replicate_append_replicate, Nat.mul_add]

/-! ## Fragments -/

theorem Fragment.text_eq_shifted (depth : Nat) (fragment : Fragment) :
    fragment.text depth = shifted depth (fragment.text 0) := by
  cases fragment with
  | words s h => exact (shifted_of_oneLine h depth).symm
  | line level s h hne =>
    rw [text, text, shifted_append, shifted_append, shifted_newline,
      shifted_of_oneLine (oneLine_indent _), shifted_of_oneLine h, Nat.zero_add, ← indent_add]
    simp only [String.append_assoc]

theorem textOf_eq_shifted (depth : Nat) (fragments : List Fragment) :
    textOf depth fragments = shifted depth (textOf 0 fragments) := by
  induction fragments with
  | nil => rfl
  | cons f fs ih =>
    have hcons : ∀ d, textOf d (f :: fs) = f.text d ++ textOf d fs := fun d => by
      rw [textOf, List.map_cons, String.join_cons, textOf]
    rw [hcons, hcons, shifted_append, ← ih, ← f.text_eq_shifted]

theorem Uniform.eq_map_shifted {r : Nat → Rendered String} (h : Uniform LaidOut r) (depth : Nat) :
    r depth = (r 0).map (shifted depth) := by
  rcases h with ⟨error, rfl⟩ | ⟨f, ⟨fragments, rfl⟩, rfl⟩
  · rfl
  · exact congrArg Except.ok (textOf_eq_shifted depth fragments)

/-! ## Both written forms -/

/-- **Depth shifts the lines and does nothing else.** The text at some depth is the text at
depth zero with so many levels of spaces after each newline, or else there is the same
error at both. -/
theorem texts_at_depth {e : Expression} (h : e.OneLine) (depth : Nat) :
    StaticType.text e depth = (StaticType.text e 0).map (shifted depth)
      ∧ Validator.text e depth = (Validator.text e 0).map (shifted depth) :=
  ⟨(StaticType.descends.uniform e h).eq_map_shifted depth,
    (Validator.descends.uniform e h).eq_map_shifted depth⟩

/-- The branches of a conditional in a mapped type stand two levels further in. -/
def places : Expression :=
  .mapped (.conditional "T" (.infer "U") (.reference "U") (.reference "V"))

theorem texts_at_depth_places :
    StaticType.text places 1
        = .ok "\x7b\n    [K in string]?: T extends infer U\n      ? U\n      : V;\n  \x7d"
      ∧ Validator.text places 1
        = .ok "z.record(z.string(), T extends infer U\n    ? U\n    : V.optional())" := by
  have hline : places.OneLine := by
    refine Expression.oneLine_iff.mpr ⟨by decide, List.forall_mem_singleton.mpr ?_⟩
    refine Expression.oneLine_iff.mpr ⟨by decide, fun p hp => ?_⟩
    simp only [Expression.children, List.mem_cons, List.not_mem_nil, or_false] at hp
    rcases hp with rfl | rfl | rfl
    all_goals exact Expression.oneLine_iff.mpr ⟨by decide, fun q hq => (by cases hq)⟩
  obtain ⟨hstatic, hvalidator⟩ := texts_at_depth hline 1
  rw [hstatic, hvalidator]
  exact ⟨rfl, rfl⟩

end SchemaTypes.Render
