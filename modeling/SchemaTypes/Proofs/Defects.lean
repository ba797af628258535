import SchemaTypes.Proofs.Walks

/-!
# What cannot be rendered

An expression cannot be written out because of a place in it: a union without variants,
a generic without arguments, or a reference to a module. `Expression.Defect` relates an
expression to the errors of such places, with the keys of the properties on the way
there, and says nothing of either written form.

A form that goes down into the parts of an expression fails as one of them does, and a part
that is left out cannot fail. By induction that settles when rendering fails:

> `Descends.fails_iff`: rendering fails exactly for an expression with a defect, and
> `Descends.defect_of_error`: its error is one of those defects.
-/

namespace SchemaTypes

/-! ## Defects -/

namespace Expression

/-- The error, placed in the property with this key if there is one. -/
def placed : Option String → RenderError → RenderError
  | none, e => e
  | some key, e => .property key e

/-- The expression cannot be rendered because of a place at some depth; the error names
what is wrong there and the properties on the way, from the outside in. -/
inductive Defect : Expression → RenderError → Prop
  | own {e : Expression} {error : RenderError} (h : e.ownDefect? = some error) : Defect e error
  | part {e : Expression} {p : Option String × Expression} {error : RenderError}
      (hp : p ∈ e.children) (h : Defect p.2 error) : Defect e (placed p.1 error)

end Expression

/-! ## Errors -/

namespace Render

open Expression Rendered

theorem inPlace_eq_error_iff {α : Type} {key : Option String} {r : Rendered α}
    {error : RenderError} :
    inPlace key r = .error error ↔ ∃ source, r = .error source ∧ error = placed key source := by
  cases key with
  | none =>
    constructor
    · intro h
      exact ⟨error, h, rfl⟩
    · intro h
      obtain ⟨source, h, rfl⟩ := h
      exact h
  | some key => exact inProperty_eq_error_iff

variable {render : Expression → Nat → Rendered String}

theorem Walk.error_iff {e : Expression} {visited : List (Option String × Expression)} {inward : Nat}
    {layout : Nat → List String → String} (h : Walk render e visited inward layout) {depth : Nat}
    {error : RenderError} : render e depth = .error error ↔
      collect (visited.map fun p => inPlace p.1 (render p.2 (depth + inward))) = .error error := by
  rw [h.text_eq, map_eq_error_iff]

/-- An error is a defect of the expression. -/
theorem Descends.defect_of_error (h : Descends render) (e : Expression) :
    ∀ (depth : Nat) (error : RenderError), render e depth = .error error → Defect e error := by
  induction e using induction_on_children with
  | h e ih =>
    intro depth error herror
    cases hown : e.ownDefect? with
    | some error' =>
      rw [h.own depth hown] at herror
      rw [← Except.error.inj herror]
      exact .own hown
    | none =>
      -- the error is that of a part, in the place of the part
      obtain ⟨visited, inward, layout, hwalk⟩ := h.walks e hown
      obtain ⟨p, hp, hplace⟩ := exists_of_collect_eq_error (hwalk.error_iff.mp herror)
      obtain ⟨source, hsource, rfl⟩ := inPlace_eq_error_iff.mp hplace
      have hpart := hwalk.children p hp
      exact .part hpart (ih p hpart (depth + inward) source hsource)

/-- A defect at any depth is not passed over. -/
theorem Descends.error_of_defect (h : Descends render) {e : Expression} {error : RenderError}
    (hdefect : Defect e error) : ∀ depth, ∃ error', render e depth = .error error' := by
  induction hdefect with
  | own hown =>
    intro depth
    exact ⟨_, h.own depth hown⟩
  | @part e p error hp _ ih =>
    intro depth
    cases hown : e.ownDefect? with
    | some error' =>
      -- what is wrong with `e` itself is reported before its parts are looked at
      exact ⟨error', h.own depth hown⟩
    | none =>
      obtain ⟨visited, inward, layout, hwalk⟩ := h.walks e hown
      obtain ⟨source, hsource⟩ := ih (depth + inward)
      rcases hwalk.left_out p hp with hvisited | hout
      · have hplace : inPlace p.1 (render p.2 (depth + inward)) = .error (placed p.1 source) :=
          inPlace_eq_error_iff.mpr ⟨source, hsource, rfl⟩
        obtain ⟨error', herror⟩ := collect_eq_error_of_mem
          (f := fun p => inPlace p.1 (render p.2 (depth + inward))) hvisited ⟨_, hplace⟩
        exact ⟨error', hwalk.error_iff.mpr herror⟩
      · obtain ⟨t, ht⟩ := hout (depth + inward)
        rw [hsource] at ht
        cases ht

/-- Rendering fails exactly for an expression with a defect. -/
theorem Descends.fails_iff (h : Descends render) (e : Expression) (depth : Nat) :
    (∃ error, render e depth = .error error) ↔ ∃ error, Defect e error := by
  constructor
  · intro hfails
    obtain ⟨error, herror⟩ := hfails
    exact ⟨error, h.defect_of_error e depth error herror⟩
  · intro hexists
    obtain ⟨error, hdefect⟩ := hexists
    exact h.error_of_defect hdefect depth

end Render

end SchemaTypes
