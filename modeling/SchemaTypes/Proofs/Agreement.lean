import Mathlib.Data.List.Permutation
import SchemaTypes.Proofs.Defects
import SchemaTypes.Proofs.WrittenForms
import SchemaTypes.Render.Module

/-!
# One module or two

A module can be written with both forms of each declaration, statement after statement
(`Module.text`), or as two modules, all static types before all validators
(`Module.blocks`). Statements may be broken anywhere, so either way can fail. Both fail
together:

> `fail_alike`: both ways succeed or both fail, with the error of the first statement
> that has no static form.

Validators do not come into it: an interface has a static form and a validator unless
there is a defect in its properties, and nothing else has a validator that could fail.
-/

namespace SchemaTypes

open Rendered

/-! ## Statements -/

theorem StaticType.ok_iff_validator_ok (e : Expression) (depth depth' : Nat) :
    (∃ t, StaticType.text e depth = .ok t) ↔ ∃ t, Validator.text e depth' = .ok t := by
  have hok : ∀ r : Rendered String, (∃ t, r = .ok t) ↔ ¬∃ error, r = .error error := by
    intro r
    cases r <;> simp
  rw [hok, hok, descends.fails_iff e depth, Validator.descends.fails_iff e depth']

/-- A statement with a static form has a validator. -/
theorem Validator.statementText_ok_of_static {options : StaticType.Options} {s : Statement}
    {t : String} (h : StaticType.statementText options s = .ok t) :
    ∃ v, Validator.statementText s = .ok v := by
  rcases s with i | (⟨name, body⟩ | ⟨name, ps⟩)
  · exact ⟨"", rfl⟩
  · exact ⟨"", rfl⟩
  · have hstatic : ∃ t, StaticType.text (.object ps) 0 = .ok t := by
      cases hobject : StaticType.text (.object ps) 0 with
      | ok t => exact ⟨t, rfl⟩
      | error e =>
        rw [StaticType.statementText, StaticType.declarationText, hobject] at h
        cases h
    obtain ⟨v, hv⟩ := (StaticType.ok_iff_validator_ok (.object ps) 0 0).mp hstatic
    exact ⟨_, by rw [Validator.statementText_interface, hv]; rfl⟩

/-! ## Modules -/

namespace Module

open StaticType (Options)

/-- The error is that of the first statement without a static form. -/
def FirstRejected (options : Options) (ss : List Statement) (e : RenderError) : Prop :=
  ∃ before s after, ss = before ++ s :: after ∧
    (∀ b ∈ before, ∃ t, StaticType.statementText options b = .ok t) ∧
    StaticType.statementText options s = .error e

theorem firstRejected_iff {options : Options} {ss : List Statement} {e : RenderError} :
    FirstRejected options ss e ↔
      collect (ss.map (StaticType.statementText options)) = .error e := by
  rw [collect_eq_error_iff]
  constructor
  · intro h
    obtain ⟨before, s, after, rfl, hbefore, hs⟩ := h
    refine ⟨before.map (StaticType.statementText options),
      after.map (StaticType.statementText options), ?_, ?_⟩
    · rw [List.map_append, List.map_cons, hs]
    · exact List.forall_mem_map.mpr hbefore
  · intro h
    obtain ⟨before, after, hsplit, hbefore⟩ := h
    obtain ⟨before, rest, rfl, rfl, hrest⟩ := List.map_eq_append_iff.mp hsplit
    obtain ⟨s, after, rfl, hs, rfl⟩ := List.map_eq_cons_iff.mp hrest
    exact ⟨before, s, after, rfl, fun b hb => hbefore _ (List.mem_map_of_mem hb), hs⟩

/-- With both forms of a statement, the static one decides. -/
theorem bothForms_eq_error_iff {options : Options} {s : Statement} {e : RenderError} :
    bothForms options s = .error e ↔ StaticType.statementText options s = .error e := by
  rw [bothForms]
  cases hstatic : StaticType.statementText options s with
  | error e' => exact ⟨fun h => (by cases h; rfl), fun h => (by cases h; rfl)⟩
  | ok t =>
    -- neither of the two branches that are left can fail
    obtain ⟨v, hv⟩ := Validator.statementText_ok_of_static hstatic
    refine ⟨fun h => ?_, fun h => (by cases h)⟩
    cases himport : s.isImport with
    | true =>
      rw [himport] at h
      cases h
    | false =>
      rw [himport, hv] at h
      cases h

theorem text_eq_error_iff {options : Options} {ss : List Statement} {e : RenderError} :
    text options ss = .error e ↔ FirstRejected options ss e := by
  rw [text, bind_return_eq_error_iff, firstRejected_iff]
  exact collect_map_eq_error_congr (fun _ _ _ => bothForms_eq_error_iff) e

theorem textInForm_eq_error_iff {form : Statement → Rendered String} {ss : List Statement}
    {e : RenderError} : textInForm form ss = .error e ↔ collect (ss.map form) = .error e := by
  rw [textInForm, bind_return_eq_error_iff]
  refine collect_map_eq_error_congr (fun s _ error => ?_) e
  rw [oneForm, bind_return_eq_error_iff]

theorem types_eq_error_iff {options : Options} {ss : List Statement} {e : RenderError} :
    types options ss = .error e ↔ FirstRejected options ss e := by
  rw [types, textInForm_eq_error_iff, firstRejected_iff]

/-- Validators cannot fail once the static types are written. -/
theorem validators_ok_of_types {options : Options} {ss : List Statement} {t : String}
    (h : types options ss = .ok t) : ∃ v, validators ss = .ok v := by
  cases hv : validators ss with
  | ok v => exact ⟨v, rfl⟩
  | error e =>
    rw [validators, textInForm_eq_error_iff] at hv
    obtain ⟨s, hs, herror⟩ := exists_of_collect_eq_error hv
    -- with a static form `s` would have a validator, and without one the types would fail
    cases hstatic : StaticType.statementText options s with
    | ok t' =>
      obtain ⟨v, hok⟩ := Validator.statementText_ok_of_static hstatic
      rw [herror] at hok
      cases hok
    | error e' =>
      obtain ⟨e'', htypes⟩ := collect_eq_error_of_mem hs ⟨e', hstatic⟩
      rw [← textInForm_eq_error_iff, ← types, h] at htypes
      cases htypes

theorem blocks_eq_error_iff {options : Options} {ss : List Statement} {e : RenderError} :
    blocks options ss = .error e ↔ FirstRejected options ss e := by
  rw [blocks, bind_eq_error_iff, ← types_eq_error_iff]
  constructor
  · intro h
    rcases h with h | ⟨t, ht, h⟩
    · exact h
    · obtain ⟨v, hv⟩ := validators_ok_of_types ht
      rw [hv] at h
      cases h
  · intro h
    exact .inl h

theorem exists_blocks_iff {options : Options} {ss : List Statement} :
    (∃ b, blocks options ss = .ok b) ↔ ∃ t, text options ss = .ok t := by
  have hok : ∀ {α : Type} (r : Rendered α), (∃ a, r = .ok a) ↔ ¬∃ e, r = .error e := by
    intro α r
    cases r <;> simp
  rw [hok, hok]
  simp only [text_eq_error_iff, blocks_eq_error_iff]

/-- **Both ways of writing a module fail alike.** They succeed together, and otherwise
have the error of the first statement without a static form; no validator is rejected
where the static form is accepted. -/
theorem fail_alike (options : Options) (ss : List Statement) :
    ((∃ t, text options ss = .ok t) ↔ ∃ b, blocks options ss = .ok b) ∧
    (∀ e, text options ss = .error e ↔ FirstRejected options ss e) ∧
    (∀ e, blocks options ss = .error e ↔ FirstRejected options ss e) ∧
    (∀ s t, StaticType.statementText options s = .ok t →
      ∃ v, Validator.statementText s = .ok v) := by
  refine ⟨?_, fun _ => text_eq_error_iff, fun _ => blocks_eq_error_iff,
    fun _ _ => Validator.statementText_ok_of_static⟩
  cases htext : text options ss with
  | error e =>
    have hblocks : blocks options ss = .error e :=
      blocks_eq_error_iff.mpr (text_eq_error_iff.mp htext)
    simp [hblocks]
  | ok t =>
    cases hblocks : blocks options ss with
    | error e =>
      have herror := text_eq_error_iff.mpr (blocks_eq_error_iff.mp hblocks)
      rw [htext] at herror
      cases herror
    | ok b => simp

/-- A row that can be written, one that cannot, and an alias that is not reached. -/
def brokenModule : List Statement :=
  [.exportInterface "Marker" [], .exportInterface "Post" [⟨"tags", .array (.union []), none⟩],
   .exportAlias "Box" (.plain (.generic "Box" []))]

/-- The second row is rejected for one of its types, whichever way the module is written. -/
theorem fail_alike_brokenModule :
    text {} brokenModule = .error (.declaration "Post" (.property "tags" .emptyUnion)) ∧
    blocks {} brokenModule = .error (.declaration "Post" (.property "tags" .emptyUnion)) ∧
    ∃ v, Validator.statementText (.exportInterface "Marker" []) = .ok v := by
  obtain ⟨_, htext, hblocks, hvalidator⟩ := fail_alike {} brokenModule
  obtain ⟨t, hmarker⟩ : ∃ t, StaticType.statementText {} (.exportInterface "Marker" []) = .ok t :=
    ⟨_, rfl⟩
  have hrejected : FirstRejected {} brokenModule
      (.declaration "Post" (.property "tags" .emptyUnion)) :=
    ⟨[_], _, _, rfl, List.forall_mem_singleton.mpr ⟨_, hmarker⟩, by cbv⟩
  exact ⟨(htext _).mpr hrejected, (hblocks _).mpr hrejected, hvalidator _ _ hmarker⟩

end Module

end SchemaTypes
