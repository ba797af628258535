import SchemaTypes.Proofs.Agreement

/-!
# Well-formed expressions and statements

An expression is well-formed if it has no defect at any depth. For the forms of which the
types of columns are made there is a lemma each (`wellFormed_union`, `wellFormed_generic` and
so on). The well-formed expressions are those that are rendered
(`Descends.rendered_iff_wellFormed`), in either form, so it can be computed whether a given
expression is one.

Well-formed statements can be written, whatever else they are:

> `Module.text_ok_of_wellFormed`: a module of well-formed statements has a text.
-/

namespace SchemaTypes

namespace Expression

/-- Nothing is wrong with the expression at any depth. -/
def WellFormed (e : Expression) : Prop := ∀ error, ¬e.Defect error

theorem wellFormed_iff {e : Expression} :
    e.WellFormed ↔ e.ownDefect? = none ∧ ∀ p ∈ e.children, p.2.WellFormed := by
  constructor
  · intro h
    constructor
    · cases hown : e.ownDefect? with
      | none => rfl
      | some error => exact absurd (.own hown) (h error)
    · intro p hp error hpart
      exact h _ (.part hp hpart)
  · intro h error hdefect
    obtain ⟨hown, hparts⟩ := h
    cases hdefect with
    | own hsome =>
      rw [hown] at hsome
      cases hsome
    | part hp hpart => exact hparts _ hp _ hpart

/-! ## One form at a time -/

@[simp] theorem wellFormed_identifier (id : Identifier) : (identifier id).WellFormed :=
  wellFormed_iff.mpr ⟨rfl, fun _ hp => (by cases hp)⟩

@[simp] theorem wellFormed_named (name : String) : (named name).WellFormed :=
  wellFormed_identifier _

@[simp] theorem wellFormed_reference (name : String) : (reference name).WellFormed :=
  wellFormed_identifier _

@[simp] theorem wellFormed_null : null.WellFormed :=
  wellFormed_identifier _

@[simp] theorem wellFormed_array {e : Expression} : (array e).WellFormed ↔ e.WellFormed := by
  rw [wellFormed_iff]
  show none = none ∧ (∀ p ∈ [(none, e)], p.2.WellFormed) ↔ _
  simp

@[simp] theorem wellFormed_union {vs : List Expression} :
    (union vs).WellFormed ↔ vs ≠ [] ∧ ∀ v ∈ vs, v.WellFormed := by
  rw [wellFormed_iff]
  cases vs with
  | nil => simp [ownDefect?]
  | cons v vs => simp [ownDefect?, children]

@[simp] theorem wellFormed_generic {name : String} {as : List Expression} :
    (generic name as).WellFormed ↔ as ≠ [] ∧ ∀ a ∈ as, a.WellFormed := by
  rw [wellFormed_iff]
  cases as with
  | nil => simp [ownDefect?]
  | cons a as => simp [ownDefect?, children]

@[simp] theorem wellFormed_object {ps : List Property} :
    (object ps).WellFormed ↔ ∀ p ∈ ps, p.value.WellFormed := by
  rw [wellFormed_iff]
  simp [ownDefect?, children]

theorem wellFormed_nullable {e : Expression} (h : e.WellFormed) : e.nullable.WellFormed := by
  rw [nullable, wellFormed_union]
  simp [h]

theorem wellFormed_ite (condition : Bool) {e e' : Expression} (h : e.WellFormed)
    (h' : e'.WellFormed) : (if condition then e else e').WellFormed := by
  split
  · exact h
  · exact h'

end Expression

/-! ## What can be rendered -/

theorem Render.Descends.rendered_iff_wellFormed {render : Expression → Nat → Rendered String}
    (h : Descends render) {e : Expression} (depth : Nat) :
    (∃ t, render e depth = .ok t) ↔ e.WellFormed := by
  have hok : (∃ t, render e depth = .ok t) ↔ ¬∃ error, render e depth = .error error := by
    cases render e depth <;> simp
  rw [hok, h.fails_iff e depth, not_exists]
  rfl

namespace Expression

theorem isOk_text_iff_wellFormed (e : Expression) :
    (Validator.text e 0).isOk ↔ e.WellFormed := by
  rw [← Validator.descends.rendered_iff_wellFormed 0]
  cases Validator.text e 0 <;> simp [Except.isOk, Except.toBool]

/-- Whether an expression is well-formed is found out by rendering it. -/
instance : DecidablePred WellFormed := fun e =>
  decidable_of_iff _ e.isOk_text_iff_wellFormed

end Expression

/-! ## Statements -/

/-- The expression is well-formed, and a template has a parameter. -/
def AliasBody.WellFormed : AliasBody → Prop
  | .plain e => e.WellFormed
  | .template t => t.params ≠ [] ∧ t.expression.WellFormed

instance : DecidablePred AliasBody.WellFormed
  | .plain e => inferInstanceAs (Decidable e.WellFormed)
  | .template t => inferInstanceAs (Decidable (t.params ≠ [] ∧ t.expression.WellFormed))

/-- What the statement imports or declares is there and well-formed. -/
def Statement.WellFormed : Statement → Prop
  | .imports i => i.clauses ≠ []
  | .exports (.typeAlias _ body) => body.WellFormed
  | .exports (.interface _ ps) => (Expression.object ps).WellFormed

open Rendered

theorem StaticType.text_ok_of_wellFormed {e : Expression} (h : e.WellFormed) (depth : Nat) :
    ∃ t, StaticType.text e depth = .ok t :=
  (descends.rendered_iff_wellFormed depth).mpr h

theorem StaticType.paramsText_ok_of_wellFormed {body : AliasBody} (h : body.WellFormed) :
    ∃ t, paramsText body = .ok t := by
  cases body with
  | plain e => exact ⟨"", rfl⟩
  | template t =>
    rw [paramsText, if_neg (fun hempty => h.1 (List.isEmpty_iff.mp hempty))]
    exact ⟨_, rfl⟩

theorem AliasBody.WellFormed.expression {body : AliasBody} (h : body.WellFormed) :
    body.expression.WellFormed := by
  cases body with
  | plain e => exact h
  | template t => exact h.2

theorem StaticType.statementText_ok_of_wellFormed {s : Statement} (options : Options)
    (h : s.WellFormed) : ∃ t, StaticType.statementText options s = .ok t := by
  rcases s with i | (⟨name, body⟩ | ⟨name, ps⟩)
  · rw [statementText, importText, if_neg (fun hempty => h (List.isEmpty_iff.mp hempty))]
    exact ⟨_, rfl⟩
  · obtain ⟨params, hparams⟩ := paramsText_ok_of_wellFormed h
    obtain ⟨t, ht⟩ := text_ok_of_wellFormed (AliasBody.WellFormed.expression h) 0
    exact ⟨_, by rw [statementText, declarationText, hparams, ht]; rfl⟩
  · obtain ⟨t, ht⟩ := text_ok_of_wellFormed h 0
    exact ⟨_, by rw [statementText, declarationText, ht]; rfl⟩

/-- Nothing keeps well-formed statements from being written. -/
theorem Module.text_ok_of_wellFormed {ss : List Statement} (options : StaticType.Options)
    (h : ∀ s ∈ ss, s.WellFormed) : ∃ t, Module.text options ss = .ok t := by
  cases htext : Module.text options ss with
  | ok t => exact ⟨t, rfl⟩
  | error e =>
    obtain ⟨before, s, after, rfl, _, herror⟩ := text_eq_error_iff.mp htext
    have hs := h s (List.mem_append_right before List.mem_cons_self)
    obtain ⟨t, ht⟩ := StaticType.statementText_ok_of_wellFormed options hs
    rw [herror] at ht
    cases ht

end SchemaTypes
