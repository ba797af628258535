import SchemaTypes.Proofs.Defects
import SchemaTypes.Proofs.WrittenForms

/-!
# Where an error points

An error says what is wrong with some expression, and names the properties, from the
outside in, that the expression stands in. `Reaches` goes down into an expression and
keeps the keys of the properties on the way, and no others; an error is true to the
expression if what it says is wrong is found at the end of such a way (`PointsInto`).

> `errors_point_at_defects`: rendering fails, in either form, exactly for the expressions
> in which some part is malformed, at any depth; every error points into its expression;
> and the error of an export is placed in its declaration, and in no other.
-/

namespace SchemaTypes

/-! ## Taking an error apart -/

namespace RenderError

/-- The error without the properties and the declaration that it was placed in. -/
def root : RenderError → RenderError
  | .property _ source => source.root
  | .declaration _ source => source.root
  | error => error

/-- The keys of the properties that the error was placed in, from the outside in. -/
def path : RenderError → List String
  | .property key source => key :: source.path
  | _ => []

/-- The error without the properties that it was placed in. -/
def innermost : RenderError → RenderError
  | .property _ source => source.innermost
  | error => error

/-- The names of the declarations that the error was placed in, from the outside in. -/
def declarations : RenderError → List String
  | .property _ source => source.declarations
  | .declaration name source => name :: source.declarations
  | _ => []

end RenderError

namespace Expression

/-! ## Malformed parts -/

/-- The expression itself cannot be written, and this is why. -/
inductive Malformed : Expression → RenderError → Prop
  | emptyUnion : Malformed (union []) .emptyUnion
  | emptyGeneric (name : String) : Malformed (generic name []) (.emptyGeneric name)
  | moduleReference (module : String) : Malformed (moduleReference module) (.moduleReference module)

theorem ownDefect?_eq_some_iff {e : Expression} {error : RenderError} :
    e.ownDefect? = some error ↔ e.Malformed error := by
  constructor
  · intro h
    unfold ownDefect? at h
    split at h
    · cases h
      exact .emptyUnion
    · cases h
      exact .emptyGeneric _
    · cases h
      exact .moduleReference _
    · cases h
  · intro h
    cases h <;> rfl

/-- The expression `inner` is found by going down into parts, through properties with these
keys, in this order, and through no other property. -/
inductive Reaches (inner : Expression) : Expression → List String → Prop
  | here : Reaches inner inner []
  | part {e part : Expression} {keys : List String} (hpart : (none, part) ∈ e.children)
      (h : Reaches inner part keys) : Reaches inner e keys
  | property {e value : Expression} {key : String} {keys : List String}
      (hvalue : (some key, value) ∈ e.children) (h : Reaches inner value keys) :
      Reaches inner e (key :: keys)

theorem root_placed (key : Option String) (error : RenderError) :
    (placed key error).root = error.root := by
  cases key <;> rfl

theorem root_of_ownDefect {e : Expression} {own : RenderError} (h : e.ownDefect? = some own) :
    own.root = own := by
  cases ownDefect?_eq_some_iff.mp h <;> rfl

/-- At the root of an error is what is wrong with some expression in the whole. -/
theorem Defect.exists_within {e : Expression} {error : RenderError} (h : Defect e error) :
    ∃ inner, Within inner e ∧ inner.ownDefect? = some error.root := by
  induction h with
  | @own e error h => exact ⟨e, .self, by rw [h, root_of_ownDefect h]⟩
  | part hp _ ih =>
    obtain ⟨inner, hwithin, hinner⟩ := ih
    exact ⟨inner, .part hp hwithin, by rw [root_placed, hinner]⟩

theorem exists_defect {inner e : Expression} {own : RenderError} (h : Within inner e)
    (hinner : inner.ownDefect? = some own) : ∃ error, Defect e error := by
  induction h with
  | self => exact ⟨own, .own hinner⟩
  | part hp _ ih =>
    obtain ⟨error, herror⟩ := ih
    exact ⟨_, .part hp herror⟩

/-- There is a defect exactly if some part is malformed, at any depth. -/
theorem exists_defect_iff {e : Expression} :
    (∃ error, Defect e error) ↔ ∃ inner own, Within inner e ∧ inner.Malformed own := by
  constructor
  · intro h
    obtain ⟨error, hdefect⟩ := h
    obtain ⟨inner, hwithin, hinner⟩ := hdefect.exists_within
    exact ⟨inner, _, hwithin, ownDefect?_eq_some_iff.mp hinner⟩
  · intro h
    obtain ⟨inner, own, hwithin, hinner⟩ := h
    exact exists_defect hwithin (ownDefect?_eq_some_iff.mpr hinner)

end Expression

/-! ## Errors that are true to an expression -/

open Expression Rendered

/-- The properties of the error lead to an expression with which its innermost error is
what is wrong. -/
def RenderError.PointsInto (error : RenderError) (e : Expression) : Prop :=
  ∃ inner, Reaches inner e error.path ∧ inner.Malformed error.innermost

theorem Expression.Defect.pointsInto {e : Expression} {error : RenderError} (h : Defect e error) :
    error.PointsInto e := by
  induction h with
  | @own e error hown =>
    have hmalformed := ownDefect?_eq_some_iff.mp hown
    refine ⟨e, ?_, ?_⟩
    · cases hmalformed <;> exact .here
    · cases hmalformed <;> constructor
  | @part e p error hp _ ih =>
    obtain ⟨inner, hreaches, hmalformed⟩ := ih
    obtain ⟨key, part⟩ := p
    cases key with
    | none => exact ⟨inner, .part hp hreaches, hmalformed⟩
    | some key => exact ⟨inner, .property hp hreaches, hmalformed⟩

/-- Inside an expression, errors are not placed in declarations. -/
theorem Expression.Defect.declarations_eq_nil {e : Expression} {error : RenderError}
    (h : Defect e error) : error.declarations = [] := by
  induction h with
  | own hown => cases ownDefect?_eq_some_iff.mp hown <;> rfl
  | @part e p error _ _ ih =>
    obtain ⟨key, part⟩ := p
    cases key <;> exact ih

/-! ## Statements -/

/-- The type that is declared, without parameters. -/
def Declaration.expression : Declaration → Expression
  | .typeAlias _ body => body.expression
  | .interface _ ps => .object ps

theorem StaticType.declarationText_error {d : Declaration} {source : RenderError}
    (h : declarationText d = .error source) :
    source = .emptyTemplate ∨ text d.expression 0 = .error source := by
  cases d with
  | interface name ps => exact .inr (bind_return_eq_error_iff.mp h)
  | typeAlias name body =>
    rw [declarationText, bind_eq_error_iff] at h
    rcases h with hparams | ⟨_, _, htext⟩
    · left
      unfold paramsText at hparams
      split at hparams
      · cases hparams
      · split at hparams <;> cases hparams
        rfl
    · exact .inr (bind_return_eq_error_iff.mp htext)

theorem StaticType.statementText_error {options : Options} {d : Declaration} {error : RenderError}
    (h : statementText options (.exports d) = .error error) :
    ∃ source, error = .declaration d.name source ∧ source.declarations = []
      ∧ (source = .emptyTemplate ∨ text d.expression 0 = .error source) := by
  rw [statementText, inDeclaration_eq_error_iff] at h
  obtain ⟨source, hsource, rfl⟩ := h
  have hcause := declarationText_error (bind_return_eq_error_iff.mp hsource)
  refine ⟨source, rfl, ?_, hcause⟩
  rcases hcause with rfl | htext
  · rfl
  · exact (descends.defect_of_error _ 0 _ htext).declarations_eq_nil

theorem Validator.statementText_error {d : Declaration} {error : RenderError}
    (h : statementText (.exports d) = .error error) :
    ∃ source, error = .declaration d.name source ∧ source.declarations = []
      ∧ text d.expression 0 = .error source := by
  cases d with
  | typeAlias name body => cases h
  | interface name ps =>
    rw [statementText_interface, map_eq_error_iff, inDeclaration_eq_error_iff] at h
    obtain ⟨source, htext, rfl⟩ := h
    exact ⟨source, rfl, (descends.defect_of_error _ 0 _ htext).declarations_eq_nil, htext⟩

/-- **Errors point at what is wrong.** Both forms fail exactly for an expression with a
malformed part, and every error leads through the properties it names to a part that is
malformed in the way it says. An export fails with the error of what it declares, placed
in that declaration, and there is no other declaration in the error. -/
theorem errors_point_at_defects :
    (∀ (e : Expression) (depth : Nat),
      ((∃ error, StaticType.text e depth = .error error)
        ↔ ∃ inner own, Within inner e ∧ inner.Malformed own)
      ∧ ((∃ error, Validator.text e depth = .error error)
        ↔ ∃ inner own, Within inner e ∧ inner.Malformed own)
      ∧ (∀ error, StaticType.text e depth = .error error → error.PointsInto e)
      ∧ ∀ error, Validator.text e depth = .error error → error.PointsInto e)
    ∧ ∀ (options : StaticType.Options) (d : Declaration) (error : RenderError),
      (StaticType.statementText options (.exports d) = .error error →
        ∃ source, error = .declaration d.name source ∧ source.declarations = []
          ∧ (source = .emptyTemplate ∨ StaticType.text d.expression 0 = .error source))
      ∧ (Validator.statementText (.exports d) = .error error →
        ∃ source, error = .declaration d.name source ∧ source.declarations = []
          ∧ Validator.text d.expression 0 = .error source) := by
  refine ⟨fun e depth => ⟨?_, ?_, fun error h => ?_, fun error h => ?_⟩,
    fun options d error => ⟨StaticType.statementText_error, Validator.statementText_error⟩⟩
  · rw [StaticType.descends.fails_iff, exists_defect_iff]
  · rw [Validator.descends.fails_iff, exists_defect_iff]
  · exact (StaticType.descends.defect_of_error e depth error h).pointsInto
  · exact (Validator.descends.defect_of_error e depth error h).pointsInto

/-- A union without variants, in an array in a property of a property. -/
def brokenTags : Expression :=
  .object [⟨"post", .object [⟨"tags", .array (.union []), none⟩], none⟩]

theorem errors_point_at_defects_brokenTags :
    Validator.text brokenTags 0 = .error (.property "post" (.property "tags" .emptyUnion))
      ∧ (RenderError.property "post" (.property "tags" .emptyUnion)).PointsInto brokenTags := by
  have herror : Validator.text brokenTags 0
      = .error (.property "post" (.property "tags" .emptyUnion)) := rfl
  obtain ⟨hexpressions, _⟩ := errors_point_at_defects
  obtain ⟨_, _, _, hpoints⟩ := hexpressions brokenTags 0
  exact ⟨herror, hpoints _ herror⟩

end SchemaTypes
