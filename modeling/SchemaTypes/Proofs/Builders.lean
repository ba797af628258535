import SchemaTypes.Definitions
import SchemaTypes.Proofs.ErrorPaths
import SchemaTypes.Proofs.WellFormed

/-!
# What builders make

The builders of unions, generics, templates and imports refuse to make one without parts,
and the other builders only put parts together. `Expression.Built` and `Statement.Built`
are what can be made with them, with one case for each builder; the shared definitions are
made in this way (`Definitions.built_all`).

Nothing can be wrong with what was built but a module reference (`Built.onlyReferences`),
which is the one expression that has no written form:

> `rendered_iff_no_reference`: built expressions and statements are rendered in either
> form, unless there is a module reference in them; then neither form is rendered, and
> what every error is about is such a reference.
-/

namespace SchemaTypes

/-! ## Builders that refuse -/

theorem Expression.unionOf_eq_ok_iff {vs : List Expression} {e : Expression} :
    unionOf vs = .ok e ↔ vs ≠ [] ∧ e = .union vs := by
  cases vs with
  | nil => simp [unionOf]
  | cons v vs => simp [unionOf, eq_comm]

theorem Expression.genericOf_eq_ok_iff {name : String} {as : List Expression} {e : Expression} :
    genericOf name as = .ok e ↔ as ≠ [] ∧ e = .generic name as := by
  cases as with
  | nil => simp [genericOf]
  | cons a as => simp [genericOf, eq_comm]

theorem Template.of_eq_ok_iff {params : List String} {e : Expression} {t : Template} :
    Template.of params e = .ok t ↔ params ≠ [] ∧ t = ⟨params, e⟩ := by
  cases params with
  | nil => simp [Template.of]
  | cons p params => simp [Template.of, eq_comm]

theorem Import.of_eq_ok_iff {module : String} {names : List String} {i : Import} :
    Import.of module names = .ok i
      ↔ names ≠ [] ∧ i = ⟨module, names.map fun name => ⟨name, none⟩⟩ := by
  cases names with
  | nil => simp [Import.of]
  | cons name names => simp [Import.of, eq_comm]

/-! ## Expressions -/

namespace Expression

/-- The expression was made by builders, each of which accepted what it was given. -/
inductive Built : Expression → Prop
  | named (name : String) : Built (named name)
  | reference (name : String) : Built (reference name)
  | null : Built null
  | literal (value : Literal) : Built (literal value)
  | array {e : Expression} (h : Built e) : Built (array e)
  | nullable {e : Expression} (h : Built e) : Built e.nullable
  | unionOf {vs : List Expression} {e : Expression} (hparts : ∀ v ∈ vs, Built v)
      (h : unionOf vs = .ok e) : Built e
  | object {ps : List Property} (h : ∀ p ∈ ps, Built p.value) : Built (object ps)
  | genericOf {name : String} {as : List Expression} {e : Expression}
      (hparts : ∀ a ∈ as, Built a) (h : genericOf name as = .ok e) : Built e
  | conditional (name : String) {test consequent alternate : Expression} (htest : Built test)
      (hconsequent : Built consequent) (halternate : Built alternate) :
      Built (conditional name test consequent alternate)
  | infer (name : String) : Built (infer name)
  | mapped {e : Expression} (h : Built e) : Built (mapped e)
  | columnType {c : ColumnType} {e : Expression} (hselect : Built c.select)
      (hinsert : Built c.insert) (hupdate : ∀ update, c.update = some update → Built update)
      (h : c.toExpression = .ok e) : Built e
  | moduleReference (module : String) : Built (moduleReference module)

theorem Built.union {vs : List Expression} (hne : vs ≠ []) (h : ∀ v ∈ vs, Built v) :
    Built (union vs) :=
  .unionOf h (unionOf_eq_ok_iff.mpr ⟨hne, rfl⟩)

theorem Built.generic {name : String} {as : List Expression} (hne : as ≠ [])
    (h : ∀ a ∈ as, Built a) : Built (generic name as) :=
  .genericOf h (genericOf_eq_ok_iff.mpr ⟨hne, rfl⟩)

/-- There is a reference to this module in the expression. -/
def Mentions (e : Expression) (module : String) : Prop := Within (moduleReference module) e

/-- Whatever is wrong in the expression, it is a module reference. -/
def OnlyReferences (e : Expression) : Prop :=
  ∀ inner own, Within inner e → inner.ownDefect? = some own →
    ∃ module, inner = moduleReference module

theorem onlyReferences_of_parts {e : Expression} (hown : e.ownDefect? = none)
    (h : ∀ p ∈ e.children, OnlyReferences p.2) : OnlyReferences e := by
  intro inner own hwithin hdefect
  rcases within_iff.mp hwithin with rfl | ⟨p, hp, hpart⟩
  · rw [hown] at hdefect
    cases hdefect
  · exact h p hp inner own hpart hdefect

theorem onlyReferences_union {vs : List Expression} (hne : vs ≠ [])
    (h : ∀ v ∈ vs, OnlyReferences v) : OnlyReferences (union vs) := by
  obtain ⟨v, vs, rfl⟩ := List.exists_cons_of_ne_nil hne
  exact onlyReferences_of_parts rfl (List.forall_mem_map.mpr h)

theorem onlyReferences_generic {name : String} {as : List Expression} (hne : as ≠ [])
    (h : ∀ a ∈ as, OnlyReferences a) : OnlyReferences (generic name as) := by
  obtain ⟨a, as, rfl⟩ := List.exists_cons_of_ne_nil hne
  exact onlyReferences_of_parts rfl (List.forall_mem_map.mpr h)

theorem onlyReferences_identifier (id : Identifier) : OnlyReferences (identifier id) :=
  onlyReferences_of_parts rfl fun _ hp => (by cases hp)

/-- No builder brings anything else that is wrong. -/
theorem Built.onlyReferences {e : Expression} (h : Built e) : OnlyReferences e := by
  induction h with
  | named name => exact onlyReferences_identifier _
  | reference name => exact onlyReferences_identifier _
  | null => exact onlyReferences_identifier _
  | literal value => exact onlyReferences_of_parts rfl fun _ hp => (by cases hp)
  | array h ih => exact onlyReferences_of_parts rfl (List.forall_mem_singleton.mpr ih)
  | nullable h ih =>
    refine onlyReferences_union (List.cons_ne_nil _ _) ?_
    exact List.forall_mem_cons.mpr
      ⟨ih, List.forall_mem_singleton.mpr (onlyReferences_identifier _)⟩
  | unionOf hparts h ih =>
    obtain ⟨hne, rfl⟩ := unionOf_eq_ok_iff.mp h
    exact onlyReferences_union hne ih
  | object h ih => exact onlyReferences_of_parts rfl (List.forall_mem_map.mpr ih)
  | genericOf hparts h ih =>
    obtain ⟨hne, rfl⟩ := genericOf_eq_ok_iff.mp h
    exact onlyReferences_generic hne ih
  | conditional name htest hconsequent halternate ihtest ihconsequent ihalternate =>
    refine onlyReferences_of_parts rfl ?_
    exact List.forall_mem_cons.mpr ⟨ihtest, List.forall_mem_cons.mpr
      ⟨ihconsequent, List.forall_mem_singleton.mpr ihalternate⟩⟩
  | infer name => exact onlyReferences_of_parts rfl fun _ hp => (by cases hp)
  | mapped h ih => exact onlyReferences_of_parts rfl (List.forall_mem_singleton.mpr ih)
  | @columnType c e hselect hinsert hupdate h ihselect ihinsert ihupdate =>
    have heffective : OnlyReferences c.effectiveUpdate := by
      rw [ColumnType.effectiveUpdate]
      cases hsome : c.update with
      | none => exact ihinsert
      | some update => exact ihupdate update hsome
    obtain ⟨hne, rfl⟩ := genericOf_eq_ok_iff.mp h
    refine onlyReferences_generic hne ?_
    exact List.forall_mem_cons.mpr ⟨ihselect, List.forall_mem_cons.mpr
      ⟨ihinsert, List.forall_mem_singleton.mpr heffective⟩⟩
  | moduleReference module =>
    intro inner own hwithin _
    rcases within_iff.mp hwithin with rfl | ⟨p, hp, _⟩
    · exact ⟨module, rfl⟩
    · cases hp

end Expression

/-! ## What an error is about -/

namespace Expression

variable {e : Expression}

theorem Built.exists_mention (h : e.Built) {error : RenderError} (hdefect : Defect e error) :
    ∃ module, error.root = .moduleReference module ∧ e.Mentions module := by
  obtain ⟨inner, hwithin, hinner⟩ := hdefect.exists_within
  obtain ⟨module, rfl⟩ := h.onlyReferences inner _ hwithin hinner
  exact ⟨module, (Option.some.inj hinner).symm, hwithin⟩

theorem Built.wellFormed_iff (h : e.Built) : e.WellFormed ↔ ∀ module, ¬e.Mentions module := by
  constructor
  · intro hwell module hmention
    obtain ⟨error, herror⟩ := exists_defect hmention rfl
    exact hwell error herror
  · intro hnone error hdefect
    obtain ⟨module, _, hmention⟩ := h.exists_mention hdefect
    exact hnone module hmention

end Expression

/-! ## Rendering -/

namespace Render

open Expression

variable {render : Expression → Nat → Rendered String} {e : Expression}

theorem Descends.exists_mention (h : Descends render) (hbuilt : e.Built) {depth : Nat}
    {error : RenderError} (herror : render e depth = .error error) :
    ∃ module, error.root = .moduleReference module ∧ e.Mentions module :=
  hbuilt.exists_mention (h.defect_of_error e depth error herror)

end Render

/-! ## Statements -/

/-- The right-hand side was made by builders. -/
inductive AliasBody.Built : AliasBody → Prop
  | plain {e : Expression} (h : e.Built) : Built (.plain e)
  | template {params : List String} {e : Expression} {t : Template} (h : e.Built)
      (hof : Template.of params e = .ok t) : Built (.template t)

theorem AliasBody.Built.of_params {params : List String} {e : Expression} (hne : params ≠ [])
    (h : e.Built) : Built (.template ⟨params, e⟩) :=
  .template h (Template.of_eq_ok_iff.mpr ⟨hne, rfl⟩)

theorem AliasBody.Built.expression {body : AliasBody} (h : body.Built) :
    body.expression.Built := by
  cases h with
  | plain h => exact h
  | template h hof =>
    obtain ⟨_, rfl⟩ := Template.of_eq_ok_iff.mp hof
    exact h

theorem AliasBody.Built.exists_paramsText {body : AliasBody} (h : body.Built) :
    ∃ params, StaticType.paramsText body = .ok params := by
  cases h with
  | plain h => exact ⟨"", rfl⟩
  | template h hof =>
    obtain ⟨hne, rfl⟩ := Template.of_eq_ok_iff.mp hof
    rw [StaticType.paramsText, if_neg (fun hempty => hne (List.isEmpty_iff.mp hempty))]
    exact ⟨_, rfl⟩

namespace Statement

open Rendered

/-- The statement was made by builders; more names may have been added to an import. -/
inductive Built : Statement → Prop
  | exportAlias (name : String) {body : AliasBody} (h : body.Built) : Built (exportAlias name body)
  | exportInterface (name : String) {ps : List Property} (h : ∀ p ∈ ps, p.value.Built) :
      Built (exportInterface name ps)
  | imports {module : String} {names : List String} {i : Import}
      (hof : Import.of module names = .ok i) (more : List ImportClause) :
      Built (.imports { i with clauses := i.clauses ++ more })

/-- There is a reference to this module in what the statement declares. -/
def Mentions (module : String) : Statement → Prop
  | .imports _ => False
  | .exports d => d.expression.Mentions module

theorem Built.declaration {d : Declaration} (h : Built (.exports d)) :
    d.expression.Built ∧ ∀ error, StaticType.declarationText d = .error error ↔
      StaticType.text d.expression 0 = .error error := by
  cases h with
  | exportAlias name hbody =>
    refine ⟨hbody.expression, fun error => ?_⟩
    obtain ⟨params, hparams⟩ := hbody.exists_paramsText
    rw [StaticType.declarationText, hparams]
    exact bind_return_eq_error_iff
  | exportInterface name hproperties =>
    exact ⟨.object hproperties, fun error => bind_return_eq_error_iff⟩

variable {options : StaticType.Options} {s : Statement}

theorem Built.exists_text_import {i : Import} (h : Built (.imports i)) :
    ∃ t, StaticType.importText options i = .ok t := by
  cases h with
  | imports hof more =>
    obtain ⟨hne, rfl⟩ := Import.of_eq_ok_iff.mp hof
    rw [StaticType.importText, if_neg (by simp [hne])]
    exact ⟨_, rfl⟩

theorem Built.exists_mention (h : s.Built) {error : RenderError}
    (herror : StaticType.statementText options s = .error error) :
    ∃ module, error.root = .moduleReference module ∧ s.Mentions module := by
  cases s with
  | imports i =>
    obtain ⟨t, ht⟩ : ∃ t, StaticType.importText options i = .ok t := h.exists_text_import
    rw [StaticType.statementText, ht] at herror
    cases herror
  | exports d =>
    obtain ⟨hbuilt, htext⟩ := h.declaration
    rw [StaticType.statementText, inDeclaration_eq_error_iff] at herror
    obtain ⟨source, hsource, rfl⟩ := herror
    obtain ⟨module, hroot, hmention⟩ := StaticType.descends.exists_mention hbuilt
      ((htext source).mp (bind_return_eq_error_iff.mp hsource))
    exact ⟨module, hroot, hmention⟩

theorem Built.error_of_mention (h : s.Built) {module : String} (hmention : s.Mentions module) :
    ∃ error, StaticType.statementText options s = .error error := by
  cases s with
  | imports i => cases hmention
  | exports d =>
    obtain ⟨hbuilt, htext⟩ := h.declaration
    obtain ⟨error, hdefect⟩ := Expression.exists_defect hmention rfl
    obtain ⟨error, herror⟩ := StaticType.descends.error_of_defect hdefect 0
    refine ⟨.declaration d.name error, ?_⟩
    rw [StaticType.statementText, inDeclaration_eq_error_iff]
    exact ⟨error, bind_return_eq_error_iff.mpr ((htext error).mpr herror), rfl⟩

end Statement

/-! ## Shared definitions -/

namespace Definitions

open Expression

theorem built_jsonPrimitive : ∃ e, jsonPrimitive = .ok e ∧ e.Built :=
  ⟨_, rfl, .union (List.cons_ne_nil _ _) (by simp [Built.named, Built.null])⟩

theorem built_jsonValue : ∃ e, jsonValue = .ok e ∧ e.Built :=
  ⟨_, rfl, .union (List.cons_ne_nil _ _) (by simp [Built.reference])⟩

theorem built_geometry : ∃ e, geometry = .ok e ∧ e.Built :=
  ⟨_, rfl, .union (List.cons_ne_nil _ _) (by simp [Built.reference, Built.array])⟩

theorem built_decimal : ∃ e, decimal = .ok e ∧ e.Built := by
  have hinsert : (union [named "string", named "number"]).Built :=
    .union (List.cons_ne_nil _ _) (by simp [Built.named])
  exact ⟨_, rfl, .columnType (c := ⟨named "string", _, none⟩) (.named _) hinsert (by simp) rfl⟩

theorem built_jsonColumn : ∃ e, jsonColumn = .ok e ∧ e.Built :=
  ⟨_, rfl, .columnType (c := ⟨reference "JsonValue", named "string", some (named "string")⟩)
    (.reference _) (.named _) (by simp [Built.named]) rfl⟩

theorem built_generated : ∃ body, generated = .ok body ∧ body.Built := by
  have htest : (Expression.generic "ColumnType" [infer "S", infer "I", infer "U"]).Built :=
    .generic (List.cons_ne_nil _ _) (by simp [Built.infer])
  have hoptional : ∀ select insert update : String, (Expression.generic "ColumnType"
      [reference select, union [reference insert, named "undefined"], reference update]).Built := by
    intro select insert update
    have hinsert : (union [reference insert, named "undefined"]).Built :=
      .union (List.cons_ne_nil _ _) (by simp [Built.named, Built.reference])
    exact .columnType (c := ⟨reference select, _, some (reference update)⟩) (.reference _) hinsert
      (by simp [Built.reference]) rfl
  have hbody := Built.conditional "T" htest (hoptional "S" "I" "U") (hoptional "T" "T" "T")
  exact ⟨_, rfl, .of_params (List.cons_ne_nil "T" []) hbody⟩

/-- All shared definitions are made by builders. -/
theorem built_all :
    ∃ definitions, all = .ok definitions ∧ ∀ entry ∈ definitions, entry.2.Built := by
  obtain ⟨decimal, hdecimal, hbuilt₁⟩ := built_decimal
  obtain ⟨generated, hgenerated, hbuilt₂⟩ := built_generated
  obtain ⟨geometry, hgeometry, hbuilt₃⟩ := built_geometry
  obtain ⟨jsonColumn, hjsonColumn, hbuilt₄⟩ := built_jsonColumn
  obtain ⟨jsonPrimitive, hjsonPrimitive, hbuilt₅⟩ := built_jsonPrimitive
  obtain ⟨jsonValue, hjsonValue, hbuilt₆⟩ := built_jsonValue
  have hpoint : point.Built := .object (by simp [Built.named])
  refine ⟨_, by rw [all, hdecimal, hgenerated, hgeometry, hjsonColumn, hjsonPrimitive,
    hjsonValue]; rfl, ?_⟩
  simp only [List.forall_mem_cons]
  exact ⟨.plain hbuilt₁, hbuilt₂, .plain hbuilt₃, .plain hbuilt₄, .plain (.array (.reference _)),
    .plain (.mapped (.reference _)), .plain hbuilt₅, .plain hbuilt₆, .plain (.array (.reference _)),
    .plain hpoint, .plain (.array (.reference _)), by simp⟩

end Definitions

/-! ## Modules -/

namespace Module

open Rendered

variable {options : StaticType.Options} {ss : List Statement}

theorem FirstRejected.exists_mention (hbuilt : ∀ s ∈ ss, s.Built) {error : RenderError}
    (h : FirstRejected options ss error) :
    ∃ module, error.root = .moduleReference module ∧ ∃ s ∈ ss, s.Mentions module := by
  obtain ⟨before, s, after, rfl, _, herror⟩ := h
  have hs : s ∈ before ++ s :: after := List.mem_append_right before List.mem_cons_self
  obtain ⟨module, hroot, hmention⟩ := (hbuilt s hs).exists_mention herror
  exact ⟨module, hroot, s, hs, hmention⟩

theorem text_ok_iff_no_mention (hbuilt : ∀ s ∈ ss, s.Built) :
    (∃ t, text options ss = .ok t) ↔ ∀ s ∈ ss, ∀ module, ¬s.Mentions module := by
  constructor
  · intro h s hs module hmention
    obtain ⟨t, ht⟩ := h
    have hrejected : ∃ error, StaticType.statementText options s = .error error :=
      (hbuilt s hs).error_of_mention hmention
    obtain ⟨error, herror⟩ := collect_eq_error_of_mem hs hrejected
    rw [text_eq_error_iff.mpr (firstRejected_iff.mpr herror)] at ht
    cases ht
  · intro h
    cases htext : text options ss with
    | ok t => exact ⟨t, rfl⟩
    | error error =>
      obtain ⟨module, _, s, hs, hmention⟩ := (text_eq_error_iff.mp htext).exists_mention hbuilt
      exact absurd hmention (h s hs module)

end Module

/-- **Nothing but module references is rejected.** What was made by builders, the shared
definitions included, is rendered in both forms at every depth and as a module of either
kind, exactly if there is no module reference in it; and every error is about one that is
there. -/
theorem rendered_iff_no_reference :
    (∀ e : Expression, e.Built → ∀ depth,
      ((∃ t, StaticType.text e depth = .ok t) ↔ ∀ module, ¬e.Mentions module) ∧
      ((∃ t, Validator.text e depth = .ok t) ↔ ∀ module, ¬e.Mentions module) ∧
      ∀ error, StaticType.text e depth = .error error ∨ Validator.text e depth = .error error →
        ∃ module, error.root = .moduleReference module ∧ e.Mentions module) ∧
    (∀ options, ∀ ss : List Statement, (∀ s ∈ ss, s.Built) →
      ((∃ t, Module.text options ss = .ok t) ↔ ∀ s ∈ ss, ∀ module, ¬s.Mentions module) ∧
      ((∃ b, Module.blocks options ss = .ok b) ↔ ∀ s ∈ ss, ∀ module, ¬s.Mentions module) ∧
      ∀ error, Module.text options ss = .error error ∨ Module.blocks options ss = .error error →
        ∃ module, error.root = .moduleReference module ∧ ∃ s ∈ ss, s.Mentions module) ∧
    ∃ definitions, Definitions.all = .ok definitions ∧ ∀ entry ∈ definitions, entry.2.Built := by
  refine ⟨fun e hbuilt depth => ⟨?_, ?_, fun error herror => ?_⟩,
    fun options ss hbuilt => ⟨?_, ?_, fun error herror => ?_⟩, Definitions.built_all⟩
  · rw [StaticType.descends.rendered_iff_wellFormed depth, hbuilt.wellFormed_iff]
  · rw [Validator.descends.rendered_iff_wellFormed depth, hbuilt.wellFormed_iff]
  · rcases herror with herror | herror
    · exact StaticType.descends.exists_mention hbuilt herror
    · exact Validator.descends.exists_mention hbuilt herror
  · exact Module.text_ok_iff_no_mention hbuilt
  · rw [Module.exists_blocks_iff, Module.text_ok_iff_no_mention hbuilt]
  · rcases herror with herror | herror
    · exact (Module.text_eq_error_iff.mp herror).exists_mention hbuilt
    · exact (Module.blocks_eq_error_iff.mp herror).exists_mention hbuilt

/-- A row with one column that may be `null`. -/
def bodyColumn (value : Expression) : Statement :=
  .exportInterface "Post" [⟨"body", .nullable value, some "Text"⟩]

/-- The row is rejected if its column is a module, and written if it is a definition. -/
theorem rendered_iff_bodyColumn :
    (∃ t, Module.text {} [bodyColumn (.reference "Json")] = .ok t) ∧
    ¬∃ t, Module.text {} [bodyColumn (.moduleReference "kysely")] = .ok t := by
  obtain ⟨_, hmodules, _⟩ := rendered_iff_no_reference
  have hbuilt : ∀ value : Expression, value.Built → ∀ s ∈ [bodyColumn value], s.Built :=
    fun value h => List.forall_mem_singleton.mpr
      (.exportInterface "Post" (List.forall_mem_singleton.mpr (.nullable h)))
  constructor
  · refine (hmodules {} _ (hbuilt _ (.reference "Json"))).1.mpr ?_
    refine List.forall_mem_singleton.mpr (Expression.Built.wellFormed_iff ?_ |>.mp ?_)
    · exact .object (List.forall_mem_singleton.mpr (.nullable (.reference "Json")))
    · simp [Declaration.expression, Expression.nullable]
  · rw [(hmodules {} _ (hbuilt _ (.moduleReference "kysely"))).1]
    intro hnone
    refine hnone _ List.mem_cons_self "kysely" ?_
    exact .part List.mem_cons_self (.part List.mem_cons_self .self)

end SchemaTypes
