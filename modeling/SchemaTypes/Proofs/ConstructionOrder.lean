import Mathlib.Data.List.Nodup
import Mathlib.Logic.Relation
import SchemaTypes.Proofs.CanonicalOrder
import SchemaTypes.Render.Module

/-!
# Static types do not depend on the order of construction

An expression can be put together in different orders: the properties of an object, and
the names in a union, can come one way or another, and the kind of a name says nothing
about how it is spelled. `Expression.Change` is one such difference, at any depth, and
`Module.Change` is one in some statement. The written types do not tell them apart:

> `types_eq_of_changes`: after any number of changes the static types are the same text,
> or the same error in the same place.

A change is seen by its surroundings in three ways only: through the text, through being
a name with some spelling, and through being a union that needs parentheses. `Alike` says
that all three agree, and `alike_of_change` is the induction.
-/

namespace SchemaTypes

namespace Expression

/-- The same variants with the names among them permuted: every other variant stays where
it is. -/
structure NamesPermuted (vs ws : List Expression) : Prop where
  frame : UnionOrder.frame identifier? vs = UnionOrder.frame identifier? ws
  names : (vs.filterMap identifier?).Perm (ws.filterMap identifier?)

theorem NamesPermuted.length_eq {vs ws : List Expression} (h : NamesPermuted vs ws) :
    vs.length = ws.length := by
  have hframes := congrArg List.length h.frame
  rw [UnionOrder.frame, UnionOrder.frame, List.length_map, List.length_map] at hframes
  exact hframes

/-- One difference in construction, at any depth. -/
inductive Change : Expression → Expression → Prop
  | kind (name : String) (k k' : Kind) : Change (.identifier ⟨name, k⟩) (.identifier ⟨name, k'⟩)
  | properties {ps qs : List Property} (hkeys : (ps.map (·.key)).Nodup) (hperm : ps.Perm qs) :
      Change (.object ps) (.object qs)
  | names {vs ws : List Expression} (h : NamesPermuted vs ws) : Change (.union vs) (.union ws)
  | array {e e' : Expression} (h : Change e e') : Change (.array e) (.array e')
  | variant {v v' : Expression} (before after : List Expression) (h : Change v v') :
      Change (.union (before ++ v :: after)) (.union (before ++ v' :: after))
  | property {value value' : Expression} (before after : List Property) (key : String)
      (description : Option String) (h : Change value value') :
      Change (.object (before ++ ⟨key, value, description⟩ :: after))
        (.object (before ++ ⟨key, value', description⟩ :: after))
  | argument {a a' : Expression} (name : String) (before after : List Expression)
      (h : Change a a') :
      Change (.generic name (before ++ a :: after)) (.generic name (before ++ a' :: after))
  | test {t t' : Expression} (name : String) (consequent alternate : Expression)
      (h : Change t t') :
      Change (.conditional name t consequent alternate) (.conditional name t' consequent alternate)
  | consequent {e e' : Expression} (name : String) (test alternate : Expression)
      (h : Change e e') :
      Change (.conditional name test e alternate) (.conditional name test e' alternate)
  | alternate {e e' : Expression} (name : String) (test consequent : Expression)
      (h : Change e e') :
      Change (.conditional name test consequent e) (.conditional name test consequent e')
  | mapped {e e' : Expression} (h : Change e e') : Change (.mapped e) (.mapped e')

theorem isMultiVariantUnion_union (vs : List Expression) :
    (Expression.union vs).isMultiVariantUnion = decide (2 ≤ vs.length) := by
  match vs with
  | [] => rfl
  | [_] => rfl
  | _ :: _ :: rest => exact (decide_eq_true (by simp)).symm

end Expression

namespace StaticType

open Render Rendered
open Expression (identifier? Change NamesPermuted)

/-- Two expressions that look the same wherever they stand. -/
structure Alike (e e' : Expression) : Prop where
  text : ∀ depth, text e depth = text e' depth
  name : (identifier? e).map Identifier.name = (identifier? e').map Identifier.name
  union : e.isMultiVariantUnion = e'.isMultiVariantUnion

/-! ## Unions -/

/-- What a union sees of a variant: its spelling if it is a name, and its text. -/
def variantView (depth : Nat) (v : Expression) : Option Identifier × Rendered String :=
  ((identifier? v).map fun i => .reference i.name, text v depth)

theorem Alike.variantView_eq {v v' : Expression} (h : Alike v v') (depth : Nat) :
    variantView depth v = variantView depth v' := by
  have hname : ∀ w : Expression, (identifier? w).map (fun i => Identifier.reference i.name)
      = ((identifier? w).map Identifier.name).map Identifier.reference := by
    intro w
    rw [Option.map_map]
    rfl
  rw [variantView, variantView, hname, hname, h.name, h.text]

theorem map_text_canonical (vs : List Expression) (depth : Nat) :
    (UnionOrder.canonical identifier? vs).map (fun v => text v depth)
      = (UnionOrder.canonical (·.1) (vs.map (variantView depth))).map (·.2) := by
  have hview : (UnionOrder.canonical identifier? vs).map (variantView depth)
      = UnionOrder.canonical (·.1) (vs.map (variantView depth)) := by
    apply UnionOrder.map_canonical
    intro v
    rw [variantView, Option.map_map]
    rfl
  rw [← hview, List.map_map]
  rfl

/-- A union is written by the views of its variants. -/
theorem text_union_congr {vs ws : List Expression} {depth : Nat} (hne : vs ≠ [])
    (hviews : vs.map (variantView depth) = ws.map (variantView depth)) :
    text (.union vs) depth = text (.union ws) depth := by
  have hne' : ws ≠ [] := by
    intro hnil
    subst hnil
    exact hne (List.map_eq_nil_iff.mp hviews)
  rw [text_union hne, text_union hne', map_text_canonical, map_text_canonical, hviews]

theorem filter_variantView (vs : List Expression) (depth : Nat) :
    (vs.map (variantView depth)).filter (fun w => w.1.isSome)
      = (vs.filterMap identifier?).map fun i => (some (.reference i.name), .ok i.name) := by
  induction vs with
  | nil => rfl
  | cons v vs ih =>
    cases v with
    | identifier i => exact congrArg (List.cons (some (.reference i.name), .ok i.name)) ih
    | _ => exact ih

/-- Names are sorted into the same order wherever they came from. -/
theorem sortedNames_of_permuted {vs ws : List Expression} (h : NamesPermuted vs ws)
    (depth : Nat) :
    UnionOrder.sortedNames (·.1) (vs.map (variantView depth))
      = UnionOrder.sortedNames (·.1) (ws.map (variantView depth)) := by
  have htrans := transCmp_on UnionOrder.compareNames
    fun w : Option Identifier × Rendered String => w.1
  rw [UnionOrder.sortedNames_eq, UnionOrder.sortedNames_eq, filter_variantView,
    filter_variantView]
  refine mergeSort_eq_of_perm (h.names.map _) ?_
  intro a ha b hb hsame
  obtain ⟨i, _, rfl⟩ := List.mem_map.mp ha
  obtain ⟨j, _, rfl⟩ := List.mem_map.mp hb
  -- names in the same place of the order can differ in kind only, which is not seen
  have hspelled : i.name = j.name := UnionOrder.name_eq_of_compareIdentifiers hsame
  rw [hspelled]

theorem frame_map_variantView (vs : List Expression) (depth : Nat) :
    UnionOrder.frame (·.1) (vs.map (variantView depth))
      = (UnionOrder.frame identifier? vs).map (Option.map (variantView depth)) := by
  rw [UnionOrder.frame, UnionOrder.frame, List.map_map, List.map_map]
  apply List.map_congr_left
  intro v _
  show (if ((identifier? v).map _).isSome then none else some (variantView depth v)) = _
  rw [Option.isSome_map]
  show _ = Option.map (variantView depth) (if (identifier? v).isSome then none else some v)
  split <;> rfl

theorem text_union_of_permuted {vs ws : List Expression} (h : NamesPermuted vs ws)
    (depth : Nat) : text (.union vs) depth = text (.union ws) depth := by
  have hlength : vs.length = ws.length := h.length_eq
  by_cases hne : vs = []
  · subst hne
    rw [List.length_eq_zero_iff.mp hlength.symm]
  · have hne' : ws ≠ [] := by
      intro hnil
      subst hnil
      exact hne (List.length_eq_zero_iff.mp hlength)
    have hcanonical : UnionOrder.canonical (·.1) (vs.map (variantView depth))
        = UnionOrder.canonical (·.1) (ws.map (variantView depth)) := by
      apply UnionOrder.canonical_eq_of_frame
      · rw [frame_map_variantView, frame_map_variantView, h.frame]
      · exact sortedNames_of_permuted h depth
    rw [text_union hne, text_union hne', map_text_canonical, map_text_canonical, hcanonical]

/-! ## Objects -/

/-- What an object sees of a property: its key and its text. -/
def propertyView (depth : Nat) (p : Property) : String × Rendered String :=
  (p.key, propertyText p depth)

theorem map_propertyText_keySorted (ps : List Property) (depth : Nat) :
    (keySorted ps).map (fun p => propertyText p depth)
      = ((ps.map (propertyView depth)).mergeSort
          fun a b => (compare a.1 b.1).isLE).map (·.2) := by
  have hview : (keySorted ps).map (propertyView depth)
      = (ps.map (propertyView depth)).mergeSort fun a b => (compare a.1 b.1).isLE :=
    List.map_mergeSort fun _ _ _ _ => rfl
  rw [← hview, List.map_map]
  rfl

/-- An object is written by the views of its properties. -/
theorem text_object_congr {ps qs : List Property} {depth : Nat} (hne : ps ≠ [])
    (hviews : ps.map (propertyView (depth + 1)) = qs.map (propertyView (depth + 1))) :
    text (.object ps) depth = text (.object qs) depth := by
  have hne' : qs ≠ [] := by
    intro hnil
    subst hnil
    exact hne (List.map_eq_nil_iff.mp hviews)
  rw [text_object hne, text_object hne', map_propertyText_keySorted,
    map_propertyText_keySorted, hviews]

/-- Different keys leave nothing to the order in which properties were given. -/
theorem keySorted_of_perm {ps qs : List Property} (hkeys : (ps.map (·.key)).Nodup)
    (hperm : ps.Perm qs) : keySorted ps = keySorted qs := by
  have htrans := transCmp_on (fun a b : String => compare a b) (fun p : Property => p.key)
  refine mergeSort_eq_of_perm hperm ?_
  intro p hp q hq hsame
  exact List.inj_on_of_nodup_map hkeys hp hq (Std.LawfulEqCmp.eq_of_compare hsame)

theorem text_object_of_perm {ps qs : List Property} (hkeys : (ps.map (·.key)).Nodup)
    (hperm : ps.Perm qs) (depth : Nat) : text (.object ps) depth = text (.object qs) depth := by
  by_cases hne : ps = []
  · subst hne
    rw [hperm.nil_eq]
  · have hne' : qs ≠ [] := by
      intro hnil
      subst hnil
      exact hne hperm.eq_nil
    rw [text_object hne, text_object hne', keySorted_of_perm hkeys hperm]

/-! ## Any depth -/

/-- **One change cannot be seen.** By induction on the place of the change: at the change
itself the parts sort into the same list, and everything around it sees only what is
alike. -/
theorem alike_of_change {e e' : Expression} (h : Change e e') : Alike e e' := by
  induction h with
  | kind name k k' => exact ⟨fun _ => rfl, rfl, rfl⟩
  | properties hkeys hperm => exact ⟨text_object_of_perm hkeys hperm, rfl, rfl⟩
  | names h =>
    -- parentheses around the union are a question of its length
    refine ⟨text_union_of_permuted h, rfl, ?_⟩
    rw [Expression.isMultiVariantUnion_union, Expression.isMultiVariantUnion_union, h.length_eq]
  | array _ ih =>
    refine ⟨fun depth => ?_, rfl, rfl⟩
    rw [text, text, ih.text depth, ih.union]
  | variant before after _ ih =>
    refine ⟨fun depth => ?_, rfl, ?_⟩
    · refine text_union_congr (by simp) ?_
      rw [List.map_append, List.map_append, List.map_cons, List.map_cons, ih.variantView_eq depth]
    · rw [Expression.isMultiVariantUnion_union, Expression.isMultiVariantUnion_union,
        List.length_append, List.length_append, List.length_cons, List.length_cons]
  | property before after key description _ ih =>
    refine ⟨fun depth => text_object_congr (by simp) ?_, rfl, rfl⟩
    rw [List.map_append, List.map_append, List.map_cons, List.map_cons, propertyView,
      propertyView, propertyText, propertyText, ih.text (depth + 1)]
    -- the comment of the property reads its description, which is the same
    rfl
  | argument name before after _ ih =>
    refine ⟨fun depth => ?_, rfl, rfl⟩
    rw [text_generic (by simp), text_generic (by simp), List.map_append, List.map_append,
      List.map_cons, List.map_cons, ih.text depth]
  | test name consequent alternate _ ih =>
    refine ⟨fun depth => ?_, rfl, rfl⟩
    rw [text, text, ih.text (depth + 1)]
  | consequent name test alternate _ ih =>
    refine ⟨fun depth => ?_, rfl, rfl⟩
    rw [text, text, ih.text (depth + 1)]
  | alternate name test consequent _ ih =>
    refine ⟨fun depth => ?_, rfl, rfl⟩
    rw [text, text, ih.text (depth + 1)]
  | mapped _ ih =>
    refine ⟨fun depth => ?_, rfl, rfl⟩
    rw [text, text, ih.text (depth + 1)]

end StaticType

/-! ## Statements and modules -/

/-- One difference in construction somewhere in a statement. An interface is changed as
the object of its properties is. -/
inductive Statement.Change : Statement → Statement → Prop
  | plain {e e' : Expression} (name : String) (h : e.Change e') :
      Change (.exportAlias name (.plain e)) (.exportAlias name (.plain e'))
  | template {e e' : Expression} (name : String) (params : List String) (h : e.Change e') :
      Change (.exportAlias name (.template ⟨params, e⟩))
        (.exportAlias name (.template ⟨params, e'⟩))
  | interface {ps qs : List Property} (name : String)
      (h : (Expression.object ps).Change (.object qs)) :
      Change (.exportInterface name ps) (.exportInterface name qs)

theorem StaticType.statementText_of_change {s s' : Statement} (options : Options)
    (h : s.Change s') : statementText options s = statementText options s' := by
  cases h with
  | plain name h =>
    have htext := (alike_of_change h).text 0
    rw [Statement.exportAlias, Statement.exportAlias, statementText, statementText,
      declarationText, declarationText, AliasBody.expression, AliasBody.expression, htext]
    rfl
  | template name params h =>
    have htext := (alike_of_change h).text 0
    rw [Statement.exportAlias, Statement.exportAlias, statementText, statementText,
      declarationText, declarationText, AliasBody.expression, AliasBody.expression, htext]
    rfl
  | interface name h =>
    have htext := (alike_of_change h).text 0
    rw [Statement.exportInterface, Statement.exportInterface, statementText, statementText,
      declarationText, declarationText, htext]
    rfl

namespace Module

open StaticType (Options)

/-- One difference in construction somewhere in a module. -/
inductive Change : List Statement → List Statement → Prop
  | statement {s s' : Statement} (before after : List Statement) (h : s.Change s') :
      Change (before ++ s :: after) (before ++ s' :: after)

theorem types_eq_of_change {ss ss' : List Statement} (options : Options) (h : Change ss ss') :
    types options ss = types options ss' := by
  obtain ⟨before, after, h⟩ := h
  have himport : ∀ {s s' : Statement}, s.Change s' → s.isImport = s'.isImport := by
    intro s s' h
    cases h <;> rfl
  have hpiece : ∀ {s s' : Statement}, s.Change s' →
      oneForm (StaticType.statementText options) s
        = oneForm (StaticType.statementText options) s' := by
    intro s s' h
    rw [oneForm, oneForm, StaticType.statementText_of_change options h, himport h]
  rw [types, types, textInForm, textInForm, List.map_append, List.map_append, List.map_cons,
    List.map_cons, hpiece h]

/-- **The order of construction cannot be seen.** Modules that differ by any number of
changes have the same static types: the same text, or the same error in the same
place. -/
theorem types_eq_of_changes {ss ss' : List Statement} (options : Options)
    (h : Relation.ReflTransGen Change ss ss') : types options ss = types options ss' := by
  induction h with
  | refl => rfl
  | tail _ hlast ih => exact ih.trans (types_eq_of_change options hlast)

/-- A row is written in the same way with its properties swapped, and then the names in
one of its types. -/
theorem types_eq_of_row_swapped :
    types {} [.exportInterface "Row" [⟨"b", .union [.named "string", .named "null"], none⟩,
        ⟨"a", .named "number", none⟩]]
      = types {} [.exportInterface "Row" [⟨"a", .named "number", none⟩,
        ⟨"b", .union [.named "null", .named "string"], none⟩]] := by
  have hswap : ∀ {ps qs : List Property}, (Expression.object ps).Change (.object qs) →
      Change [.exportInterface "Row" ps] [.exportInterface "Row" qs] :=
    fun h => .statement [] [] (.interface "Row" h)
  refine types_eq_of_changes {} ?_
  refine .tail (.single (hswap (.properties (by simp) (.swap _ _ _)))) (hswap ?_)
  exact .property [⟨"a", .named "number", none⟩] [] "b" none (.names ⟨rfl, .swap _ _ _⟩)

end Module

end SchemaTypes
