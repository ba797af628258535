import SchemaTypes.Proofs.FirstError
import SchemaTypes.Render.StaticType

/-!
# The written order of properties and variants

`StaticType.text` renders the parts of an expression first and puts the texts in order
afterwards, each text paired with the part that it comes from. The order depends on the
keys of properties and the names of variants only, so the parts might as well have been
put in order before they are rendered:

> `text_union`, `text_object`: the text of a union or an object is that of its ordered
> parts, one after the other.

There is such an equation for each form of an expression whose text is made of the texts
of its parts.

In a union only the names are sorted, into the places of names. `map_canonical` says that
this commutes with whatever keeps the names, `canonical_eq_of_frame` on what the result
depends, and `canonical_perm` that no variant is lost or doubled.
-/

namespace SchemaTypes

/-! ## The order of names in a union -/

namespace UnionOrder

/-- The order of elements of which some have a name. -/
def compareNames (a b : Option Identifier) : Ordering :=
  compareIdentifiers (a.getD (.reference "")) (b.getD (.reference ""))

instance : Std.TransCmp compareNames :=
  inferInstanceAs (Std.TransCmp (compareLex
    (compareOn fun a : Option Identifier => rank (a.getD (.reference "")))
    (compareOn fun a : Option Identifier => (a.getD (.reference "")).name)))

theorem compareNames_some (a b : Identifier) :
    compareNames (some a) (some b) = compareIdentifiers a b := rfl

theorem rank_congr {a b : Identifier} (h : a.name = b.name) : rank a = rank b := by
  have hundefined : a.isUndefined = b.isUndefined := congrArg (· == "undefined") h
  have hnull : a.isNull = b.isNull := congrArg (· == "null") h
  rw [rank, rank, hundefined, hnull]

/-- The order looks at the spelling alone. -/
theorem compareNames_congr {a a' b b' : Option Identifier}
    (ha : a.map Identifier.name = a'.map Identifier.name)
    (hb : b.map Identifier.name = b'.map Identifier.name) :
    compareNames a b = compareNames a' b' := by
  have hname : ∀ {x x' : Option Identifier}, x.map Identifier.name = x'.map Identifier.name →
      (x.getD (.reference "")).name = (x'.getD (.reference "")).name := by
    intro x x' h
    cases x with
    | none =>
      cases x' with
      | none => rfl
      | some _ => exact absurd h (by simp)
    | some _ =>
      cases x' with
      | none => exact absurd h (by simp)
      | some _ => exact Option.some.inj h
  rw [compareNames, compareNames, compareIdentifiers, compareIdentifiers,
    rank_congr (hname ha), rank_congr (hname hb), hname ha, hname hb]

/-- Names of which neither comes before the other are spelled in the same way. -/
theorem name_eq_of_compareIdentifiers {a b : Identifier} (h : compareIdentifiers a b = .eq) :
    a.name = b.name :=
  Std.LawfulEqCmp.eq_of_compare (Ordering.then_eq_eq.mp h).2

variable {α β : Type}

theorem sortedNames_eq (name? : α → Option Identifier) (variants : List α) :
    sortedNames name? variants
      = (variants.filter fun v => (name? v).isSome).mergeSort
          fun a b => (compareNames (name? a) (name? b)).isLE := by
  have hnamed : (variants.filterMap fun v => (name? v).map fun i => (i, v)).map (·.2)
      = variants.filter fun v => (name? v).isSome := by
    rw [List.map_filterMap, ← List.filterMap_eq_filter]
    congr 1
    funext v
    cases h : name? v <;> simp [Option.guard, h]
  rw [sortedNames, ← hnamed]
  -- sorting pairs by their names and dropping the names is sorting by the names
  apply List.map_mergeSort
  intro p hp q hq
  obtain ⟨v, _, hv⟩ := List.mem_filterMap.mp hp
  obtain ⟨w, _, hw⟩ := List.mem_filterMap.mp hq
  obtain ⟨i, hi, rfl⟩ := Option.map_eq_some_iff.mp hv
  obtain ⟨j, hj, rfl⟩ := Option.map_eq_some_iff.mp hw
  show (compareIdentifiers i j).isLE = (compareNames (name? v) (name? w)).isLE
  rw [hi, hj, compareNames_some]

theorem refill_nil (chosen : α → Bool) (vs : List α) : refill chosen [] vs = vs := by
  cases vs <;> rfl

/-- What is not chosen stays where it is. -/
theorem refill_cons_of_neg {chosen : α → Bool} {v : α} (hv : ¬chosen v) (ss vs : List α) :
    refill chosen ss (v :: vs) = v :: refill chosen ss vs := by
  cases ss with
  | nil => rw [refill_nil, refill_nil]
  | cons s ss => rw [refill, if_neg hv]

theorem map_refill (chosen : α → Bool) (chosen' : β → Bool) (f : α → β)
    (h : ∀ v, chosen' (f v) = chosen v) :
    ∀ vs ss : List α, (refill chosen ss vs).map f = refill chosen' (ss.map f) (vs.map f) := by
  intro vs
  induction vs with
  | nil =>
    intro ss
    cases ss <;> rfl
  | cons v vs ih =>
    intro ss
    cases ss with
    | nil => rfl
    | cons s ss =>
      rw [List.map_cons, List.map_cons, refill, refill, h v]
      split
      · rw [List.map_cons, ih ss]
      · rw [List.map_cons, ih (s :: ss), List.map_cons]

/-- Names are put in order by how they are spelled, whatever else the variants are. -/
theorem map_canonical (name? : α → Option Identifier) (name?' : β → Option Identifier) (f : α → β)
    (h : ∀ v, (name?' (f v)).map Identifier.name = (name? v).map Identifier.name)
    (variants : List α) :
    (canonical name? variants).map f = canonical name?' (variants.map f) := by
  have hsome : ∀ v, (name?' (f v)).isSome = (name? v).isSome := by
    intro v
    rw [← Option.isSome_map (f := Identifier.name), h v, Option.isSome_map]
  have hsorted : (sortedNames name? variants).map f = sortedNames name?' (variants.map f) := by
    have hfilter : (variants.filter fun v => (name? v).isSome).map f
        = (variants.map f).filter fun w => (name?' w).isSome := by
      rw [List.filter_map]
      simp only [Function.comp_def, hsome]
    rw [sortedNames_eq, sortedNames_eq, ← hfilter]
    apply List.map_mergeSort
    intro a _ b _
    rw [compareNames_congr (h a) (h b)]
  rw [canonical, canonical, map_refill _ (fun w => (name?' w).isSome) f hsome, hsorted]

/-- What is not a name, in its place; the places of names are empty. -/
def frame (name? : α → Option Identifier) (variants : List α) : List (Option α) :=
  variants.map fun v => if (name? v).isSome then none else some v

/-- The frame and the elements to put in say how a list is refilled. -/
theorem refill_eq_of_frame {chosen : α → Bool} :
    ∀ {vs ws ss : List α},
      (vs.map fun v => if chosen v then none else some v)
          = (ws.map fun v => if chosen v then none else some v) →
      vs.countP chosen ≤ ss.length → refill chosen ss vs = refill chosen ss ws := by
  intro vs
  induction vs with
  | nil =>
    intro ws ss hframe _
    rw [List.map_nil, eq_comm, List.map_eq_nil_iff] at hframe
    rw [hframe]
  | cons v vs ih =>
    intro ws ss hframe hcount
    cases ws with
    | nil => exact absurd hframe (by simp)
    | cons w ws =>
      rw [List.map_cons, List.map_cons] at hframe
      obtain ⟨hhead, htail⟩ := List.cons.inj hframe
      -- the frames agree here, so both lists have a place to refill or the same element
      by_cases hv : chosen v
      · have hw : chosen w := by
          by_cases hw : chosen w
          · exact hw
          · rw [if_pos hv, if_neg hw] at hhead
            exact absurd hhead (by simp)
        rw [List.countP_cons_of_pos hv] at hcount
        cases ss with
        | nil => simp at hcount
        | cons s ss =>
          rw [refill, refill, if_pos hv, if_pos hw, ih htail (by simpa using hcount)]
      · have hw : ¬chosen w := by
          intro hw
          rw [if_neg hv, if_pos hw] at hhead
          exact absurd hhead (by simp)
        rw [if_neg hv, if_neg hw, Option.some.injEq] at hhead
        subst hhead
        rw [List.countP_cons_of_neg hv] at hcount
        rw [refill_cons_of_neg hv, refill_cons_of_neg hv, ih htail hcount]

theorem length_sortedNames (name? : α → Option Identifier) (variants : List α) :
    (sortedNames name? variants).length = variants.countP fun v => (name? v).isSome := by
  rw [sortedNames_eq, List.length_mergeSort, List.countP_eq_length_filter]

/-- A union is written by what is not a name, in its place, and by the names in order. -/
theorem canonical_eq_of_frame {name? : α → Option Identifier} {vs ws : List α}
    (hframe : frame name? vs = frame name? ws)
    (hnames : sortedNames name? vs = sortedNames name? ws) :
    canonical name? vs = canonical name? ws := by
  rw [canonical, canonical, ← hnames]
  exact refill_eq_of_frame hframe (Nat.le_of_eq (length_sortedNames name? vs).symm)

/-- Elements put into as many places stand beside what was not displaced. -/
theorem refill_perm (chosen : α → Bool) :
    ∀ {vs ss : List α}, ss.length = vs.countP chosen →
      (refill chosen ss vs).Perm (ss ++ vs.filter fun v => !chosen v) := by
  intro vs
  induction vs with
  | nil =>
    intro ss hlength
    have hnil : ss = [] := List.length_eq_zero_iff.mp hlength
    subst hnil
    exact .refl []
  | cons v vs ih =>
    intro ss hlength
    by_cases hv : chosen v
    · rw [List.countP_cons_of_pos hv] at hlength
      have hout : ((v :: vs).filter fun w => !chosen w) = vs.filter fun w => !chosen w :=
        List.filter_cons_of_neg (by simp [hv])
      cases ss with
      | nil => exact absurd hlength (by simp)
      | cons s ss =>
        -- `s` takes the place of `v`, which is not among what stays
        rw [refill, if_pos hv, hout]
        exact (ih (Nat.succ.inj hlength)).cons s
    · rw [List.countP_cons_of_neg hv] at hlength
      have hin : ((v :: vs).filter fun w => !chosen w) = v :: vs.filter fun w => !chosen w :=
        List.filter_cons_of_pos (by simp [hv])
      rw [hin, refill_cons_of_neg hv]
      exact ((ih hlength).cons v).trans List.perm_middle.symm

/-- No variant is lost and none is doubled. -/
theorem canonical_perm (name? : α → Option Identifier) (vs : List α) :
    (canonical name? vs).Perm vs := by
  have hsorted : (sortedNames name? vs).Perm (vs.filter fun v => (name? v).isSome) := by
    rw [sortedNames_eq]
    exact List.mergeSort_perm _ _
  have hrefill := refill_perm (fun v => (name? v).isSome) (length_sortedNames name? vs)
  exact hrefill.trans ((hsorted.append_right _).trans (List.filter_append_perm _ vs))

theorem refill_filter (chosen : α → Bool) (vs : List α) :
    refill chosen (vs.filter chosen) vs = vs := by
  induction vs with
  | nil => rfl
  | cons v vs ih =>
    by_cases hv : chosen v
    · rw [List.filter_cons_of_pos hv, refill, if_pos hv, ih]
    · rw [List.filter_cons_of_neg hv, refill_cons_of_neg hv, ih]

/-- Names that are in order already stay where they are. -/
theorem canonical_eq_self {name? : α → Option Identifier} {vs : List α}
    (h : (vs.filter fun v => (name? v).isSome).Pairwise
      fun a b => (compareNames (name? a) (name? b)).isLE) : canonical name? vs = vs := by
  rw [canonical, sortedNames_eq, List.mergeSort_of_pairwise h]
  exact refill_filter _ vs

end UnionOrder

/-! ## The text of unions and objects -/

namespace StaticType

open Render Rendered

/-- Properties in ascending order of their keys. -/
def keySorted (properties : List Property) : List Property :=
  properties.mergeSort fun a b => (compare a.key b.key).isLE

theorem texts_eq_map (es : List Expression) (depth : Nat) :
    texts es depth = es.map fun e => text e depth :=
  eq_map_of_cons (g := fun es => texts es depth) rfl (fun _ _ => rfl) es

theorem propertyTexts_eq_map (ps : List Property) (depth : Nat) :
    propertyTexts ps depth = ps.map fun p => propertyText p depth :=
  eq_map_of_cons (g := fun ps => propertyTexts ps depth) rfl (fun _ _ => rfl) ps

theorem text_union {vs : List Expression} (hne : vs ≠ []) (depth : Nat) :
    text (.union vs) depth = (collect ((UnionOrder.canonical Expression.identifier? vs).map
      fun v => text v depth)).map " | ".intercalate := by
  have horder : (inUnionOrder (vs.zip (texts vs depth))).map (·.2)
      = (UnionOrder.canonical Expression.identifier? vs).map fun v => text v depth := by
    have hpairs : (UnionOrder.canonical Expression.identifier? vs).map (fun v => (v, text v depth))
        = UnionOrder.canonical (fun p => p.1.identifier?) (vs.map fun v => (v, text v depth)) :=
      UnionOrder.map_canonical Expression.identifier? (fun p => p.1.identifier?)
        (fun v => (v, text v depth)) (fun _ => rfl) vs
    -- the pairs are put in order by their variants, so the texts come along
    rw [texts_eq_map, zip_map_self, inUnionOrder, ← hpairs, List.map_map]
    rfl
  cases vs with
  | nil => exact absurd rfl hne
  | cons v vs => rw [text, horder, bind_return_eq_map]

theorem text_object {ps : List Property} (hne : ps ≠ []) (depth : Nat) :
    text (.object ps) depth = (collect ((keySorted ps).map fun p => propertyText p (depth + 1))).map
      fun ts => block depth (String.join ts) := by
  have horder : (inKeyOrder (ps.zip (propertyTexts ps (depth + 1)))).map (·.2)
      = (keySorted ps).map fun p => propertyText p (depth + 1) := by
    have hpairs : (keySorted ps).map (fun p => (p, propertyText p (depth + 1)))
        = inKeyOrder (ps.map fun p => (p, propertyText p (depth + 1))) :=
      List.map_mergeSort fun _ _ _ _ => rfl
    rw [propertyTexts_eq_map, zip_map_self, ← hpairs, List.map_map]
    rfl
  cases ps with
  | nil => exact absurd rfl hne
  | cons p ps => rw [text, horder, bind_return_eq_map]

theorem text_generic {as : List Expression} (hne : as ≠ []) (name : String) (depth : Nat) :
    text (.generic name as) depth = (collect (as.map fun a => text a depth)).map fun ts =>
      name ++ "<" ++ ", ".intercalate ts ++ ">" := by
  cases as with
  | nil => exact absurd rfl hne
  | cons a as => rw [text, texts_eq_map, bind_return_eq_map]

theorem text_array (element : Expression) (depth : Nat) :
    text (.array element) depth = (text element depth).map fun t =>
      if element.isMultiVariantUnion then "(" ++ t ++ ")[]" else t ++ "[]" := by
  rw [text, bind_return_eq_map]

theorem text_mapped (value : Expression) (depth : Nat) :
    text (.mapped value) depth = (text value (depth + 1)).map fun t =>
      block depth (indent (depth + 1) ++ "[K in string]?: " ++ t ++ ";\n") := by
  rw [text, bind_return_eq_map]

theorem propertyText_eq (p : Property) (depth : Nat) :
    propertyText p depth = (inProperty p.key (text p.value depth)).map fun t =>
      propertyHead depth p ++ t ++ ";\n" := by
  obtain ⟨key, value, description⟩ := p
  rw [propertyText, bind_return_eq_map, inProperty_map]

end StaticType

end SchemaTypes
