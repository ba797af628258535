import SchemaTypes.Proofs.Parting
import SchemaTypes.Proofs.WrittenForms

/-!
# What validators see of the spelling of names

A validator goes by the kind of a name, and writes the name itself only if it is a
reference. `Respelled` relates expressions that differ in the spelling of other names, at
any depth. They fail alike (`error_iff_of_respelled`), but their validators are not always
the same: a union of two variants is made nullish if its second variant is a name that is
*spelled* `null`, whatever its kind is.

> `text_eq_iff_sameNullables`: the validators of respelled expressions are the same exactly
> if the unions that are made nullish are at the same places in both.

That the texts are the same if the unions agree is an induction over the expression. That
they differ otherwise is not, since differences could make up for each other; so the
induction shows more, that the texts part (`Validator.Tells`).
-/

namespace SchemaTypes

namespace Expression

/-! ## Respelled expressions -/

/-- The expressions differ at most in how names are spelled, and each such name is of one
kind in both, which is not that of references. -/
inductive Respelled : Expression → Expression → Prop
  | identifier {i j : Identifier} (hkind : i.kind = j.kind)
      (hname : i.kind = .reference → i.name = j.name) :
      Respelled (.identifier i) (.identifier j)
  | literal (value : Literal) : Respelled (.literal value) (.literal value)
  | array {e e' : Expression} (h : Respelled e e') : Respelled (.array e) (.array e')
  | union (pairs : List (Expression × Expression)) (h : ∀ p ∈ pairs, Respelled p.1 p.2) :
      Respelled (.union (pairs.map (·.1))) (.union (pairs.map (·.2)))
  | object (pairs : List (Property × Expression)) (h : ∀ p ∈ pairs, Respelled p.1.value p.2) :
      Respelled (.object (pairs.map (·.1)))
        (.object (pairs.map fun p => { p.1 with value := p.2 }))
  | generic (name : String) (pairs : List (Expression × Expression))
      (h : ∀ p ∈ pairs, Respelled p.1 p.2) :
      Respelled (.generic name (pairs.map (·.1))) (.generic name (pairs.map (·.2)))
  | conditional (name : String)
      {test test' consequent consequent' alternate alternate' : Expression}
      (htest : Respelled test test') (hconsequent : Respelled consequent consequent')
      (halternate : Respelled alternate alternate') :
      Respelled (.conditional name test consequent alternate)
        (.conditional name test' consequent' alternate')
  | infer (name : String) : Respelled (.infer name) (.infer name)
  | mapped {e e' : Expression} (h : Respelled e e') : Respelled (.mapped e) (.mapped e')
  | moduleReference (module : String) :
      Respelled (.moduleReference module) (.moduleReference module)

/-- How many variants a union has is not a matter of spelling. -/
theorem isMultiVariantUnion_eq_of_respelled {e e' : Expression} (h : e.Respelled e') :
    e.isMultiVariantUnion = e'.isMultiVariantUnion := by
  cases h with
  | union pairs _ => match pairs with | [] | [_] | _ :: _ :: _ => rfl
  | _ => rfl

/-- A union of two variants, of which the second one is a name spelled `null`. -/
def isNullable : Expression → Bool
  | .union variants => (nullableInner? variants).isSome
  | _ => false

/-- At every place, both expressions have a nullable union or neither has. -/
inductive SameNullables : Expression → Expression → Prop
  | mk {e e' : Expression} (hself : e.isNullable = e'.isNullable)
      (hparts : List.Forall₂ (fun p q => SameNullables p.2 q.2) e.children e'.children) :
      SameNullables e e'

theorem sameNullables_iff {e e' : Expression} :
    SameNullables e e' ↔ e.isNullable = e'.isNullable
      ∧ List.Forall₂ (fun p q => SameNullables p.2 q.2) e.children e'.children := by
  constructor
  · intro h
    cases h with
    | mk hself hparts => exact ⟨hself, hparts⟩
  · intro h
    exact .mk h.1 h.2

/-- Without parts and unions there is nothing to compare. -/
theorem sameNullables_of_no_children {e e' : Expression} (hself : e.isNullable = e'.isNullable)
    (hchildren : e.children = []) (hchildren' : e'.children = []) : SameNullables e e' := by
  refine .mk hself ?_
  rw [hchildren, hchildren']
  exact .nil

theorem sameNullables_of_respelled {i : Identifier} {e : Expression}
    (h : (Expression.identifier i).Respelled e) : SameNullables (.identifier i) e := by
  cases h
  exact sameNullables_of_no_children rfl rfl rfl

/-- Parts that come in pairs are compared pair by pair. -/
theorem forall₂_children {α : Type} {f f' : α → Option String × Expression} {l : List α} :
    List.Forall₂ (fun p q : Option String × Expression => SameNullables p.2 q.2)
        (l.map f) (l.map f')
      ↔ ∀ a ∈ l, SameNullables (f a).2 (f' a).2 := by
  rw [List.forall₂_map_left_iff, List.forall₂_map_right_iff, List.forall₂_same]

theorem sameNullables_array {e e' : Expression} :
    SameNullables (.array e) (.array e') ↔ SameNullables e e' := by
  rw [sameNullables_iff]
  simp [isNullable, children]

theorem sameNullables_mapped {e e' : Expression} :
    SameNullables (.mapped e) (.mapped e') ↔ SameNullables e e' := by
  rw [sameNullables_iff]
  simp [isNullable, children]

theorem sameNullables_conditional {name : String}
    {test test' consequent consequent' alternate alternate' : Expression} :
    SameNullables (.conditional name test consequent alternate)
        (.conditional name test' consequent' alternate')
      ↔ SameNullables test test' ∧ SameNullables consequent consequent'
        ∧ SameNullables alternate alternate' := by
  rw [sameNullables_iff]
  simp [isNullable, children]

theorem sameNullables_union {pairs : List (Expression × Expression)} :
    SameNullables (.union (pairs.map (·.1))) (.union (pairs.map (·.2)))
      ↔ (nullableInner? (pairs.map (·.1))).isSome = (nullableInner? (pairs.map (·.2))).isSome
        ∧ ∀ p ∈ pairs, SameNullables p.1 p.2 := by
  rw [sameNullables_iff, children, children, List.map_map, List.map_map, forall₂_children]
  rfl

theorem sameNullables_generic {name : String} {pairs : List (Expression × Expression)} :
    SameNullables (.generic name (pairs.map (·.1))) (.generic name (pairs.map (·.2)))
      ↔ ∀ p ∈ pairs, SameNullables p.1 p.2 := by
  rw [sameNullables_iff, children, children, List.map_map, List.map_map, forall₂_children]
  exact and_iff_right rfl

theorem sameNullables_object {pairs : List (Property × Expression)} :
    SameNullables (.object (pairs.map (·.1)))
        (.object (pairs.map fun p => { p.1 with value := p.2 }))
      ↔ ∀ p ∈ pairs, SameNullables p.1.value p.2 := by
  rw [sameNullables_iff, children, children, List.map_map, List.map_map, forall₂_children]
  exact and_iff_right rfl

end Expression

namespace Validator

open Expression Render Rendered

/-- A union fails as the first of its variants does: one that is left out cannot fail. -/
theorem text_union_eq_error_iff {vs : List Expression} (hne : vs ≠ []) {depth : Nat}
    {error : RenderError} : text (.union vs) depth = .error error
      ↔ collect (vs.map fun v => text v depth) = .error error := by
  cases hnullable : nullableInner? vs with
  | none => rw [text_union_of_not_nullable hne hnullable, map_eq_error_iff]
  | some inner =>
    obtain ⟨i, rfl, _⟩ := nullableInner?_eq_some hnullable
    rw [text_union_of_nullable hnullable, map_eq_error_iff, List.map_cons, collect,
      bind_eq_error_iff]
    refine (or_iff_left ?_).symm
    rintro ⟨_, _, h⟩
    cases h

theorem identifierText_eq_of_respelled {i j : Identifier} (hkind : i.kind = j.kind)
    (hname : i.kind = .reference → i.name = j.name) : identifierText i = identifierText j := by
  unfold identifierText
  rw [← hkind]
  split
  case h_8 hreference => exact hname hreference
  all_goals rfl

/-- Respelled expressions fail alike. -/
theorem error_iff_of_respelled {e e' : Expression} (h : e.Respelled e') :
    ∀ (depth : Nat) (error : RenderError),
      text e depth = .error error ↔ text e' depth = .error error := by
  have hpairs : ∀ (pairs : List (Expression × Expression)) {depth : Nat} {error : RenderError},
      (∀ p ∈ pairs, ∀ error, text p.1 depth = .error error ↔ text p.2 depth = .error error) →
      (collect ((pairs.map (·.1)).map fun v => text v depth) = .error error
        ↔ collect ((pairs.map (·.2)).map fun v => text v depth) = .error error) := by
    intro pairs depth error hparts
    rw [List.map_map, List.map_map]
    exact collect_map_eq_error_congr hparts error
  induction h with
  | identifier hkind hname =>
    intro depth error
    exact ⟨fun h => (by cases h), fun h => (by cases h)⟩
  | literal value => exact fun _ _ => Iff.rfl
  | infer name => exact fun _ _ => Iff.rfl
  | moduleReference module => exact fun _ _ => Iff.rfl
  | array _ ih =>
    intro depth error
    rw [text_array, text_array, map_eq_error_iff, map_eq_error_iff]
    exact ih depth error
  | union pairs _ ih =>
    intro depth error
    by_cases hne : pairs = []
    · subst hne
      exact Iff.rfl
    · rw [text_union_eq_error_iff (by simpa using hne),
        text_union_eq_error_iff (by simpa using hne)]
      exact hpairs pairs fun p hp => ih p hp depth
  | object pairs _ ih =>
    intro depth error
    by_cases hne : pairs = []
    · subst hne
      exact Iff.rfl
    · rw [text_object (by simpa using hne), text_object (by simpa using hne),
        map_eq_error_iff, map_eq_error_iff, List.map_map, List.map_map]
      refine collect_map_eq_error_congr (fun p hp error => ?_) error
      show propertyText p.1 (depth + 1) = _ ↔ propertyText { p.1 with value := p.2 } (depth + 1) = _
      rw [writesProperties.eq_error_iff, writesProperties.eq_error_iff, inProperty_eq_error_iff,
        inProperty_eq_error_iff]
      simp only [ih p hp (depth + 1)]
  | generic name pairs _ ih =>
    intro depth error
    by_cases hne : pairs = []
    · subst hne
      exact Iff.rfl
    · rw [text_generic (by simpa using hne), text_generic (by simpa using hne),
        map_eq_error_iff, map_eq_error_iff]
      exact hpairs pairs fun p hp => ih p hp depth
  | @conditional name test test' consequent consequent' alternate alternate' _ _ _
      ihtest ihconsequent ihalternate =>
    intro depth error
    rw [text_conditional, text_conditional, collect_three_eq_error_iff, collect_three_eq_error_iff]
    exact hpairs [(test, test'), (consequent, consequent'), (alternate, alternate')]
      (by simp [ihtest, ihconsequent, ihalternate])
  | mapped _ ih =>
    intro depth error
    rw [text_mapped, text_mapped, map_eq_error_iff, map_eq_error_iff]
    exact ih depth error

/-! ## Texts of respelled expressions -/

/-- The text of a union that is made nullish. -/
theorem exists_text_of_nullable {α : Type} {f : α → Expression} {l : List α} {depth : Nat}
    {inner : Expression} {t : String} (h : nullableInner? (l.map f) = some inner)
    (ht : text (.union (l.map f)) depth = .ok t) :
    ∃ a b i s, l = [a, b] ∧ f b = .identifier i ∧ text (f a) depth = .ok s
      ∧ t = s ++ ".nullish()" := by
  obtain ⟨i, hl, _⟩ := nullableInner?_eq_some h
  obtain ⟨a, rest, rfl, rfl, hrest⟩ := List.map_eq_cons_iff.mp hl
  obtain ⟨b, rest', rfl, hb, hnil⟩ := List.map_eq_cons_iff.mp hrest
  rw [List.map_eq_nil_iff.mp hnil] at h ht ⊢
  rw [text_union_of_nullable h, map_eq_ok_iff] at ht
  obtain ⟨s, hs, rfl⟩ := ht
  exact ⟨a, b, i, s, rfl, hb, hs, rfl⟩

/-- The text of a union of which the variants are enumerated. -/
theorem exists_text_of_enumerated {α : Type} {f : α → Expression} {l : List α} {depth : Nat}
    {t : String} (h : nullableInner? (l.map f) = none)
    (ht : text (.union (l.map f)) depth = .ok t) :
    ∃ g : α → String, (∀ a ∈ l, text (f a) depth = .ok (g a)) ∧ ∀ a others, l = a :: others →
      t = "z.enum([" ++ g a ++ (rest (others.map g) ++ "])") := by
  by_cases hne : l.map f = []
  · rw [hne] at ht
    cases ht
  · rw [text_union_of_not_nullable hne h, map_eq_ok_iff, List.map_map] at ht
    obtain ⟨ts, hts, rfl⟩ := ht
    obtain ⟨g, rfl, hg⟩ := exists_map_of_collect_eq_ok hts
    refine ⟨g, hg, ?_⟩
    rintro a others rfl
    rw [List.map_cons, intercalate_cons]
    simp only [String.append_assoc]

/-- Two texts of a union with respelled variants. -/
theorem tells_union {pairs : List (Expression × Expression)} {depth : Nat} {t t' : String}
    (hrespelled : ∀ p ∈ pairs, p.1.Respelled p.2)
    (hparts : ∀ p ∈ pairs, ∀ s s', text p.1 depth = .ok s → text p.2 depth = .ok s' →
      Tells (SameNullables p.1 p.2) s s')
    (ht : text (.union (pairs.map (·.1))) depth = .ok t)
    (ht' : text (.union (pairs.map (·.2))) depth = .ok t') :
    Tells (SameNullables (.union (pairs.map (·.1))) (.union (pairs.map (·.2)))) t t' := by
  -- in a pair that is enumerated, the second variant is all that comes behind the first
  have hpair : ∀ (g : Expression × Expression → String) (q : Expression × Expression),
      rest ([q].map g) ++ "])" = ", " ++ (g q ++ "])") := by
    intro g q
    simp [rest, String.append_assoc]
  cases h : nullableInner? (pairs.map (·.1)) with
  | none =>
    obtain ⟨g, hg, hall⟩ := exists_text_of_enumerated h ht
    cases h' : nullableInner? (pairs.map (·.2)) with
    | none =>
      obtain ⟨g', hg', hall'⟩ := exists_text_of_enumerated h' ht'
      cases pairs with
      | nil => cases ht
      | cons p others =>
        rw [hall p others rfl, hall' p others rfl]
        refine (Tells.enumerated_row fun q hq =>
          hparts q hq _ _ (hg q hq) (hg' q hq)).congr ?_
        rw [sameNullables_union, h, h']
        simp
    | some inner' =>
      obtain ⟨p, q, _, s', rfl, _, hs', rfl⟩ := exists_text_of_nullable h' ht'
      have hp : p ∈ [p, q] := List.mem_cons_self
      rw [hall p [q] rfl, hpair]
      refine (Tells.nullish_enumerated (hparts p hp _ _ (hg p hp) hs').symm _).symm.congr ?_
      rw [sameNullables_union, h, h']
      simp
  | some inner =>
    obtain ⟨p, q, i, s, rfl, hq, hs, rfl⟩ := exists_text_of_nullable h ht
    have hp : p ∈ [p, q] := List.mem_cons_self
    cases h' : nullableInner? ([p, q].map (·.2)) with
    | none =>
      obtain ⟨g', hg', hall'⟩ := exists_text_of_enumerated h' ht'
      rw [hall' p [q] rfl, hpair]
      refine (Tells.nullish_enumerated (hparts p hp _ _ hs (hg' p hp)) _).congr ?_
      rw [sameNullables_union, h, h']
      simp
    | some inner' =>
      obtain ⟨p', q', _, s', hpairs, _, hs', rfl⟩ := exists_text_of_nullable h' ht'
      obtain ⟨rfl, _⟩ := List.cons.inj hpairs
      refine (hparts p hp _ _ hs hs').nullish.congr ?_
      -- the second variant is a name on both sides
      have hname : SameNullables q.1 q.2 := by
        have hsecond := hrespelled q (by simp)
        rw [hq] at hsecond ⊢
        exact sameNullables_of_respelled hsecond
      rw [sameNullables_union, h, h']
      simp [hname]

theorem tells_generic {name : String} {pairs : List (Expression × Expression)} {depth : Nat}
    {t t' : String}
    (hparts : ∀ p ∈ pairs, ∀ s s', text p.1 depth = .ok s → text p.2 depth = .ok s' →
      Tells (SameNullables p.1 p.2) s s')
    (ht : text (.generic name (pairs.map (·.1))) depth = .ok t)
    (ht' : text (.generic name (pairs.map (·.2))) depth = .ok t') :
    Tells (SameNullables (.generic name (pairs.map (·.1))) (.generic name (pairs.map (·.2))))
      t t' := by
  cases pairs with
  | nil => cases ht
  | cons p others =>
    rw [text_generic (by simp), map_eq_ok_iff, List.map_map] at ht ht'
    obtain ⟨ts, hts, rfl⟩ := ht
    obtain ⟨ts', hts', rfl⟩ := ht'
    obtain ⟨g, rfl, hg⟩ := exists_map_of_collect_eq_ok hts
    obtain ⟨g', rfl, hg'⟩ := exists_map_of_collect_eq_ok hts'
    exact (Tells.row fun q hq => hparts q hq _ _ (hg q hq) (hg' q hq)).congr
      sameNullables_generic.symm

theorem shows_propertyText {p : Property} {value : Expression} {depth : Nat} {t t' : String}
    (hvalue : ∀ s s', text p.value depth = .ok s → text value depth = .ok s' →
      Tells (SameNullables p.value value) s s')
    (ht : propertyText p depth = .ok t)
    (ht' : propertyText { p with value := value } depth = .ok t') :
    Shows (SameNullables p.value value) t t' := by
  obtain ⟨s, hs, rfl⟩ := writesProperties.eq_ok_iff.mp ht
  obtain ⟨s', hs', rfl⟩ := writesProperties.eq_ok_iff.mp ht'
  -- the comment and the description behind the value do not look at the value
  exact (hvalue s s' hs hs').shows.between (propertyHead depth p) (describeText p ++ ",\n")

theorem tells_object {pairs : List (Property × Expression)} {depth : Nat} {t t' : String}
    (hparts : ∀ p ∈ pairs, ∀ s s', text p.1.value (depth + 1) = .ok s →
      text p.2 (depth + 1) = .ok s' → Tells (SameNullables p.1.value p.2) s s')
    (ht : text (.object (pairs.map (·.1))) depth = .ok t)
    (ht' : text (.object (pairs.map fun p => { p.1 with value := p.2 })) depth = .ok t') :
    Tells (SameNullables (.object (pairs.map (·.1)))
      (.object (pairs.map fun p => { p.1 with value := p.2 }))) t t' := by
  by_cases hne : pairs = []
  · subst hne
    exact .of_eq (sameNullables_object.mpr (by simp)) (Except.ok.inj (ht.symm.trans ht'))
  · rw [text_object (by simpa using hne), map_eq_ok_iff, List.map_map] at ht ht'
    obtain ⟨ts, hts, rfl⟩ := ht
    obtain ⟨ts', hts', rfl⟩ := ht'
    obtain ⟨g, rfl, hg⟩ := exists_map_of_collect_eq_ok hts
    obtain ⟨g', rfl, hg'⟩ := exists_map_of_collect_eq_ok hts'
    have hlines : Shows (∀ p ∈ pairs, SameNullables p.1.value p.2) (String.join (pairs.map g))
        (String.join (pairs.map g')) := Shows.join fun p hp =>
      shows_propertyText (hparts p hp) (hg p hp) (hg' p hp)
    have hopening : Text.Apart "z.object(".toList opening := apart_opening rfl (by decide)
    exact (Tells.between (hlines.block depth) hopening ")").congr sameNullables_object.symm

/-- The text of a conditional, from the texts of its parts. -/
theorem text_conditional_eq_ok {name : String} {test consequent alternate : Expression}
    {depth : Nat} {t : String}
    (h : text (.conditional name test consequent alternate) depth = .ok t) :
    ∃ s c a, text test (depth + 1) = .ok s ∧ text consequent (depth + 1) = .ok c
      ∧ text alternate (depth + 1) = .ok a
      ∧ t = name ++ (" extends " ++ (s ++ ("\n" ++ indent (depth + 1) ++ "? " ++ (c
        ++ ("\n" ++ indent (depth + 1) ++ ": " ++ a))))) := by
  rw [text_conditional, bind_eq_ok_iff] at h
  obtain ⟨s, hs, h⟩ := h
  obtain ⟨c, hc, h⟩ := bind_eq_ok_iff.mp h
  obtain ⟨a, ha, rfl⟩ := bind_return_eq_ok_iff.mp h
  refine ⟨s, c, a, hs, hc, ha, ?_⟩
  simp only [String.append_assoc]

/-- Texts of respelled expressions tell whether the unions that are made nullish are at the
same places. -/
theorem tells_of_respelled {e e' : Expression} (h : e.Respelled e') :
    ∀ (depth : Nat) (t t' : String), text e depth = .ok t → text e' depth = .ok t' →
      Tells (SameNullables e e') t t' := by
  induction h with
  | @identifier i j hkind hname =>
    intro depth t t' ht ht'
    refine .of_eq (sameNullables_of_no_children rfl rfl rfl) ?_
    rw [text_identifier] at ht ht'
    rw [← Except.ok.inj ht, ← Except.ok.inj ht', identifierText_eq_of_respelled hkind hname]
  | literal value =>
    intro depth t t' ht ht'
    exact .of_eq (sameNullables_of_no_children rfl rfl rfl) (Except.ok.inj (ht.symm.trans ht'))
  | infer name =>
    intro depth t t' ht ht'
    exact .of_eq (sameNullables_of_no_children rfl rfl rfl) (Except.ok.inj (ht.symm.trans ht'))
  | moduleReference module =>
    intro depth t t' ht
    cases ht
  | @array e e' h ih =>
    intro depth t t' ht ht'
    rw [text_array, map_eq_ok_iff] at ht ht'
    obtain ⟨s, hs, rfl⟩ := ht
    obtain ⟨s', hs', rfl⟩ := ht'
    have hshows := (ih depth s s' hs hs').shows.congr sameNullables_array.symm
    rw [← isMultiVariantUnion_eq_of_respelled h]
    have hunion : Text.Apart "z.array(z.union(".toList opening := apart_opening rfl (by decide)
    have hopening : Text.Apart "z.array(".toList opening := apart_opening rfl (by decide)
    cases e.isMultiVariantUnion with
    | true => exact .between hshows hunion "))"
    | false => exact .between hshows hopening ")"
  | union pairs hrespelled ih =>
    intro depth t t' ht ht'
    exact tells_union hrespelled (fun p hp => ih p hp depth) ht ht'
  | object pairs _ ih =>
    intro depth t t' ht ht'
    exact tells_object (fun p hp => ih p hp (depth + 1)) ht ht'
  | generic name pairs _ ih =>
    intro depth t t' ht ht'
    exact tells_generic (fun p hp => ih p hp depth) ht ht'
  | conditional name _ _ _ ihtest ihconsequent ihalternate =>
    intro depth t t' ht ht'
    obtain ⟨s, c, a, hs, hc, ha, rfl⟩ := text_conditional_eq_ok ht
    obtain ⟨s', c', a', hs', hc', ha', rfl⟩ := text_conditional_eq_ok ht'
    have hbranches := ((ihtest _ s s' hs hs').shows.append
      ((Shows.refl ("\n" ++ indent (depth + 1) ++ "? ")).append
        ((ihconsequent _ c c' hc hc').shows.append
          ((Shows.refl ("\n" ++ indent (depth + 1) ++ ": ")).append
            (ihalternate _ a a' ha ha').shows))))
    have hends : ∀ r : String, Ends (" extends " ++ r) := fun r =>
      ((halts_of_head (c := ' ') (by decide) rfl).append r).ends
    refine ((Tells.refl name).append ((Shows.refl " extends ").append hbranches) (hends _)
      (hends _)).congr ?_
    rw [sameNullables_conditional]
    simp only [true_and]
  | mapped _ ih =>
    intro depth t t' ht ht'
    rw [text_mapped, map_eq_ok_iff] at ht ht'
    obtain ⟨s, hs, rfl⟩ := ht
    obtain ⟨s', hs', rfl⟩ := ht'
    have hopening : Text.Apart "z.record(z.string(), ".toList opening :=
      apart_opening rfl (by decide)
    exact .between ((ih depth s s' hs hs').shows.congr sameNullables_mapped.symm) hopening _

/-- **What validators see of spelling.** Respelled expressions fail alike. If they do not
fail, their validators are the same exactly if the unions of two variants whose second
variant is a name spelled `null` are at the same places in both. -/
theorem text_eq_iff_sameNullables {e e' : Expression} (h : e.Respelled e') (depth : Nat) :
    (∀ error, text e depth = .error error ↔ text e' depth = .error error)
      ∧ ∀ t, text e depth = .ok t → (text e' depth = .ok t ↔ SameNullables e e') := by
  have herror := error_iff_of_respelled h depth
  refine ⟨herror, fun t ht => ?_⟩
  cases ht' : text e' depth with
  | error error =>
    rw [(herror error).mpr ht'] at ht
    cases ht
  | ok t' =>
    rw [Except.ok.injEq, eq_comm]
    exact (tells_of_respelled h depth t t' ht ht').shows.eq_iff

/-- The type of texts or `null`, under any two names. -/
def textOrNull (text null : String) : Expression :=
  .union [.identifier ⟨text, .string⟩, .identifier ⟨null, .null⟩]

theorem respelled_textOrNull (text null text' null' : String) :
    (textOrNull text null).Respelled (textOrNull text' null') := by
  refine .union [(.identifier ⟨text, .string⟩, .identifier ⟨text', .string⟩),
    (.identifier ⟨null, .null⟩, .identifier ⟨null', .null⟩)] fun p hp => ?_
  rcases List.mem_pair.mp hp with rfl | rfl
  · exact .identifier rfl nofun
  · exact .identifier rfl nofun

theorem text_eq_iff_sameNullables_string :
    text (textOrNull "string" "null") 0 = .ok "z.string().nullish()"
      ∧ text (textOrNull "String" "null") 0 = .ok "z.string().nullish()"
      ∧ SameNullables (textOrNull "string" "null") (textOrNull "String" "null") := by
  have ht : text (textOrNull "string" "null") 0 = .ok "z.string().nullish()" := rfl
  have ht' : text (textOrNull "String" "null") 0 = .ok "z.string().nullish()" := rfl
  have hiff := text_eq_iff_sameNullables (respelled_textOrNull "string" "null" "String" "null") 0
  exact ⟨ht, ht', (hiff.2 _ ht).mp ht'⟩

/-- Of the names `null` and `Nullable`, which are of one kind, only the first is left out. -/
theorem spelling_seen :
    (textOrNull "string" "null").Respelled (textOrNull "string" "Nullable")
      ∧ text (textOrNull "string" "null") 0 = .ok "z.string().nullish()"
      ∧ text (textOrNull "string" "Nullable") 0 = .ok "z.enum([z.string(), z.null()])"
      ∧ text (textOrNull "string" "null") 0 ≠ text (textOrNull "string" "Nullable") 0 := by
  have ht : text (textOrNull "string" "null") 0 = .ok "z.string().nullish()" := rfl
  have ht' : text (textOrNull "string" "Nullable") 0 = .ok "z.enum([z.string(), z.null()])" :=
    rfl
  refine ⟨respelled_textOrNull _ _ _ _, ht, ht', ?_⟩
  rw [ht, ht']
  simp

end Validator

end SchemaTypes
