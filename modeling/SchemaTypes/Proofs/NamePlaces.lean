import SchemaTypes.Proofs.CanonicalOrder
import SchemaTypes.Proofs.StableSort

/-!
# The places of names in a union

The canonical order takes the names out of a union, sorts them, and puts them back one
after the other into the places that held names. `IsCanonical` says what that comes to
without saying how it is done: no variant is lost or doubled, what is not a name stays at
its index, and the names are in ascending order from left to right, with `null` behind all
others and `undefined` last; names that are spelled alike stay as they were.

> `canonical_places`: so it is with the order that is used.

The names are put back one by one, so there has to be one for each place.
`getElem?_refill` says what stands at an index in any case, and `getElem?_canonical` that
the sorted names never run out: a place takes the sorted name whose number is that of the
places before it.
-/

namespace SchemaTypes

/-- The order of texts, as a comparison, is the order of texts. -/
theorem isLE_compare_iff {a b : String} : (compare a b).isLE ↔ a ≤ b := by
  have hlt : compare b a = .lt ↔ b < a := compareOfLessAndEq_eq_lt
  have hswap : compare b a = (compare a b).swap := Std.OrientedCmp.eq_swap
  show _ ↔ ¬b < a
  rw [← hlt, hswap]
  cases compare a b <;> simp

namespace UnionOrder

open Expression (identifier?)

/-! ## The order of names -/

/-- The name `a` may stand before the name `b`: `undefined` is last, `null` is behind every
other name, and otherwise names are in ascending order. -/
def MayPrecede (a b : String) : Prop :=
  b = "undefined" ∨ a ≠ "undefined" ∧ (b = "null" ∨ a ≠ "null" ∧ a ≤ b)

instance : Std.TransCmp compareIdentifiers :=
  transCmp_on compareNames some

theorem compareIdentifiers_eq_eq_iff {a b : Identifier} :
    compareIdentifiers a b = .eq ↔ a.name = b.name := by
  constructor
  · exact name_eq_of_compareIdentifiers
  · intro h
    rw [compareIdentifiers, rank_congr h, h, Ordering.then_eq_eq]
    exact ⟨Std.ReflCmp.compare_self, Std.ReflCmp.compare_self⟩

theorem isLE_compareIdentifiers_iff {a b : Identifier} :
    (compareIdentifiers a b).isLE ↔ MayPrecede a.name b.name := by
  have hle : (compareIdentifiers a b).isLE
      ↔ rank a < rank b ∨ rank a = rank b ∧ a.name ≤ b.name := by
    rw [compareIdentifiers, Ordering.isLE_then_iff_or, Nat.compare_eq_lt, Nat.compare_eq_eq,
      isLE_compare_iff]
  have hrank : ∀ i : Identifier, rank i
      = if i.name = "undefined" then 2 else if i.name = "null" then 1 else 0 := by
    intro i
    simp only [rank, Identifier.isUndefined, Identifier.isNull, beq_iff_eq]
  rw [hle, hrank, hrank, MayPrecede]
  by_cases ha : a.name = "undefined"
  · by_cases hb : b.name = "undefined"
    · simp [ha, hb]
    · by_cases hb' : b.name = "null" <;> simp [ha, hb, hb']
  · by_cases hb : b.name = "undefined"
    · by_cases ha' : a.name = "null" <;> simp [ha, hb, ha']
    · by_cases ha' : a.name = "null" <;> by_cases hb' : b.name = "null" <;>
        simp [ha, hb, ha', hb']

/-! ## What stands at an index -/

section Places

variable {α : Type}

/-- A place takes the element whose number is that of the places before it, and what is
there already if the elements have run out; everything else stays. -/
theorem getElem?_refill {chosen : α → Bool} :
    ∀ {vs ss : List α} {i : Nat} {v : α}, vs[i]? = some v →
      (refill chosen ss vs)[i]?
        = some (if chosen v then (ss[(vs.take i).countP chosen]?).getD v else v) := by
  intro vs
  induction vs with
  | nil =>
    intro ss i v hv
    cases hv
  | cons w vs ih =>
    intro ss i v hv
    cases ss with
    | nil =>
      rw [refill_nil, hv]
      split <;> simp
    | cons s ss =>
      cases i with
      | zero =>
        rw [List.getElem?_cons_zero, Option.some.injEq] at hv
        subst hv
        rw [refill]
        split <;> rfl
      | succ i =>
        rw [List.getElem?_cons_succ] at hv
        -- one element is used up if `w` is at a place
        by_cases hw : chosen w
        · rw [refill, if_pos hw, List.getElem?_cons_succ, ih hv, List.take_succ_cons,
            List.countP_cons_of_pos hw, List.getElem?_cons_succ]
        · rw [refill_cons_of_neg hw, List.getElem?_cons_succ, ih hv, List.take_succ_cons,
            List.countP_cons_of_neg hw]

/-- With an element for each place, the places hold the elements in their order. -/
theorem filter_refill {chosen : α → Bool} :
    ∀ {vs ss : List α}, (∀ s ∈ ss, chosen s) → ss.length = vs.countP chosen →
      (refill chosen ss vs).filter chosen = ss := by
  intro vs
  induction vs with
  | nil =>
    intro ss _ hlength
    rw [List.length_eq_zero_iff.mp hlength]
    rfl
  | cons v vs ih =>
    intro ss hss hlength
    by_cases hv : chosen v
    · rw [List.countP_cons_of_pos hv] at hlength
      cases ss with
      | nil => exact absurd hlength (by simp)
      | cons s ss =>
        obtain ⟨hs, hrest⟩ := List.forall_mem_cons.mp hss
        rw [refill, if_pos hv, List.filter_cons_of_pos hs, ih hrest (Nat.succ.inj hlength)]
    · rw [List.countP_cons_of_neg hv] at hlength
      rw [refill_cons_of_neg hv, List.filter_cons_of_neg hv, ih hss hlength]

variable (name? : α → Option Identifier)

theorem filter_canonical (vs : List α) :
    (canonical name? vs).filter (fun v => (name? v).isSome) = sortedNames name? vs := by
  refine filter_refill (fun s hs => ?_) (length_sortedNames name? vs)
  rw [sortedNames_eq] at hs
  exact (List.mem_filter.mp ((List.mergeSort_perm _ _).mem_iff.mp hs)).2

/-- The names of a union in its canonical order are the names of the union, sorted. -/
theorem names_canonical (vs : List α) :
    (canonical name? vs).filterMap name?
      = (vs.filterMap name?).mergeSort fun a b => (compareIdentifiers a b).isLE := by
  have hfilter : ∀ us : List α,
      (us.filter fun v => (name? v).isSome).map (fun v => (name? v).getD (.reference ""))
        = us.filterMap name? := by
    intro us
    induction us with
    | nil => rfl
    | cons u us ih =>
      cases hu : name? u with
      | none => rw [List.filter_cons_of_neg (by simp [hu]), List.filterMap_cons_none hu, ih]
      | some i =>
        rw [List.filter_cons_of_pos (by simp [hu]), List.map_cons, List.filterMap_cons_some hu,
          hu, ih, Option.getD_some]
  rw [← hfilter, filter_canonical, sortedNames_eq, ← hfilter]
  exact List.map_mergeSort fun _ _ _ _ => rfl

/-- The sorted names do not run out before the places do. -/
theorem getElem?_canonical {vs : List α} {i : Nat} {v : α} (hv : vs[i]? = some v)
    (hname : (name? v).isSome) :
    ∃ s, (sortedNames name? vs)[(vs.take i).countP fun w => (name? w).isSome]? = some s
      ∧ (canonical name? vs)[i]? = some s := by
  have hsplit : vs = vs.take i ++ v :: vs.drop (i + 1) := by
    obtain ⟨hi, rfl⟩ := List.getElem?_eq_some_iff.mp hv
    rw [List.getElem_cons_drop, List.take_append_drop]
  have hlt : (vs.take i).countP (fun w => (name? w).isSome) < (sortedNames name? vs).length := by
    have hcount := congrArg (List.countP fun w => (name? w).isSome) hsplit
    rw [List.countP_append, List.countP_cons, if_pos hname] at hcount
    rw [length_sortedNames]
    omega
  refine ⟨_, List.getElem?_eq_getElem hlt, ?_⟩
  rw [canonical, getElem?_refill hv, if_pos hname, List.getElem?_eq_getElem hlt, Option.getD_some]

/-- A second time nothing is moved. -/
theorem canonical_canonical (vs : List α) :
    canonical name? (canonical name? vs) = canonical name? vs := by
  have htrans := transCmp_on compareNames name?
  refine canonical_eq_self ?_
  rw [filter_canonical, sortedNames_eq]
  exact pairwise_mergeSort_cmp (fun a b => compareNames (name? a) (name? b)) _

end Places

/-! ## Unions -/

/-- The variants `ws` are the variants `vs` in the canonical order. -/
structure IsCanonical (vs ws : List Expression) : Prop where
  perm : ws.Perm vs
  others_stay : ∀ (i : Nat) (v : Expression), vs[i]? = some v → v.identifier? = none →
    ws[i]? = some v
  ascending : (ws.filterMap identifier?).Pairwise fun a b => MayPrecede a.name b.name
  stable : ∀ name : String, (ws.filterMap identifier?).filter (fun a => a.name = name)
    = (vs.filterMap identifier?).filter fun a => a.name = name

theorem isCanonical_canonical (vs : List Expression) :
    IsCanonical vs (canonical identifier? vs) where
  perm := canonical_perm identifier? vs
  others_stay i v hv hother := by
    rw [canonical, getElem?_refill hv, hother]
    rfl
  ascending := by
    rw [names_canonical]
    exact (mergeSort_stableSort compareIdentifiers _).ascending.imp
      isLE_compareIdentifiers_iff.mp
  stable name := by
    have hsame := (mergeSort_stableSort compareIdentifiers (vs.filterMap identifier?)).stable
      (.reference name)
    have heq : (fun a => (compareIdentifiers (.reference name) a).isEq)
        = fun a : Identifier => decide (a.name = name) := by
      funext a
      rw [Bool.eq_iff_iff, Ordering.isEq_iff_eq_eq, compareIdentifiers_eq_eq_iff,
        decide_eq_true_iff]
      exact eq_comm
    rw [heq] at hsame
    rw [names_canonical, hsame]

/-- The variant, if it is a name, by its spelling alone. -/
def spelled : Expression → Expression
  | .identifier i => .reference i.name
  | e => e

theorem frame_map_spelled (vs : List Expression) :
    frame identifier? (vs.map spelled) = frame identifier? vs := by
  rw [frame, frame, List.map_map]
  apply List.map_congr_left
  intro v _
  cases v <;> rfl

theorem filter_map_spelled (vs : List Expression) :
    (vs.map spelled).filter (fun v => v.identifier?.isSome)
      = ((vs.filterMap identifier?).map Identifier.name).map Expression.reference := by
  induction vs with
  | nil => rfl
  | cons v vs ih =>
    cases v with
    | identifier i => exact congrArg (List.cons (Expression.reference i.name)) ih
    | _ => exact ih

/-- Lists with as many names, and with all else at the same indices, have the same frame. -/
theorem frame_eq_of_others :
    ∀ {vs ws : List Expression},
      (∀ (i : Nat) (v : Expression), v.identifier? = none → (vs[i]? = some v ↔ ws[i]? = some v)) →
      vs.countP (·.identifier?.isSome) = ws.countP (·.identifier?.isSome) →
      frame identifier? vs = frame identifier? ws := by
  intro vs
  induction vs with
  | nil =>
    intro ws hothers hcount
    cases ws with
    | nil => rfl
    | cons w ws =>
      cases hw : w.identifier? with
      | none => simpa using hothers 0 w hw
      | some i => simp [hw] at hcount
  | cons v vs ih =>
    intro ws hothers hcount
    cases ws with
    | nil =>
      cases hv : v.identifier? with
      | none => simpa using hothers 0 v hv
      | some i => simp [hv] at hcount
    | cons w ws =>
      have hrest := fun (i : Nat) (u : Expression) (hu : u.identifier? = none) =>
        hothers (i + 1) u hu
      simp only [List.getElem?_cons_succ] at hrest
      cases hv : v.identifier? with
      | none =>
        -- what is not a name stands at the head of both lists
        have hhead : w = v := by simpa using (hothers 0 v hv).mp rfl
        subst hhead
        rw [List.countP_cons_of_neg (by simp [hv]), List.countP_cons_of_neg (by simp [hv])]
          at hcount
        exact congrArg (List.cons _) (ih hrest hcount)
      | some i =>
        cases hw : w.identifier? with
        | none =>
          have hhead : v = w := by simpa using (hothers 0 w hw).mpr rfl
          rw [hhead, hw] at hv
          cases hv
        | some j =>
          rw [List.countP_cons_of_pos (by simp [hv]), List.countP_cons_of_pos (by simp [hw])]
            at hcount
          have htail := ih hrest (Nat.succ.inj hcount)
          simpa [frame, hv, hw] using htail

/-- Which names there are and where the other variants stand decides the order. -/
theorem map_spelled_canonical {vs ws : List Expression}
    (hothers : ∀ (i : Nat) (v : Expression), v.identifier? = none →
      (vs[i]? = some v ↔ ws[i]? = some v))
    (hnames : ((vs.filterMap identifier?).map Identifier.name).Perm
      ((ws.filterMap identifier?).map Identifier.name)) :
    (canonical identifier? vs).map spelled = (canonical identifier? ws).map spelled := by
  have hframe : frame identifier? vs = frame identifier? ws := by
    refine frame_eq_of_others hothers ?_
    have hlength := hnames.length_eq
    rw [List.length_map, List.length_map, List.length_filterMap_eq_countP,
      List.length_filterMap_eq_countP] at hlength
    exact hlength
  have hspelled : ∀ v : Expression,
      (identifier? (spelled v)).map Identifier.name = (identifier? v).map Identifier.name := by
    intro v
    cases v <;> rfl
  have htrans := transCmp_on compareNames identifier?
  rw [map_canonical identifier? identifier? spelled hspelled,
    map_canonical identifier? identifier? spelled hspelled]
  refine canonical_eq_of_frame ?_ ?_
  · rw [frame_map_spelled, frame_map_spelled, hframe]
  · rw [sortedNames_eq, sortedNames_eq, filter_map_spelled, filter_map_spelled]
    refine mergeSort_eq_of_perm (hnames.map _) ?_
    intro a ha b hb hsame
    obtain ⟨n, _, rfl⟩ := List.mem_map.mp ha
    obtain ⟨m, _, rfl⟩ := List.mem_map.mp hb
    have heq : n = m := name_eq_of_compareIdentifiers hsame
    rw [heq]

/-- **Names are sorted in place.** The variants come out in the canonical order, and there
is a sorted name for every place that held one. Putting them in order once more changes
nothing, and the names that there are and the places of all else leave nothing open but the
kinds of names. -/
theorem canonical_places (vs : List Expression) :
    IsCanonical vs (canonical identifier? vs)
    ∧ (∀ (i : Nat) (v : Expression), vs[i]? = some v → v.identifier?.isSome →
        ∃ s, (sortedNames identifier? vs)[(vs.take i).countP (·.identifier?.isSome)]? = some s
          ∧ (canonical identifier? vs)[i]? = some s)
    ∧ canonical identifier? (canonical identifier? vs) = canonical identifier? vs
    ∧ ∀ ws : List Expression,
        (∀ (i : Nat) (v : Expression), v.identifier? = none →
          (vs[i]? = some v ↔ ws[i]? = some v)) →
        ((vs.filterMap identifier?).map Identifier.name).Perm
          ((ws.filterMap identifier?).map Identifier.name) →
        (canonical identifier? vs).map spelled = (canonical identifier? ws).map spelled :=
  ⟨isCanonical_canonical vs, fun _ _ => getElem?_canonical identifier?,
    canonical_canonical identifier? vs, fun _ => map_spelled_canonical⟩

/-- Two names change places around a literal, and one of them is of another kind. -/
theorem canonical_places_dates :
    (canonical identifier? [.named "Time", .literal (.string "x"), .named "Date"]).map spelled
      = (canonical identifier? [.reference "Date", .literal (.string "x"), .named "Time"]).map
          spelled := by
  obtain ⟨_, _, _, hsame⟩ :=
    canonical_places [.named "Time", .literal (.string "x"), .named "Date"]
  refine hsame _ (fun i v hv => ?_) (.swap _ _ _)
  match i with
  | 1 => exact Iff.rfl
  | n + 3 => exact Iff.rfl
  -- names stand at the other indices, and `v` is none
  | 0 | 2 =>
    constructor
    · intro h
      cases h
      cases hv
    · intro h
      cases h
      cases hv

end UnionOrder

end SchemaTypes
