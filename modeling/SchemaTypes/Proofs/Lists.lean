import Mathlib.Data.List.Basic
import Mathlib.Data.List.Forall2

/-!
# Sorting, pairing and traversing

What the rest needs to know about lists. The main fact is about sorting: tables,
properties and names are put in order before they are written, and

> `mergeSort_eq_of_perm`: the order that they came in makes no difference, as long as
> different elements are never in the same place of the order.
-/

namespace SchemaTypes

theorem isLE_or_isLE {α : Type} (cmp : α → α → Ordering) [Std.TransCmp cmp] (a b : α) :
    (cmp a b).isLE || (cmp b a).isLE := by
  have hswap : cmp b a = (cmp a b).swap := Std.OrientedCmp.eq_swap
  rw [hswap]
  cases cmp a b <;> rfl

theorem pairwise_mergeSort_cmp {α : Type} (cmp : α → α → Ordering) [Std.TransCmp cmp]
    (l : List α) :
    (l.mergeSort fun a b => (cmp a b).isLE).Pairwise fun a b => (cmp a b).isLE :=
  List.pairwise_mergeSort (fun _ _ _ => Std.TransCmp.isLE_trans) (isLE_or_isLE cmp) l

theorem mergeSort_pair {α : Type} (le : α → α → Bool) (a b : α) :
    [a, b].mergeSort le = if le a b then [a, b] else [b, a] := by
  simp [List.mergeSort, List.MergeSort.Internal.splitInTwo, List.merge]

/-- The result of sorting depends only on what is sorted, provided that different
elements are never in the same place of the order. -/
theorem mergeSort_eq_of_perm {α : Type} {cmp : α → α → Ordering} [Std.TransCmp cmp]
    {l l' : List α} (hperm : l.Perm l') (hsame : ∀ a ∈ l, ∀ b ∈ l, cmp a b = .eq → a = b) :
    l.mergeSort (fun a b => (cmp a b).isLE) = l'.mergeSort (fun a b => (cmp a b).isLE) := by
  have hleft := List.mergeSort_perm l fun a b => (cmp a b).isLE
  have hright := List.mergeSort_perm l' fun a b => (cmp a b).isLE
  -- both results are sorted and permutations of each other, and in an order with no ties
  -- there is only one such list
  refine List.Perm.eq_of_pairwise ?_ (pairwise_mergeSort_cmp cmp l)
    (pairwise_mergeSort_cmp cmp l') (hleft.trans (hperm.trans hright.symm))
  intro a b ha hb hab hba
  refine hsame a (hleft.mem_iff.mp ha) b ?_ (Std.OrientedCmp.isLE_antisymm hab hba)
  exact hperm.mem_iff.mpr (hright.mem_iff.mp hb)

/-- An order of what elements are mapped to is an order of the elements. -/
theorem transCmp_on {α β : Type} (cmp : β → β → Ordering) [Std.TransCmp cmp] (f : α → β) :
    Std.TransCmp fun a b => cmp (f a) (f b) where
  eq_swap := Std.OrientedCmp.eq_swap
  isLE_trans := Std.TransCmp.isLE_trans

/-- What is done with a list element by element is done with each element. -/
theorem eq_map_of_cons {α β : Type} {f : α → β} {g : List α → List β} (hnil : g [] = [])
    (hcons : ∀ a l, g (a :: l) = f a :: g l) (l : List α) : g l = l.map f := by
  induction l with
  | nil => exact hnil
  | cons a l ih => rw [hcons, ih, List.map_cons]

theorem zip_map_self {α β : Type} (f : α → β) (l : List α) :
    l.zip (l.map f) = l.map fun a => (a, f a) := by
  have h : (l.map id).zip (l.map f) = l.map fun a => (a, f a) := List.zip_map'
  rw [List.map_id] at h
  exact h

theorem bind_eq_ok_iff {α β ε : Type} {x : Except ε α} {f : α → Except ε β} {b : β} :
    (x >>= f) = .ok b ↔ ∃ a, x = .ok a ∧ f a = .ok b := by
  cases x with
  | error e =>
    constructor
    · intro h
      cases h
    · intro h
      obtain ⟨a, ha, _⟩ := h
      cases ha
  | ok a =>
    constructor
    · intro h
      exact ⟨a, rfl, h⟩
    · intro h
      obtain ⟨a', ha, h⟩ := h
      rw [Except.ok.inj ha]
      exact h

/-- A traversal in which every step succeeds is a map. -/
theorem mapM_eq_ok_map {α β ε : Type} {f : α → Except ε β} {g : α → β} {l : List α}
    (h : ∀ a ∈ l, f a = .ok (g a)) : l.mapM f = .ok (l.map g) := by
  induction l with
  | nil => rfl
  | cons a l ih =>
    have hrest := ih fun b hb => h b (List.mem_cons_of_mem _ hb)
    rw [List.mapM_cons, h a List.mem_cons_self, hrest]
    rfl

/-- What was made of each element is taken back element by element. -/
theorem mapM_map_eq_ok {α β ε : Type} {f : β → Except ε α} {g : α → β} {l : List α}
    (h : ∀ a ∈ l, f (g a) = .ok a) : (l.map g).mapM f = .ok l := by
  have hback := mapM_eq_ok_map (f := f ∘ g) (g := id) h
  rw [List.map_id] at hback
  rw [List.mapM_map]
  exact hback

theorem lookup_map_snd {α β : Type} (f : α → β) (name : String) (l : List (String × α)) :
    (l.map fun entry => (entry.1, f entry.2)).lookup name = (l.lookup name).map f := by
  induction l with
  | nil => rfl
  | cons entry rest ih =>
    obtain ⟨key, value⟩ := entry
    rw [List.map_cons, List.lookup_cons, List.lookup_cons, ih]
    cases name == key <;> rfl

theorem exists_mem_of_forall₂ {α β : Type} {R : α → β → Prop} {l : List α} {l' : List β}
    (h : List.Forall₂ R l l') {a : α} (ha : a ∈ l) : ∃ b ∈ l', R a b := by
  induction h with
  | nil => cases ha
  | cons hhead _ ih =>
    rcases List.mem_cons.mp ha with rfl | ha
    · exact ⟨_, List.mem_cons_self, hhead⟩
    · obtain ⟨b, hb, hab⟩ := ih ha
      exact ⟨b, List.mem_cons_of_mem _ hb, hab⟩

theorem nodup_eraseDups (names : List String) : names.eraseDups.Nodup := by
  match names with
  | [] => exact List.nodup_nil
  | name :: rest =>
    rw [List.eraseDups_cons, List.nodup_cons]
    refine ⟨fun hmem => ?_, nodup_eraseDups _⟩
    have hkept := (List.mem_filter.mp (List.mem_eraseDups.mp hmem)).2
    simp at hkept
termination_by names.length
decreasing_by exact Nat.lt_succ_of_le (List.length_filter_le _ _)

theorem eraseDups_sublist (names : List String) : names.eraseDups.Sublist names := by
  match names with
  | [] => exact List.Sublist.refl _
  | name :: rest =>
    rw [List.eraseDups_cons]
    exact ((eraseDups_sublist _).trans List.filter_sublist).cons_cons name
termination_by names.length
decreasing_by exact Nat.lt_succ_of_le (List.length_filter_le _ _)

/-- Every element has the property, given the elements before it. -/
def ForallAfter {α : Type} (P : List α → α → Prop) (l : List α) : Prop :=
  ∀ before a after, l = before ++ a :: after → P before a

namespace ForallAfter

variable {α β : Type} {P : List α → α → Prop} {l l' : List α}

theorem of_forall (h : ∀ a ∈ l, ∀ before, P before a) : ForallAfter P l := by
  intro before a after hsplit
  refine h a ?_ before
  rw [hsplit]
  exact List.mem_append_right before List.mem_cons_self

theorem cons_iff {a : α} :
    ForallAfter P (a :: l) ↔ P [] a ∧ ForallAfter (fun before => P (a :: before)) l := by
  constructor
  · intro h
    refine ⟨h [] a l rfl, fun before b after hsplit => h (a :: before) b after ?_⟩
    rw [hsplit, List.cons_append]
  · intro h before b after hsplit
    obtain ⟨hhead, htail⟩ := h
    cases before with
    | nil =>
      obtain ⟨rfl, _⟩ := List.cons.inj hsplit
      exact hhead
    | cons a' before =>
      obtain ⟨rfl, hrest⟩ := List.cons.inj hsplit
      exact htail before b after hrest

theorem append_iff :
    ForallAfter P (l ++ l') ↔
      ForallAfter P l ∧ ForallAfter (fun before a => P (l ++ before) a) l' := by
  induction l generalizing P with
  | nil => exact ⟨fun h => ⟨of_forall (by simp), h⟩, fun h => h.2⟩
  | cons a l ih =>
    rw [List.cons_append, cons_iff, cons_iff, ih, and_assoc]
    rfl

theorem map_iff (f : β → α) {l : List β} :
    ForallAfter P (l.map f) ↔ ForallAfter (fun before b => P (before.map f) (f b)) l := by
  induction l generalizing P with
  | nil => exact ⟨fun _ => of_forall (by simp), fun _ => of_forall (by simp)⟩
  | cons b l ih =>
    rw [List.map_cons, cons_iff, cons_iff, ih]
    rfl

end ForallAfter

end SchemaTypes
