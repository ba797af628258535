import SchemaTypes.Proofs.Lists

/-!
# Sorting keeps what it need not change

Tables are put in order by schema and name, and two tables may have both in common. What
happens to them then is a question of how the sort goes about it. `StableSort` says it
without the sort: the result is in ascending order, and elements of one place in the order
come as they came before.

> `mergeSort_stableSort`: so it is with the sort that is used.

> `mergeSort_sublist`: leaving elements out before sorting leaves them out afterwards, and
> moves nothing else.
-/

namespace SchemaTypes

variable {α : Type}

/-- The elements of the list in ascending order, where those that have the same place in
the order stay as they were. -/
structure StableSort (cmp : α → α → Ordering) (l sorted : List α) : Prop where
  perm : sorted.Perm l
  ascending : sorted.Pairwise fun a b => (cmp a b).isLE
  stable : ∀ a, sorted.filter (fun b => (cmp a b).isEq) = l.filter fun b => (cmp a b).isEq

/-- Where an element stands divides the others into those that it comes after and those
that it does not. -/
theorem append_eq_filter {cmp : α → α → Ordering} {a : α} {before after : List α}
    (hsorted : (before ++ a :: after).Pairwise fun a b => (cmp a b).isLE)
    (hbefore : ∀ b ∈ before, !(cmp a b).isLE) :
    before = (before ++ after).filter (fun b => !(cmp a b).isLE)
      ∧ after = (before ++ after).filter fun b => (cmp a b).isLE := by
  have hafter := (List.pairwise_cons.mp (List.pairwise_append.mp hsorted).2.1).1
  rw [List.filter_append, List.filter_append, List.filter_eq_self.mpr hbefore,
    List.filter_eq_self.mpr hafter]
  constructor
  · rw [List.filter_eq_nil_iff.mpr fun b hb => by rw [hafter b hb]; simp, List.append_nil]
  · rw [List.filter_eq_nil_iff.mpr fun b hb => by simpa using hbefore b hb, List.nil_append]

section Order

variable (cmp : α → α → Ordering) [Std.TransCmp cmp]

/-- Elements that have the place of `a` may come in any order among each other. -/
theorem pairwise_filter_isEq (a : α) (l : List α) :
    (l.filter fun b => (cmp a b).isEq).Pairwise fun b c => (cmp b c).isLE := by
  refine List.pairwise_of_forall_mem_list fun b hb c hc => ?_
  have hab : cmp a b = .eq := Ordering.isEq_iff_eq_eq.mp (List.mem_filter.mp hb).2
  have hac : cmp a c = .eq := Ordering.isEq_iff_eq_eq.mp (List.mem_filter.mp hc).2
  have hba : cmp b a = .eq := Std.OrientedCmp.eq_symm hab
  have hbc : cmp b c = .eq := Std.TransCmp.eq_trans hba hac
  rw [hbc]
  rfl

theorem mergeSort_stableSort (l : List α) :
    StableSort cmp l (l.mergeSort fun a b => (cmp a b).isLE) where
  perm := List.mergeSort_perm _ _
  ascending := pairwise_mergeSort_cmp cmp l
  stable a := by
    -- the elements of one place are in order already, so the sort leaves them in it
    have hkept : (l.filter fun b => (cmp a b).isEq).Sublist
        (l.mergeSort fun a b => (cmp a b).isLE) :=
      List.sublist_mergeSort (fun _ _ _ => Std.TransCmp.isLE_trans) (isLE_or_isLE cmp)
        (pairwise_filter_isEq cmp a l) List.filter_sublist
    have hsublist := hkept.filter fun b => (cmp a b).isEq
    rw [List.filter_filter] at hsublist
    simp only [Bool.and_self] at hsublist
    have hperm := (List.mergeSort_perm l fun a b => (cmp a b).isLE).filter
      fun b => (cmp a b).isEq
    exact (hsublist.eq_of_length hperm.length_eq.symm).symm

/-- What is left out of a list is left out of the sorted list, and the rest stays as it is. -/
theorem mergeSort_sublist {l l' : List α} (h : l.Sublist l') :
    (l.mergeSort fun a b => (cmp a b).isLE).Sublist
      (l'.mergeSort fun a b => (cmp a b).isLE) := by
  have hcons := @List.mergeSort_cons α (fun a b => (cmp a b).isLE)
    (fun _ _ _ => Std.TransCmp.isLE_trans) (isLE_or_isLE cmp)
  induction h with
  | slnil => exact List.Sublist.refl _
  | @cons l l' a _ ih =>
    obtain ⟨before, after, hwith, hwithout, _⟩ := hcons a l'
    rw [hwith]
    rw [hwithout] at ih
    exact ih.trans ((List.sublist_cons_self a after).append_left before)
  | @cons_cons l l' a _ ih =>
    -- `a` divides both sorted lists in the same way, so each part has the other as a sublist
    obtain ⟨before, after, hwith, hwithout, hbefore⟩ := hcons a l
    obtain ⟨before', after', hwith', hwithout', hbefore'⟩ := hcons a l'
    have hsorted := pairwise_mergeSort_cmp cmp (a :: l)
    have hsorted' := pairwise_mergeSort_cmp cmp (a :: l')
    rw [hwith] at hsorted ⊢
    rw [hwith'] at hsorted' ⊢
    rw [hwithout, hwithout'] at ih
    obtain ⟨hfront, hback⟩ := append_eq_filter hsorted hbefore
    obtain ⟨hfront', hback'⟩ := append_eq_filter hsorted' hbefore'
    have hfronts := ih.filter fun b => !(cmp a b).isLE
    have hbacks := ih.filter fun b => (cmp a b).isLE
    rw [← hfront, ← hfront'] at hfronts
    rw [← hback, ← hback'] at hbacks
    exact hfronts.append (hbacks.cons_cons a)

end Order

theorem lt_of_isLE_compare {a b : String} (h : (compare a b).isLE) (hne : a ≠ b) : a < b := by
  have hlt : compare a b = .lt := by
    cases hcompare : compare a b with
    | lt => rfl
    | eq => exact absurd (Std.LawfulEqCmp.eq_of_compare hcompare) hne
    | gt =>
      rw [hcompare] at h
      cases h
  exact compareOfLessAndEq_eq_lt.mp hlt

/-- Names in ascending order of which no two are the same are in strictly ascending order. -/
theorem pairwise_lt_of_nodup {names : List String}
    (hsorted : names.Pairwise fun a b => (compare a b).isLE) (hnodup : names.Nodup) :
    names.Pairwise (· < ·) :=
  (hsorted.and hnodup).imp fun hpair => lt_of_isLE_compare hpair.1 hpair.2

end SchemaTypes
