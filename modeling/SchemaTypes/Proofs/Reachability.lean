import SchemaTypes.Reach

/-!
# The search for needed names is bounded and exact

`Catalog.needs` follows pending names until none is left. Which of the pending names is
taken next is an accident of the data structure that holds them, so this file looks at
the search as a relation, `Search.Step`, that may take any of them. Two facts hold of
every run of it:

> `Search.Steps.length_le`: a run takes at most one step for each name that it starts
> with and one for each reference in a definition, circles or not.

> `Search.Steps.exact`: a run that has nothing left to do has found exactly the names in
> `Needed`, the least set that has the roots and is closed under what definitions
> refer to.

The first follows from the steps that a search still owes, `Search.cost`, of which each
step pays at least one. The second follows from the invariant `Search.Inv`, which says that
everything found or pending is needed and that everything found has its references found
or pending. `Catalog.follow` is one such run, which ends when nothing is pending
(`follow_steps`), and so `needs_exact` describes its result.
-/

namespace SchemaTypes

/-- The names that are needed for these roots: the roots, and whatever is referred to by
the definition of a needed name that is not imported, up to the definition's own
parameters. -/
inductive Needed (c : Catalog) (root : String → Prop) : String → Prop
  | root {name : String} (h : root name) : Needed c root name
  | body {name reference : String} {body : AliasBody} (h : Needed c root name)
      (himport : c.moduleOf? name = none) (hbody : c.definition? name = some body)
      (href : reference ∈ body.expression.references) (hparam : reference ∉ body.params) :
      Needed c root reference

/-- More roots need no less. -/
theorem Needed.mono {c : Catalog} {root root' : String → Prop}
    (hroots : ∀ name, root name → root' name) {name : String} (h : Needed c root name) :
    Needed c root' name := by
  induction h with
  | root hroot => exact .root (hroots _ hroot)
  | body _ himport hbody href hparam ih => exact .body ih himport hbody href hparam

theorem AliasBody.mem_freeReferences {body : AliasBody} {name : String} :
    name ∈ body.freeReferences ↔ name ∈ body.expression.references ∧ name ∉ body.params := by
  rw [AliasBody.freeReferences, List.mem_filter, Bool.not_eq_true', List.contains_eq_mem,
    decide_eq_false_iff_not]

theorem mem_addName {name other : String} {names : List String} :
    other ∈ addName name names ↔ other = name ∨ other ∈ names := by
  unfold addName
  split
  · next h =>
    have hmem : name ∈ names := List.contains_iff_mem.mp h
    constructor
    · exact Or.inr
    · intro h
      rcases h with rfl | hother
      · exact hmem
      · exact hother
  · exact List.mem_cons

theorem nodup_addName {name : String} {names : List String} (h : names.Nodup) :
    (addName name names).Nodup := by
  unfold addName
  split
  · exact h
  · next hnew =>
    exact List.nodup_cons.mpr ⟨fun hmem => hnew (List.contains_iff_mem.mpr hmem), h⟩

/-! ## Searches and their steps -/

/-- A search: what it has found, and the names that it has still to follow. -/
structure Search where
  found : Needs
  pending : List String

namespace Search

/-- A step settles one of the pending names, whichever it is. -/
inductive Step (c : Catalog) : Search → Search → Prop
  | imported {found : Needs} {pending rest : List String} {name : String}
      (hpick : pending.Perm (name :: rest)) (himport : (c.moduleOf? name).isSome) :
      Step c ⟨found, pending⟩ ⟨{ found with imports := addName name found.imports }, rest⟩
  | skipped {found : Needs} {pending rest : List String} {name : String}
      (hpick : pending.Perm (name :: rest)) (himport : c.moduleOf? name = none)
      (hskip : c.definition? name = none ∨ name ∈ found.definitions) :
      Step c ⟨found, pending⟩ ⟨found, rest⟩
  | defined {found : Needs} {pending rest : List String} {name : String} {body : AliasBody}
      (hpick : pending.Perm (name :: rest)) (himport : c.moduleOf? name = none)
      (hbody : c.definition? name = some body) (hnew : name ∉ found.definitions) :
      Step c ⟨found, pending⟩
        ⟨{ found with definitions := name :: found.definitions }, body.freeReferences ++ rest⟩

/-- So many steps in a row. -/
inductive Steps (c : Catalog) : Nat → Search → Search → Prop
  | refl (s : Search) : Steps c 0 s s
  | cons {n : Nat} {s t u : Search} (first : Step c s t) (rest : Steps c n t u) :
      Steps c (n + 1) s u

/-! ## Every run is bounded -/

/-- The references in the definitions that have not been followed. -/
def unfollowed (followed : List String) (entries : List (String × AliasBody)) : List String :=
  entries.flatMap fun entry => if entry.1 ∈ followed then [] else entry.2.freeReferences

/-- How many steps the search can still take. -/
def cost (c : Catalog) (s : Search) : Nat :=
  s.pending.length + (unfollowed s.found.definitions c.definitions.entries).length

theorem unfollowed_cons_le (name : String) (followed : List String)
    (entries : List (String × AliasBody)) :
    (unfollowed (name :: followed) entries).length ≤ (unfollowed followed entries).length := by
  induction entries with
  | nil => exact Nat.le_refl _
  | cons entry rest ih =>
    unfold unfollowed at ih ⊢
    rw [List.flatMap_cons, List.flatMap_cons, List.length_append, List.length_append]
    by_cases hold : entry.1 ∈ followed
    · rw [if_pos hold, if_pos (List.mem_cons_of_mem _ hold)]
      omega
    · rw [if_neg hold]
      split
      · rw [List.length_nil]
        omega
      · omega

/-- Following a definition for the first time pays for all of its references. -/
theorem unfollowed_cons_add_le {name : String} {followed : List String} {body : AliasBody} :
    ∀ {entries : List (String × AliasBody)}, entries.lookup name = some body →
      name ∉ followed →
      (unfollowed (name :: followed) entries).length + body.freeReferences.length
        ≤ (unfollowed followed entries).length := by
  intro entries
  induction entries with
  | nil => intro hfind; simp at hfind
  | cons entry rest ih =>
    intro hfind hnew
    obtain ⟨key, value⟩ := entry
    have hrest := unfollowed_cons_le name followed rest
    unfold unfollowed at hrest ih ⊢
    rw [List.flatMap_cons, List.flatMap_cons, List.length_append, List.length_append]
    by_cases hkey : name = key
    · subst hkey
      rw [List.lookup_cons_self, Option.some.injEq] at hfind
      subst hfind
      rw [if_pos (List.mem_cons_self ..), if_neg hnew]
      show 0 + _ + value.freeReferences.length ≤ value.freeReferences.length + _
      omega
    · rw [List.lookup_cons, beq_eq_false_iff_ne.mpr hkey] at hfind
      have hpaid := ih hfind hnew
      have hsame : (key ∈ name :: followed) ↔ key ∈ followed := by
        rw [List.mem_cons]
        exact ⟨fun h => h.resolve_left fun e => hkey e.symm, Or.inr⟩
      simp only [hsame]
      omega

theorem Step.cost_lt {c : Catalog} {s t : Search} (h : Step c s t) : t.cost c < s.cost c := by
  cases h with
  | imported hpick _ =>
    have hlen := hpick.length_eq
    rw [List.length_cons] at hlen
    simp only [cost]
    omega
  | skipped hpick _ _ =>
    have hlen := hpick.length_eq
    rw [List.length_cons] at hlen
    simp only [cost]
    omega
  | defined hpick _ hbody hnew =>
    -- the references that become pending are no longer owed
    have hlen := hpick.length_eq
    have hpaid := unfollowed_cons_add_le hbody hnew
    rw [List.length_cons] at hlen
    simp only [cost, List.length_append]
    omega

theorem Steps.add_cost_le {c : Catalog} {n : Nat} {s t : Search} (h : Steps c n s t) :
    n + t.cost c ≤ s.cost c := by
  induction h with
  | refl s => exact Nat.le_of_eq (Nat.zero_add _)
  | cons first _ ih =>
    have hlt := first.cost_lt
    omega

end Search

/-- The number of references in all definitions. -/
def Catalog.referenceCount (c : Catalog) : Nat :=
  (c.definitions.entries.flatMap fun entry => entry.2.freeReferences).length

/-- **No search runs on.** In whatever order it takes the pending names, a search takes at
most one step for each name that it starts with and one for each reference in a
definition. -/
theorem Search.Steps.length_le {c : Catalog} {n : Nat} {names : List String} {t : Search}
    (h : Search.Steps c n ⟨{}, names⟩ t) : n ≤ names.length + c.referenceCount := by
  have hcost := h.add_cost_le
  have hstart : (Search.unfollowed [] c.definitions.entries).length = c.referenceCount := by
    simp only [Search.unfollowed, Catalog.referenceCount, List.not_mem_nil, if_false]
  simp only [Search.cost, hstart] at hcost
  omega

/-! ## Every finished run is exact -/

/-- What has been found is what is needed, each name once. -/
structure Needs.Exact (c : Catalog) (root : String → Prop) (found : Needs) : Prop where
  nodup_definitions : found.definitions.Nodup
  nodup_imports : found.imports.Nodup
  mem_definitions : ∀ name, name ∈ found.definitions ↔
    Needed c root name ∧ c.moduleOf? name = none ∧ (c.definition? name).isSome
  mem_imports : ∀ name, name ∈ found.imports ↔
    Needed c root name ∧ (c.moduleOf? name).isSome

namespace Search

/-- The name has been found, is going to be followed, or needs nothing. -/
def Settled (c : Catalog) (s : Search) (name : String) : Prop :=
  name ∈ s.pending ∨ name ∈ s.found.imports ∨ name ∈ s.found.definitions
    ∨ c.moduleOf? name = none ∧ c.definition? name = none

/-- The invariant of a search: what it has is needed and found only once, and no root
and no reference of a definition that it has found is forgotten. -/
structure Inv (c : Catalog) (root : String → Prop) (s : Search) : Prop where
  pending : ∀ name ∈ s.pending, Needed c root name
  definitions : ∀ name ∈ s.found.definitions,
    Needed c root name ∧ c.moduleOf? name = none ∧ (c.definition? name).isSome
  imports : ∀ name ∈ s.found.imports, Needed c root name ∧ (c.moduleOf? name).isSome
  nodup_definitions : s.found.definitions.Nodup
  nodup_imports : s.found.imports.Nodup
  roots : ∀ name, root name → s.Settled c name
  followed : ∀ name ∈ s.found.definitions, ∀ body, c.definition? name = some body →
    ∀ reference ∈ body.freeReferences, s.Settled c reference

theorem inv_start (c : Catalog) (names : List String) :
    Inv c (fun name => name ∈ names) ⟨{}, names⟩ where
  pending := fun _ h => .root h
  definitions := fun _ h => absurd h List.not_mem_nil
  imports := fun _ h => absurd h List.not_mem_nil
  nodup_definitions := List.nodup_nil
  nodup_imports := List.nodup_nil
  roots := fun _ h => Or.inl h
  followed := fun _ h => absurd h List.not_mem_nil

/-- A step forgets nothing: what was settled before it is settled after it. -/
theorem Step.settled {c : Catalog} {s t : Search} (h : Step c s t) {other : String}
    (hother : s.Settled c other) : t.Settled c other := by
  cases h with
  | imported hpick _ =>
    rcases hother with hpending | himports | hrest
    · rcases List.mem_cons.mp (hpick.mem_iff.mp hpending) with rfl | hrest
      · exact Or.inr (Or.inl (mem_addName.mpr (Or.inl rfl)))
      · exact Or.inl hrest
    · exact Or.inr (Or.inl (mem_addName.mpr (Or.inr himports)))
    · exact Or.inr (Or.inr hrest)
  | skipped hpick himport hskip =>
    rcases hother with hpending | hfound
    · rcases List.mem_cons.mp (hpick.mem_iff.mp hpending) with rfl | hrest
      · rcases hskip with hnone | hseen
        · exact Or.inr (Or.inr (Or.inr ⟨himport, hnone⟩))
        · exact Or.inr (Or.inr (Or.inl hseen))
      · exact Or.inl hrest
    · exact Or.inr hfound
  | defined hpick _ _ _ =>
    rcases hother with hpending | himports | hdefinitions | hunknown
    · rcases List.mem_cons.mp (hpick.mem_iff.mp hpending) with rfl | hrest
      · exact Or.inr (Or.inr (Or.inl (List.mem_cons_self ..)))
      · exact Or.inl (List.mem_append_right _ hrest)
    · exact Or.inr (Or.inl himports)
    · exact Or.inr (Or.inr (Or.inl (List.mem_cons_of_mem _ hdefinitions)))
    · exact Or.inr (Or.inr (Or.inr hunknown))

/-- The pending name that a step settles is needed. -/
private theorem Inv.needed_of_pick {c : Catalog} {root : String → Prop} {found : Needs}
    {pending rest : List String} {name : String} (h : Inv c root ⟨found, pending⟩)
    (hpick : pending.Perm (name :: rest)) :
    Needed c root name ∧ ∀ other ∈ rest, Needed c root other := by
  constructor
  · exact h.pending name (hpick.mem_iff.mpr (List.mem_cons_self ..))
  · intro other hother
    exact h.pending other (hpick.mem_iff.mpr (List.mem_cons_of_mem _ hother))

/-- One step preserves the invariant. -/
theorem Step.inv {c : Catalog} {root : String → Prop} {s t : Search} (hstep : Step c s t)
    (h : Inv c root s) : Inv c root t := by
  have hroots : ∀ name, root name → t.Settled c name :=
    fun name hname => hstep.settled (h.roots name hname)
  have hfollowed : ∀ name ∈ s.found.definitions, ∀ body, c.definition? name = some body →
      ∀ reference ∈ body.freeReferences, t.Settled c reference :=
    fun name hname body hbody reference href =>
      hstep.settled (h.followed name hname body hbody reference href)
  -- nothing is forgotten; what is left is to look at the name that the step settles
  cases hstep with
  | imported hpick himport =>
    obtain ⟨hname, hrest⟩ := h.needed_of_pick hpick
    refine ⟨hrest, h.definitions, ?_, h.nodup_definitions, nodup_addName h.nodup_imports,
      hroots, hfollowed⟩
    intro other hother
    rcases mem_addName.mp hother with rfl | hold
    · exact ⟨hname, himport⟩
    · exact h.imports other hold
  | skipped hpick _ _ =>
    obtain ⟨_, hrest⟩ := h.needed_of_pick hpick
    exact ⟨hrest, h.definitions, h.imports, h.nodup_definitions, h.nodup_imports, hroots,
      hfollowed⟩
  | @defined _ _ _ name body hpick himport hbody hnew =>
    obtain ⟨hname, hrest⟩ := h.needed_of_pick hpick
    refine ⟨?_, ?_, h.imports, List.nodup_cons.mpr ⟨hnew, h.nodup_definitions⟩,
      h.nodup_imports, hroots, ?_⟩
    · intro other hother
      rcases List.mem_append.mp hother with hfree | hold
      · obtain ⟨href, hparam⟩ := AliasBody.mem_freeReferences.mp hfree
        exact .body hname himport hbody href hparam
      · exact hrest other hold
    · intro other hother
      rcases List.mem_cons.mp hother with rfl | hold
      · exact ⟨hname, himport, by rw [hbody]; rfl⟩
      · exact h.definitions other hold
    · intro other hother body' hbody' reference href
      rcases List.mem_cons.mp hother with rfl | hold
      · rw [hbody, Option.some.injEq] at hbody'
        subst hbody'
        exact Or.inl (List.mem_append_left _ href)
      · exact hfollowed other hold body' hbody' reference href

/-- Every run preserves the invariant. -/
theorem Steps.inv {c : Catalog} {root : String → Prop} {n : Nat} {s t : Search}
    (hsteps : Steps c n s t) (h : Inv c root s) : Inv c root t := by
  induction hsteps with
  | refl _ => exact h
  | cons first _ ih => exact ih (first.inv h)

/-- When nothing is pending, a name is settled by having been found, if there is anything
to find: what is imported has been found as an import and what is defined as a
definition. -/
private theorem Inv.found_of_settled {c : Catalog} {root : String → Prop} {found : Needs}
    (h : Inv c root ⟨found, []⟩) {name : String} (hname : Settled c ⟨found, []⟩ name) :
    ((c.moduleOf? name).isSome → name ∈ found.imports)
      ∧ (c.moduleOf? name = none → (c.definition? name).isSome → name ∈ found.definitions) := by
  rcases hname with hpending | himports | hdefinitions | ⟨hnotImported, hnotDefined⟩
  · exact absurd hpending List.not_mem_nil
  · refine ⟨fun _ => himports, fun hnone _ => ?_⟩
    have hsome := (h.imports name himports).2
    rw [hnone] at hsome
    exact absurd hsome (by simp)
  · refine ⟨fun hsome => ?_, fun _ _ => hdefinitions⟩
    rw [(h.definitions name hdefinitions).2.1] at hsome
    exact absurd hsome (by simp)
  · refine ⟨fun hsome => ?_, fun _ hdefined => ?_⟩
    · rw [hnotImported] at hsome
      exact absurd hsome (by simp)
    · rw [hnotDefined] at hdefined
      exact absurd hdefined (by simp)

/-- When nothing is pending, every needed name is settled. -/
private theorem Inv.settled_of_needed {c : Catalog} {root : String → Prop} {found : Needs}
    (h : Inv c root ⟨found, []⟩) {name : String} (hname : Needed c root name) :
    Settled c ⟨found, []⟩ name := by
  induction hname with
  | root hroot => exact h.roots _ hroot
  | @body name reference body _ himport hbody href hparam ih =>
    -- `name` is defined and not imported, so it was found and its body followed
    have hdefined : (c.definition? name).isSome := by rw [hbody]; rfl
    have hfound := (h.found_of_settled ih).2 himport hdefined
    exact h.followed name hfound body hbody reference
      (AliasBody.mem_freeReferences.mpr ⟨href, hparam⟩)

theorem Inv.exact {c : Catalog} {root : String → Prop} {found : Needs}
    (h : Inv c root ⟨found, []⟩) : found.Exact c root where
  nodup_definitions := h.nodup_definitions
  nodup_imports := h.nodup_imports
  mem_definitions := by
    intro name
    constructor
    · exact h.definitions name
    · intro hneeded
      obtain ⟨hname, himport, hdefined⟩ := hneeded
      exact (h.found_of_settled (h.settled_of_needed hname)).2 himport hdefined
  mem_imports := by
    intro name
    constructor
    · exact h.imports name
    · intro hneeded
      obtain ⟨hname, himport⟩ := hneeded
      exact (h.found_of_settled (h.settled_of_needed hname)).1 himport

/-- **A finished search is exact**, in whatever order it took the pending names. -/
theorem Steps.exact {c : Catalog} {n : Nat} {names : List String} {found : Needs}
    (h : Steps c n ⟨{}, names⟩ ⟨found, []⟩) : found.Exact c (fun name => name ∈ names) :=
  (h.inv (inv_start c names)).exact

end Search

/-! ## The search that is run -/

namespace Catalog

/-- `follow` is a run of the search that takes the first pending name each time. -/
theorem follow_steps (c : Catalog) (found : Needs) (pending : List String) :
    ∃ n, Search.Steps c n ⟨found, pending⟩ ⟨c.follow found pending, []⟩ := by
  induction found, pending using Catalog.follow.induct c with
  | case1 found =>
    rw [Catalog.follow]
    exact ⟨0, .refl _⟩
  | case2 found name pending himport ih =>
    obtain ⟨n, hn⟩ := ih
    rw [Catalog.follow, if_pos himport]
    exact ⟨n + 1, .cons (.imported (List.Perm.refl _) himport) hn⟩
  | case3 found name pending himport hnone ih =>
    obtain ⟨n, hn⟩ := ih
    have hmodule : c.moduleOf? name = none := Option.not_isSome_iff_eq_none.mp himport
    rw [Catalog.follow, if_neg himport]
    split
    · exact ⟨n + 1, .cons (.skipped (List.Perm.refl _) hmodule (Or.inl hnone)) hn⟩
    · next hbody => exact absurd (hnone.symm.trans hbody) (by simp)
  | case4 found name pending himport body hbody hseen ih =>
    obtain ⟨n, hn⟩ := ih
    have hmodule : c.moduleOf? name = none := Option.not_isSome_iff_eq_none.mp himport
    rw [Catalog.follow, if_neg himport]
    split
    · next hnone => exact absurd (hnone.symm.trans hbody) (by simp)
    · rw [dif_pos hseen]
      exact ⟨n + 1, .cons (.skipped (List.Perm.refl _) hmodule
        (Or.inr (List.contains_iff_mem.mp hseen))) hn⟩
  | case5 found name pending himport body hbody hnew ih =>
    obtain ⟨n, hn⟩ := ih
    have hmodule : c.moduleOf? name = none := Option.not_isSome_iff_eq_none.mp himport
    rw [Catalog.follow, if_neg himport]
    split
    · next hnone => exact absurd (hnone.symm.trans hbody) (by simp)
    · next body' hbody' =>
      -- `follow` looks the definition up once more, and finds the same body
      have hsame : body' = body := Option.some.inj (hbody'.symm.trans hbody)
      rw [dif_neg hnew, hsame]
      exact ⟨n + 1, .cons (.defined (List.Perm.refl _) hmodule hbody
        fun hmem => hnew (List.contains_iff_mem.mpr hmem)) hn⟩

theorem needs_steps (c : Catalog) (names : List String) :
    ∃ n, Search.Steps c n ⟨{}, names⟩ ⟨c.needs names, []⟩ :=
  c.follow_steps {} names

/-- The definitions and imports that are found are the needed ones, each once. -/
theorem needs_exact (c : Catalog) (names : List String) :
    (c.needs names).Exact c (fun name => name ∈ names) := by
  obtain ⟨_, hn⟩ := c.needs_steps names
  exact hn.exact

end Catalog

end SchemaTypes
