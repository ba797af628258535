/-!
# Maps from names

A map from names is a list of entries in ascending order of their names, and so it has one
entry at most for each name. It is looked through from the front: the maps are short, and
what can be seen of them is their entries in order and what stands under a name. Putting an
entry in replaces the one that has its name:

> `find?_insert`: the new value is found under its name, and under every other name what
> was there before.

> `entries_ofList`: entries that ascend already are the entries of the map that is made of
> them.
-/

namespace SchemaTypes

/-- The names of the entries ascend. -/
def NameMap.Ascending {α : Type} (entries : List (String × α)) : Prop :=
  entries.Pairwise fun a b => compare a.1 b.1 = .lt

/-- A map from names. -/
structure NameMap (α : Type) where
  entries : List (String × α)
  ascending : NameMap.Ascending entries
  deriving Repr

namespace NameMap

variable {α : Type}

instance (entries : List (String × α)) : Decidable (Ascending entries) :=
  inferInstanceAs (Decidable (entries.Pairwise fun a b => compare a.1 b.1 = .lt))

/-- The map without entries. -/
def empty : NameMap α := ⟨[], .nil⟩

/-- The entry with this name. -/
def find? (m : NameMap α) (name : String) : Option α :=
  m.entries.lookup name

/-- The names in their order. -/
def names (m : NameMap α) : List String :=
  m.entries.map (·.1)

/-- Entries in ascending order with one more put in its place. -/
def insertEntry (name : String) (value : α) : List (String × α) → List (String × α)
  | [] => [(name, value)]
  | entry :: rest =>
    match compare name entry.1 with
    | .lt => (name, value) :: entry :: rest
    | .eq => (name, value) :: rest
    | .gt => entry :: insertEntry name value rest

theorem eq_or_mem_of_mem_insertEntry {name : String} {value : α} {entries : List (String × α)}
    {entry : String × α} (h : entry ∈ insertEntry name value entries) :
    entry = (name, value) ∨ entry ∈ entries := by
  induction entries with
  | nil => exact .inl (List.mem_singleton.mp h)
  | cons first rest ih =>
    rw [insertEntry] at h
    split at h
    · exact List.mem_cons.mp h
    · exact (List.mem_cons.mp h).imp_right (List.mem_cons_of_mem first)
    · rcases List.mem_cons.mp h with rfl | h
      · exact .inr List.mem_cons_self
      · exact (ih h).imp_right (List.mem_cons_of_mem first)

theorem Ascending.insertEntry {entries : List (String × α)} (h : Ascending entries) (name : String)
    (value : α) : Ascending (insertEntry name value entries) := by
  induction entries with
  | nil => exact List.pairwise_singleton _ _
  | cons first rest ih =>
    obtain ⟨hfirst, hrest⟩ := List.pairwise_cons.mp h
    rw [NameMap.insertEntry]
    split
    · next hlt =>
      refine List.pairwise_cons.mpr ⟨List.forall_mem_cons.mpr ⟨hlt, fun entry hentry => ?_⟩, h⟩
      exact Std.TransCmp.lt_trans hlt (hfirst entry hentry)
    · next heq =>
      -- the new entry comes in the place of one with the same name
      have hname : name = first.1 := Std.LawfulEqCmp.eq_of_compare heq
      exact List.pairwise_cons.mpr ⟨fun entry hentry => by rw [hname]; exact hfirst entry hentry,
        hrest⟩
    · next hgt =>
      refine List.pairwise_cons.mpr ⟨fun entry hentry => ?_, ih hrest⟩
      rcases eq_or_mem_of_mem_insertEntry hentry with rfl | hentry
      · exact Std.OrientedCmp.lt_of_gt hgt
      · exact hfirst entry hentry

/-- The map with an entry put in. -/
def insert (m : NameMap α) (name : String) (value : α) : NameMap α :=
  ⟨insertEntry name value m.entries, m.ascending.insertEntry name value⟩

/-- The map with all these entries put in, one after the other. -/
def insertAll (m : NameMap α) (entries : List (String × α)) : NameMap α :=
  entries.foldl (fun m entry => m.insert entry.1 entry.2) m

/-- The map of these entries; of two with one name the later one counts. -/
def ofList (entries : List (String × α)) : NameMap α :=
  empty.insertAll entries

/-! ## What is found -/

theorem ne_of_compare_ne {name other : String} (h : compare name other ≠ .eq) : name ≠ other :=
  fun heq => h (Std.LawfulEqCmp.compare_eq_iff_eq.mpr heq)

/-- What is found under a name are the entries with that name. -/
theorem find?_eq_some_iff {m : NameMap α} {name : String} {value : α} :
    m.find? name = some value ↔ (name, value) ∈ m.entries := by
  rw [find?, List.lookup_eq_some_iff]
  constructor
  · intro h
    obtain ⟨before, after, hentries, _⟩ := h
    rw [hentries]
    exact List.mem_append_right before List.mem_cons_self
  · intro h
    obtain ⟨before, after, hentries⟩ := List.append_of_mem h
    refine ⟨before, after, hentries, fun entry hentry => ?_⟩
    -- an earlier entry has a smaller name
    have hascending := m.ascending
    rw [hentries] at hascending
    have hlt := (List.pairwise_append.mp hascending).2.2 entry hentry _ List.mem_cons_self
    exact bne_iff_ne.mpr (ne_of_compare_ne (by rw [hlt]; decide)).symm

theorem isSome_find?_iff {m : NameMap α} {name : String} :
    (m.find? name).isSome ↔ name ∈ m.names := by
  rw [Option.isSome_iff_exists, names, List.mem_map]
  simp only [find?_eq_some_iff]
  constructor
  · intro h
    obtain ⟨value, hvalue⟩ := h
    exact ⟨_, hvalue, rfl⟩
  · intro h
    obtain ⟨entry, hentry, rfl⟩ := h
    exact ⟨entry.2, hentry⟩

theorem lookup_cons_eq_ite (entry : String × α) (entries : List (String × α)) (name : String) :
    (entry :: entries).lookup name
      = if name = entry.1 then some entry.2 else entries.lookup name := by
  rw [List.lookup_cons]
  by_cases h : name = entry.1
  · rw [if_pos h, beq_iff_eq.mpr h]
  · rw [if_neg h, beq_eq_false_iff_ne.mpr h]

theorem lookup_insertEntry (name : String) (value : α) (entries : List (String × α))
    (other : String) : (insertEntry name value entries).lookup other
      = if other = name then some value else entries.lookup other := by
  induction entries with
  | nil => exact lookup_cons_eq_ite (name, value) [] other
  | cons first rest ih =>
    rw [insertEntry]
    split
    · exact lookup_cons_eq_ite (name, value) (first :: rest) other
    · next heq =>
      -- the entry that is replaced is not looked at for another name
      have hname : name = first.1 := Std.LawfulEqCmp.eq_of_compare heq
      rw [lookup_cons_eq_ite, lookup_cons_eq_ite, hname]
      split <;> rfl
    · next hgt =>
      have hname : name ≠ first.1 := ne_of_compare_ne (by rw [hgt]; decide)
      rw [lookup_cons_eq_ite, lookup_cons_eq_ite, ih]
      split
      · next hother => rw [if_neg (hother ▸ hname.symm)]
      · rfl

/-- The new value is found under its name, and nothing else changes. -/
theorem find?_insert (m : NameMap α) (name : String) (value : α) (other : String) :
    (m.insert name value).find? other = if other = name then some value else m.find? other :=
  lookup_insertEntry name value m.entries other

/-! ## Entries that ascend already -/

theorem insertEntry_eq_append {name : String} {value : α} {entries : List (String × α)}
    (h : ∀ entry ∈ entries, compare entry.1 name = .lt) :
    insertEntry name value entries = entries ++ [(name, value)] := by
  induction entries with
  | nil => rfl
  | cons first rest ih =>
    obtain ⟨hfirst, hrest⟩ := List.forall_mem_cons.mp h
    have hgt : compare name first.1 = .gt := Std.OrientedCmp.gt_of_lt hfirst
    rw [insertEntry, hgt, List.cons_append, ← ih hrest]

theorem entries_insertAll {m : NameMap α} {entries : List (String × α)}
    (h : Ascending (m.entries ++ entries)) :
    (m.insertAll entries).entries = m.entries ++ entries := by
  induction entries generalizing m with
  | nil => exact (List.append_nil _).symm
  | cons first rest ih =>
    have hfirst : (m.insert first.1 first.2).entries = m.entries ++ [first] :=
      insertEntry_eq_append fun entry hentry =>
        (List.pairwise_append.mp h).2.2 entry hentry first List.mem_cons_self
    have hsplit : (m.insert first.1 first.2).entries ++ rest = m.entries ++ first :: rest := by
      rw [hfirst, List.append_assoc, List.singleton_append]
    rw [← hsplit] at h ⊢
    exact ih h

/-- Entries that ascend are kept as they are. -/
theorem entries_ofList {entries : List (String × α)} (h : Ascending entries) :
    (ofList entries).entries = entries :=
  entries_insertAll (m := empty) h

end NameMap

end SchemaTypes
