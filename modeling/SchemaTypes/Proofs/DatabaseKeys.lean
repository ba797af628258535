import SchemaTypes.Proofs.Declared

/-!
# The keys of the database

The interface `DB` lists every table under a key: its name, and before it the schema and a
dot if the schema is not the default one. Names and schemas may have dots themselves, so
one key can be made of two tables: a table `logs.2024` of the default schema has the key of
the table `2024` of the schema `logs`, and the later of the two hides the other one.

`Mistakable` says of which tables this is true, and it is the only way in which keys can
be the same (`key_eq_iff`):

> `nodup_databaseKeys_iff`: the keys of `DB` are distinct exactly if no table can be
> mistaken for another one, and so they are if no table has a dot in its name.
-/

namespace SchemaTypes.Assembly

/-- The key of the first table reads as that of the second one, although its schema ends
at another place. -/
inductive Mistakable (c : Catalog) (t u : Table) : Prop
  /-- The name spells out a table of another schema. -/
  | byName (hdefault : schemaOf c t = c.defaultSchema) (hother : schemaOf c u ≠ c.defaultSchema)
      (hname : t.name = schemaOf c u ++ "." ++ u.name)
  /-- The name opens with what the other schema ends with. -/
  | bySchema (middle : String) (hother : schemaOf c t ≠ c.defaultSchema)
      (hother' : schemaOf c u ≠ c.defaultSchema)
      (hschema : schemaOf c u = schemaOf c t ++ "." ++ middle)
      (hname : t.name = middle ++ "." ++ u.name)

/-! ## Texts with a dot -/

theorem toList_dotted (a b : String) : (a ++ "." ++ b).toList = a.toList ++ '.' :: b.toList := by
  rw [String.toList_append, String.toList_append, List.append_assoc]
  rfl

theorem dotted_assoc (a b d : String) : a ++ "." ++ (b ++ "." ++ d) = a ++ "." ++ b ++ "." ++ d := by
  simp only [String.append_assoc]

/-- The dot of one text stands at the dot of the other, or within what is behind it. -/
theorem dotted_split {a b d e : String} {rest : List Char} (hfront : d.toList = a.toList ++ rest)
    (hback : '.' :: b.toList = rest ++ '.' :: e.toList) :
    (a = d ∧ b = e) ∨ ∃ middle, d = a ++ "." ++ middle ∧ b = middle ++ "." ++ e := by
  cases rest with
  | nil =>
    rw [List.append_nil] at hfront
    exact .inl ⟨String.toList_injective hfront.symm,
      String.toList_injective (List.cons.inj hback).2⟩
  | cons dot middle =>
    rw [List.cons_append] at hback
    obtain ⟨rfl, hrest⟩ := List.cons.inj hback
    refine .inr ⟨String.ofList middle, String.toList_injective ?_, String.toList_injective ?_⟩
    · rw [hfront, toList_dotted, String.toList_ofList]
    · rw [hrest, toList_dotted, String.toList_ofList]

/-- Two texts with a dot are the same if they are cut there alike, or if one of them goes
on where the other one has its dot. -/
theorem dotted_eq_iff {a b d e : String} :
    a ++ "." ++ b = d ++ "." ++ e ↔
      (a = d ∧ b = e) ∨ (∃ middle, d = a ++ "." ++ middle ∧ b = middle ++ "." ++ e)
        ∨ ∃ middle, a = d ++ "." ++ middle ∧ e = middle ++ "." ++ b := by
  constructor
  · intro h
    have hchars := congrArg String.toList h
    rw [toList_dotted, toList_dotted, List.append_eq_append_iff] at hchars
    rcases hchars with ⟨rest, hfront, hback⟩ | ⟨rest, hfront, hback⟩
    · rcases dotted_split hfront hback with hsame | hmiddle
      · exact .inl hsame
      · exact .inr (.inl hmiddle)
    · rcases dotted_split hfront hback with ⟨rfl, rfl⟩ | hmiddle
      · exact .inl ⟨rfl, rfl⟩
      · exact .inr (.inr hmiddle)
  · intro h
    rcases h with ⟨rfl, rfl⟩ | ⟨middle, rfl, rfl⟩ | ⟨middle, rfl, rfl⟩
    · rfl
    · exact dotted_assoc a middle e
    · exact (dotted_assoc d middle b).symm

/-! ## Keys -/

theorem key_of_default {c : Catalog} {t : Table} (h : schemaOf c t = c.defaultSchema) :
    key c t = t.name :=
  if_pos h

theorem key_of_other {c : Catalog} {t : Table} (h : schemaOf c t ≠ c.defaultSchema) :
    key c t = schemaOf c t ++ "." ++ t.name :=
  if_neg h

theorem Mistakable.key_eq {c : Catalog} {t u : Table} (h : Mistakable c t u) :
    key c t = key c u := by
  cases h with
  | byName hdefault hother hname => rw [key_of_default hdefault, key_of_other hother, hname]
  | bySchema middle hother hother' hschema hname =>
    rw [key_of_other hother, key_of_other hother', hschema, hname, dotted_assoc]

/-- A key is that of one table, or of tables that can be mistaken for each other. -/
theorem key_eq_iff {c : Catalog} {t u : Table} :
    key c t = key c u ↔
      (schemaOf c t = schemaOf c u ∧ t.name = u.name) ∨ Mistakable c t u ∨ Mistakable c u t := by
  constructor
  · intro h
    by_cases ht : schemaOf c t = c.defaultSchema
    · by_cases hu : schemaOf c u = c.defaultSchema
      · rw [key_of_default ht, key_of_default hu] at h
        exact .inl ⟨ht.trans hu.symm, h⟩
      · rw [key_of_default ht, key_of_other hu] at h
        exact .inr (.inl (.byName ht hu h))
    · by_cases hu : schemaOf c u = c.defaultSchema
      · rw [key_of_other ht, key_of_default hu] at h
        exact .inr (.inr (.byName hu ht h.symm))
      · rw [key_of_other ht, key_of_other hu] at h
        rcases dotted_eq_iff.mp h with hsame | ⟨middle, hschema, hname⟩ | ⟨middle, hschema, hname⟩
        · exact .inl hsame
        · exact .inr (.inl (.bySchema middle ht hu hschema hname))
        · exact .inr (.inr (.bySchema middle hu ht hschema hname))
  · intro h
    rcases h with ⟨hschema, hname⟩ | h | h
    · rw [key, key, hschema, hname]
    · exact h.key_eq
    · exact h.key_eq.symm

theorem not_mistakable_self (c : Catalog) (t : Table) : ¬Mistakable c t t := by
  intro h
  cases h with
  | byName hdefault hother _ => exact hother hdefault
  | bySchema middle _ _ hschema _ =>
    -- no schema is longer than itself
    have hlength := congrArg (fun s : String => s.toList.length) hschema
    simp only [toList_dotted, List.length_append, List.length_cons] at hlength
    omega

/-- Only a table with a dot in its name can be mistaken. -/
theorem Mistakable.dot_mem {c : Catalog} {t u : Table} (h : Mistakable c t u) :
    '.' ∈ t.name.toList := by
  have hdot : ∀ a b : String, '.' ∈ (a ++ "." ++ b).toList := by
    intro a b
    rw [toList_dotted]
    exact List.mem_append_right _ List.mem_cons_self
  cases h with
  | byName _ _ hname =>
    rw [hname]
    exact hdot _ _
  | bySchema middle _ _ _ hname =>
    rw [hname]
    exact hdot _ _

theorem databaseKeys_assembled (c : Catalog) (database : Database) :
    (databaseProperties (assembled c database)).map PropertyOf.key
      = (ordered c database.tables).map (key c) := by
  rw [databaseProperties_assembled, List.map_map]
  rfl

theorem nodup_keys_iff {c : Catalog} {tables : List Table}
    (hdistinct : (tables.map fun t => (schemaOf c t, t.name)).Nodup) :
    (tables.map (key c)).Nodup ↔ ∀ t ∈ tables, ∀ u ∈ tables, ¬Mistakable c t u := by
  rw [List.nodup_map_iff_inj_on hdistinct.of_map]
  constructor
  · intro hinj t ht u hu h
    have hsame := hinj t ht u hu h.key_eq
    rw [hsame] at h
    exact not_mistakable_self c u h
  · intro hnone t ht u hu hkey
    rcases key_eq_iff.mp hkey with ⟨hschema, hname⟩ | h | h
    · exact List.inj_on_of_nodup_map hdistinct ht hu (Prod.ext hschema hname)
    · exact absurd h (hnone t ht u hu)
    · exact absurd h (hnone u hu t ht)

/-- **When the keys of `DB` are distinct.** Among tables that are told apart by schema and
name, exactly if no table can be mistaken for another one; tables without dots in their
names never can. -/
theorem nodup_databaseKeys_iff {c : Catalog} {database : Database} {statements : List Statement}
    (hdistinct : (database.tables.map fun t => (schemaOf c t, t.name)).Nodup)
    (h : assemble c database = .ok statements) :
    (((databaseProperties statements).map PropertyOf.key).Nodup ↔
      ∀ t ∈ database.tables, ∀ u ∈ database.tables, ¬Mistakable c t u)
    ∧ ((∀ t ∈ database.tables, '.' ∉ t.name.toList) →
      ((databaseProperties statements).map PropertyOf.key).Nodup) := by
  obtain ⟨_, rfl⟩ := assemble_eq_ok_iff.mp h
  have hexact : ((databaseProperties (assembled c database)).map PropertyOf.key).Nodup ↔
      ∀ t ∈ database.tables, ∀ u ∈ database.tables, ¬Mistakable c t u := by
    rw [databaseKeys_assembled, ((ordered_perm c database.tables).map (key c)).nodup_iff]
    exact nodup_keys_iff hdistinct
  refine ⟨hexact, fun hdots => hexact.mpr ?_⟩
  intro t ht u _ hmistakable
  exact hdots t ht hmistakable.dot_mem

/-- Two tables that have dots in their names and cannot be mistaken for each other. -/
def dottedDatabase : Database where
  tables := [{ name := "logs.2024" }, { schema := some "2024", name := "logs.old" }]

/-- Dots alone do no harm: the keys are `2024.logs.old` and `logs.2024`. -/
theorem nodup_databaseKeys_dotted :
    ∃ statements, assemble circularCatalog dottedDatabase = .ok statements
      ∧ ((databaseProperties statements).map PropertyOf.key).Nodup := by
  have hclash : clash? circularCatalog dottedDatabase = none :=
    clash?_eq_none_of_no_columns (by decide)
  refine ⟨_, assemble_eq_ok_iff.mpr ⟨hclash, rfl⟩,
    (nodup_databaseKeys_iff (by decide) (assemble_eq_ok_iff.mpr ⟨hclash, rfl⟩)).1.mpr ?_⟩
  -- tables that can be mistaken for each other have the same key
  have hkeys : ∀ t ∈ dottedDatabase.tables, ∀ u ∈ dottedDatabase.tables, t ≠ u →
      key circularCatalog t ≠ key circularCatalog u := by decide
  intro t ht u hu h
  by_cases hsame : t = u
  · rw [hsame] at h
    exact not_mistakable_self _ u h
  · exact hkeys t ht u hu hsame h.key_eq

/-- A table of the default schema, and a table of the schema that its name starts with. -/
def shardsDatabase : Database where
  tables := [{ name := "logs.2024" }, { schema := some "logs", name := "2024" }]

/-- The two tables have interfaces of their own, `Logs2024` and `Logs_2024`, but both are
listed as `logs.2024`. -/
theorem databaseKeys_collide :
    ∃ c statements, Dialect.bigQuery.catalog = .ok c
      ∧ assemble c shardsDatabase = .ok statements
      ∧ (shardsDatabase.tables.map fun t => (schemaOf c t, t.name)).Nodup
      ∧ (declaredNames statements).Nodup
      ∧ ¬((databaseProperties statements).map PropertyOf.key).Nodup := by
  obtain ⟨c, hc⟩ : ∃ c, Dialect.bigQuery.catalog = .ok c := ⟨_, rfl⟩
  have hdefault := Dialect.defaultSchema_eq hc
  have hclash : clash? c shardsDatabase = none := clash?_eq_none_of_no_columns (by decide)
  have hother : schemaOf c { schema := some "logs", name := "2024" } ≠ c.defaultSchema := by
    rw [hdefault]
    show "logs" ≠ "default"
    decide
  have hinterfaces : shardsDatabase.tables.map (interfaceName c) = ["Logs2024", "Logs_2024"] := by
    rw [shardsDatabase, List.map_cons, List.map_singleton, interfaceName_of_no_schema c rfl,
      interfaceName, if_neg hother]
    show [Text.pascalCase "logs.2024", Text.pascalCase "logs" ++ Text.pascalCase "2024"] = _
    decide
  have hmistakable : Mistakable c { name := "logs.2024" }
      { schema := some "logs", name := "2024" } := .byName rfl hother rfl
  refine ⟨c, _, hc, assemble_eq_ok_iff.mpr ⟨hclash, rfl⟩, ?_, ?_, fun hnodup => ?_⟩
  · show [(c.defaultSchema, "logs.2024"), ("logs", "2024")].Nodup
    rw [hdefault]
    decide
  · refine nodup_declaredNames (Dialect.catalog_db hc).2 hclash ?_ ?_
    · rw [hinterfaces]
      decide
    · rw [hinterfaces]
      decide
  · rw [databaseKeys_assembled, ((ordered_perm c shardsDatabase.tables).map (key c)).nodup_iff]
      at hnodup
    have hsame := List.inj_on_of_nodup_map hnodup List.mem_cons_self
      (List.mem_cons_of_mem _ (List.mem_singleton.mpr rfl)) hmistakable.key_eq
    exact absurd hsame (by decide)

end SchemaTypes.Assembly
