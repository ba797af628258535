import SchemaTypes.Proofs.Assembled
import SchemaTypes.Proofs.Dialects
import SchemaTypes.Proofs.PascalCase
import SchemaTypes.Proofs.Reachability

/-!
# The names that an assembled module declares and binds

What the columns of a database refer to decides what its module declares and imports.
`Reachability` has shown that the search for these names is exact; this file carries that
over to the statements:

> `assemble_declares_needed`: the aliases are the needed names that are defined and not
> imported, each once and with the body that the catalog has for it, and the imported
> names are the needed ones that the catalog imports, along with `z` for the validators.

Aliases and imports never share a name, and no interface has the name of either, because
such tables are refused. What is not looked at is whether two tables get the same
interface name, or one of them the name of the interface of the whole database. So the
declared names are distinct in exactly one case:

> `nodup_declaredNames_iff`: no two tables have the same interface name, and none of
> them is called `DB`.
-/

namespace SchemaTypes.Assembly

/-- A column of one of the tables refers to the name. -/
def ColumnRefersTo (c : Catalog) (database : Database) (name : String) : Prop :=
  ∃ t ∈ database.tables, ∃ column ∈ t.columns, ∃ p,
    columnProperty c column = .ok p ∧ name ∈ p.value.references

theorem columnProperty_eq_ok (c : Catalog) (column : Column) :
    columnProperty c column = .ok (columnMember c column) := by
  rw [columnProperty, columnType_eq_ok]
  rfl

theorem mem_columnReferences_ordered {c : Catalog} {database : Database} {name : String} :
    name ∈ columnReferences c (ordered c database.tables) ↔ ColumnRefersTo c database name := by
  rw [mem_columnReferences]
  constructor
  · intro h
    obtain ⟨t, ht, column, hcolumn, hname⟩ := h
    exact ⟨t, (ordered_perm c _).mem_iff.mp ht, column, hcolumn, columnMember c column,
      columnProperty_eq_ok c column, hname⟩
  · intro h
    obtain ⟨t, ht, column, hcolumn, p, hp, hname⟩ := h
    rw [columnProperty_eq_ok, Except.ok.injEq] at hp
    subst hp
    exact ⟨t, (ordered_perm c _).mem_iff.mpr ht, column, hcolumn, hname⟩

theorem neededNames_exact (c : Catalog) (database : Database) :
    (neededNames c database).Exact c (ColumnRefersTo c database) := by
  have hroots : (fun name => name ∈ columnReferences c (ordered c database.tables))
      = ColumnRefersTo c database :=
    funext fun _ => propext mem_columnReferences_ordered
  have hexact := c.needs_exact (columnReferences c (ordered c database.tables))
  rw [hroots] at hexact
  exact hexact

/-! ## Aliases -/

theorem mem_exportedAliases {c : Catalog} {database : Database} {name : String}
    {body : AliasBody} :
    (name, body) ∈ exportedAliases (assembled c database) ↔
      name ∈ (neededNames c database).definitions ∧ c.definition? name = some body := by
  rw [exportedAliases_assembled, List.mem_filterMap]
  constructor
  · intro h
    obtain ⟨other, hother, hpair⟩ := h
    obtain ⟨found, hfound, heq⟩ := Option.map_eq_some_iff.mp hpair
    obtain ⟨rfl, rfl⟩ := Prod.mk.inj heq
    exact ⟨mem_sortedNames.mp hother, hfound⟩
  · intro h
    obtain ⟨hname, hbody⟩ := h
    exact ⟨name, mem_sortedNames.mpr hname, by rw [hbody]; rfl⟩

theorem nodup_exportedAliases (c : Catalog) (database : Database) :
    ((exportedAliases (assembled c database)).map (·.1)).Nodup := by
  rw [aliasNames_assembled]
  exact ((sortedNames_perm _).nodup_iff.mpr
    (neededNames_exact c database).nodup_definitions).filter _

/-! ## Imports -/

theorem mem_boundNames {c : Catalog} {database : Database} {name : String} :
    name ∈ boundNames c database ↔
      name ∈ (neededNames c database).imports ∨ name = validatorName ∧ database.tables ≠ [] := by
  unfold boundNames importedNames
  split
  · next hempty =>
    have hnil : database.tables = [] := List.isEmpty_iff.mp hempty
    exact ⟨Or.inl, fun h => h.resolve_right fun hz => hz.2 hnil⟩
  · next hne =>
    have htables : database.tables ≠ [] := fun h => hne (List.isEmpty_iff.mpr h)
    rw [mem_addName]
    constructor
    · intro h
      rcases h with hz | hneeded
      · exact Or.inr ⟨hz, htables⟩
      · exact Or.inl hneeded
    · intro h
      rcases h with hneeded | ⟨hz, _⟩
      · exact Or.inr hneeded
      · exact Or.inl hz

theorem nodup_boundNames (c : Catalog) (database : Database) :
    (boundNames c database).Nodup := by
  have hneeded := (neededNames_exact c database).nodup_imports
  unfold boundNames importedNames
  split
  · exact hneeded
  · exact nodup_addName hneeded

theorem mem_importedClauses {c : Catalog} {database : Database} {module : String}
    {clause : ImportClause} :
    (module, clause) ∈ importedClauses (assembled c database) ↔
      clause.localName = none ∧ clause.name ∈ boundNames c database
        ∧ c.moduleOf? clause.name = some module := by
  rw [importedClauses_assembled, List.mem_flatMap]
  constructor
  · intro h
    obtain ⟨other, _, hpair⟩ := h
    obtain ⟨name, hname, heq⟩ := List.mem_map.mp hpair
    obtain ⟨rfl, rfl⟩ := Prod.mk.inj heq
    exact ⟨rfl, mem_namesFrom.mp hname⟩
  · intro h
    obtain ⟨hlocal, hname, hmodule⟩ := h
    refine ⟨module, mem_modulesOf.mpr ⟨_, hname, hmodule⟩, List.mem_map.mpr ⟨clause.name, ?_, ?_⟩⟩
    · exact mem_namesFrom.mpr ⟨hname, hmodule⟩
    · obtain ⟨name, localName⟩ := clause
      subst hlocal
      rfl

theorem importedBindings_assembled (c : Catalog) (database : Database) :
    importedBindings (assembled c database)
      = (modulesOf c (boundNames c database)).flatMap (namesFrom c (boundNames c database)) := by
  rw [importedBindings, importedClauses_assembled, List.map_flatMap]
  congr 1
  funext module
  rw [List.map_map]
  exact List.map_id _

theorem mem_importedBindings {c : Catalog} {database : Database} {name : String} :
    name ∈ importedBindings (assembled c database) ↔
      name ∈ boundNames c database ∧ (c.moduleOf? name).isSome := by
  rw [importedBindings_assembled, List.mem_flatMap]
  constructor
  · intro h
    obtain ⟨module, _, hname⟩ := h
    obtain ⟨hbound, hmodule⟩ := mem_namesFrom.mp hname
    exact ⟨hbound, by rw [hmodule]; rfl⟩
  · intro h
    obtain ⟨hbound, hsome⟩ := h
    obtain ⟨module, hmodule⟩ := Option.isSome_iff_exists.mp hsome
    exact ⟨module, mem_modulesOf.mpr ⟨name, hbound, hmodule⟩, mem_namesFrom.mpr ⟨hbound, hmodule⟩⟩

/-- Each name is bound once: it comes from one module only. -/
theorem nodup_importedBindings (c : Catalog) (database : Database) :
    (importedBindings (assembled c database)).Nodup := by
  rw [importedBindings_assembled, List.Nodup, List.pairwise_flatMap]
  constructor
  · intro module _
    exact ((sortedNames_perm _).nodup_iff.mpr (nodup_boundNames c database)).filter _
  · refine (nodup_modulesOf c (boundNames c database)).imp ?_
    intro module other hne name hname name' hname' hsame
    subst hsame
    have hmodule := (mem_namesFrom.mp hname).2
    rw [(mem_namesFrom.mp hname').2, Option.some.injEq] at hmodule
    exact hne hmodule.symm

/-- **What is declared and imported is what the columns need.** The search behind it takes
a bounded number of steps, whichever pending name it takes next, and comes to an end;
and the statements then declare and import exactly the needed names. -/
theorem assemble_declares_needed (c : Catalog) (database : Database) :
    (∀ names n s, Search.Steps c n ⟨{}, names⟩ s → n ≤ names.length + c.referenceCount)
    ∧ (∀ names, ∃ n, Search.Steps c n ⟨{}, names⟩ ⟨c.needs names, []⟩)
    ∧ ∀ statements, assemble c database = .ok statements →
      ((exportedAliases statements).map (·.1)).Nodup
      ∧ (∀ name body, (name, body) ∈ exportedAliases statements ↔
          Needed c (ColumnRefersTo c database) name
            ∧ c.moduleOf? name = none ∧ c.definition? name = some body)
      ∧ (importedBindings statements).Nodup
      ∧ ∀ module clause, (module, clause) ∈ importedClauses statements ↔
          clause.localName = none ∧ c.moduleOf? clause.name = some module
            ∧ (Needed c (ColumnRefersTo c database) clause.name
              ∨ clause.name = "z" ∧ database.tables ≠ []) := by
  refine ⟨fun _ _ _ h => h.length_le, c.needs_steps, fun statements h => ?_⟩
  obtain ⟨_, rfl⟩ := assemble_eq_ok_iff.mp h
  have hexact := neededNames_exact c database
  -- membership in the statements is membership in what the search found
  refine ⟨nodup_exportedAliases c database, fun name body => ?_,
    nodup_importedBindings c database, fun module clause => ?_⟩
  · rw [mem_exportedAliases, hexact.mem_definitions]
    constructor
    · intro h
      obtain ⟨⟨hneeded, himport, _⟩, hbody⟩ := h
      exact ⟨hneeded, himport, hbody⟩
    · intro h
      obtain ⟨hneeded, himport, hbody⟩ := h
      exact ⟨⟨hneeded, himport, by rw [hbody]; rfl⟩, hbody⟩
  · rw [mem_importedClauses, mem_boundNames, hexact.mem_imports]
    constructor
    · intro h
      obtain ⟨hlocal, ⟨hneeded, _⟩ | hz, hmodule⟩ := h
      · exact ⟨hlocal, hmodule, Or.inl hneeded⟩
      · exact ⟨hlocal, hmodule, Or.inr hz⟩
    · intro h
      obtain ⟨hlocal, hmodule, hneeded | hz⟩ := h
      · exact ⟨hlocal, Or.inl ⟨hneeded, by rw [hmodule]; rfl⟩, hmodule⟩
      · exact ⟨hlocal, Or.inr hz, hmodule⟩

/-- A catalog in which every column is a `Tree`, and `Tree` and `Forest` refer to each
other. -/
def circularCatalog : Catalog where
  defaultSchema := "default"
  defaultScalar := .reference "Tree"
  scalars := .empty
  definitions := ⟨[("Forest", .plain (.array (.reference "Tree"))),
    ("Tree", .plain (.object [{ key := "children", value := .reference "Forest" }]))], by decide⟩
  imports := ⟨[("z", "zod")], by decide⟩

/-- A table with one column. -/
def parkDatabase : Database where
  tables := [{ name := "park", columns := [{ name := "oak", dataType := "tree" }] }]

/-- A circle of definitions is followed once and declared as a whole. -/
theorem circularCatalog_declares_forest :
    ∃ statements, assemble circularCatalog parkDatabase = .ok statements
      ∧ ("Forest", .plain (.array (.reference "Tree"))) ∈ exportedAliases statements
      ∧ ("zod", ⟨"z", none⟩) ∈ importedClauses statements := by
  have hok : assemble circularCatalog parkDatabase
      = .ok (assembled circularCatalog parkDatabase) :=
    assemble_eq_ok_iff.mpr ⟨by cbv, rfl⟩
  obtain ⟨_, haliases, _, hclauses⟩ :=
    (assemble_declares_needed circularCatalog parkDatabase).2.2 _ hok
  have hoak : (columnExpression circularCatalog { name := "oak", dataType := "tree" }).references
      = ["Tree"] := by cbv
  have htree : ColumnRefersTo circularCatalog parkDatabase "Tree" := by
    refine ⟨_, List.mem_singleton.mpr rfl, _, List.mem_singleton.mpr rfl, _,
      columnProperty_eq_ok _ _, ?_⟩
    show "Tree" ∈ (columnExpression circularCatalog _).references
    rw [hoak]
    exact List.mem_singleton.mpr rfl
  have hforest : Needed circularCatalog (ColumnRefersTo circularCatalog parkDatabase) "Forest" :=
    .body (.root htree) rfl rfl (List.mem_singleton.mpr rfl) List.not_mem_nil
  exact ⟨_, hok, (haliases _ _).mpr ⟨hforest, rfl, rfl⟩,
    (hclauses _ _).mpr ⟨rfl, rfl, Or.inr ⟨rfl, List.cons_ne_nil _ _⟩⟩⟩

/-! ## Distinct names -/

/-- A database is assembled if no interface has the name of something needed. -/
theorem clash?_eq_none_iff {c : Catalog} {database : Database} :
    clash? c database = none ↔ ∀ t ∈ database.tables,
      interfaceName c t ∉ (neededNames c database).definitions
        ∧ interfaceName c t ∉ (neededNames c database).imports := by
  rw [clash?, List.find?_eq_none]
  simp only [Needs.contains, Bool.or_eq_true, List.contains_iff_mem, not_or,
    (ordered_perm c database.tables).mem_iff]

/-- Without columns nothing is needed, and so no name clashes. -/
theorem clash?_eq_none_of_no_columns {c : Catalog} {database : Database}
    (h : ∀ t ∈ database.tables, t.columns = []) : clash? c database = none := by
  have hnothing : ∀ name, ¬Needed c (ColumnRefersTo c database) name := by
    intro name hneeded
    induction hneeded with
    | root hroot =>
      obtain ⟨t, ht, column, hcolumn, _⟩ := hroot
      rw [h t ht] at hcolumn
      exact List.not_mem_nil hcolumn
    | body _ _ _ _ _ ih => exact ih
  have hexact := neededNames_exact c database
  rw [clash?_eq_none_iff]
  intro t _
  exact ⟨fun hd => hnothing _ ((hexact.mem_definitions _).mp hd).1,
    fun hi => hnothing _ ((hexact.mem_imports _).mp hi).1⟩

/-- Interfaces with names that are new to the catalog do not clash. -/
theorem clash?_eq_none_of_unknown {c : Catalog} {database : Database}
    (h : ∀ name ∈ database.tables.map (interfaceName c),
      (c.moduleOf? name).isNone ∧ (c.definition? name).isNone) :
    clash? c database = none := by
  have hexact := neededNames_exact c database
  rw [clash?_eq_none_iff]
  intro t ht
  obtain ⟨himport, hdefinition⟩ := h _ (List.mem_map_of_mem ht)
  constructor
  · intro hmem
    have hsome := ((hexact.mem_definitions _).mp hmem).2.2
    rw [Option.isNone_iff_eq_none.mp hdefinition] at hsome
    cases hsome
  · intro hmem
    have hsome := ((hexact.mem_imports _).mp hmem).2
    rw [Option.isNone_iff_eq_none.mp himport] at hsome
    cases hsome

/-- A name that is bound by an import is not the name of an alias. -/
theorem not_mem_importedBindings_of_definition {c : Catalog} {database : Database}
    {name : String} (h : name ∈ (neededNames c database).definitions) :
    name ∉ importedBindings (assembled c database) := by
  intro hbound
  have himport := ((neededNames_exact c database).mem_definitions name).mp h
  have hsome := (mem_importedBindings.mp hbound).2
  rw [himport.2.1] at hsome
  exact absurd hsome (by simp)

/-- A name that is bound by an import is not the name of an interface: needed imports
are looked at for clashes, and `z` starts with a small letter. -/
theorem interfaceName_not_mem_importedBindings {c : Catalog} {database : Database}
    (h : clash? c database = none) {t : Table} (ht : t ∈ database.tables) :
    interfaceName c t ∉ importedBindings (assembled c database) := by
  intro hbound
  rcases mem_boundNames.mp (mem_importedBindings.mp hbound).1 with hneeded | ⟨hz, _⟩
  · exact (clash?_eq_none_iff.mp h t ht).2 hneeded
  · have hlower : validatorName.toList = 'z' :: [] := rfl
    exact interfaceName_ne_of_isLower c t hlower (by decide) hz

theorem interfaceName_of_no_schema (c : Catalog) {t : Table} (h : t.schema = none) :
    interfaceName c t = Text.pascalCase t.name := by
  have hschema : schemaOf c t = c.defaultSchema := by
    rw [schemaOf, h]
    rfl
  rw [interfaceName, if_pos hschema]

theorem eq_db_of_mem {tables : List Table} {name : String}
    (h : name ∈ if tables.isEmpty then [] else ["DB"]) : name = "DB" := by
  split at h
  · exact absurd h List.not_mem_nil
  · exact List.mem_singleton.mp h

/-- Nothing is both declared and imported, as long as `DB` is no name of the catalog's. -/
theorem not_mem_importedBindings_of_declared {c : Catalog} (himport : c.moduleOf? "DB" = none)
    {database : Database} (h : clash? c database = none) :
    ∀ name ∈ declaredNames (assembled c database),
      name ∉ importedBindings (assembled c database) := by
  intro name hname
  rw [declaredNames_assembled] at hname
  rcases List.mem_append.mp hname with hfront | hdatabase
  · rcases List.mem_append.mp hfront with halias | hinterface
    · exact not_mem_importedBindings_of_definition
        (mem_sortedNames.mp (List.mem_filter.mp halias).1)
    · obtain ⟨t, ht, rfl⟩ := List.mem_map.mp hinterface
      exact interfaceName_not_mem_importedBindings h ((ordered_perm c _).mem_iff.mp ht)
  · intro hbound
    have hsome := (mem_importedBindings.mp hbound).2
    rw [eq_db_of_mem hdatabase, himport] at hsome
    exact absurd hsome (by simp)

theorem distinct_interfaceNames {c : Catalog} {database : Database}
    (hnodup : (declaredNames (assembled c database)).Nodup) :
    (database.tables.map (interfaceName c)).Nodup
      ∧ "DB" ∉ database.tables.map (interfaceName c) := by
  have hperm := (ordered_perm c database.tables).map (interfaceName c)
  rw [declaredNames_assembled] at hnodup
  obtain ⟨hfront, _, hlast⟩ := List.nodup_append.mp hnodup
  refine ⟨hperm.nodup_iff.mp (List.nodup_append.mp hfront).2.1, fun hdb => ?_⟩
  -- some table has the name `DB`, so there is an interface of the whole database
  have htables : database.tables.isEmpty = false := by
    cases htables : database.tables with
    | nil => rw [htables] at hdb; exact absurd hdb List.not_mem_nil
    | cons _ _ => rfl
  rw [htables] at hlast
  exact hlast "DB" (List.mem_append_right _ (hperm.mem_iff.mpr hdb)) "DB"
    (List.mem_singleton.mpr rfl) rfl

/-- Aliases have names of their own because no table clashes with them; the rest is a
question of the interfaces. -/
theorem nodup_declaredNames {c : Catalog} (hdefinition : c.definition? "DB" = none)
    {database : Database} (h : clash? c database = none)
    (hinterfaces : (database.tables.map (interfaceName c)).Nodup)
    (hdb : "DB" ∉ database.tables.map (interfaceName c)) :
    (declaredNames (assembled c database)).Nodup := by
  have hperm := (ordered_perm c database.tables).map (interfaceName c)
  have hfree := clash?_eq_none_iff.mp h
  rw [declaredNames_assembled]
  refine List.nodup_append.mpr ⟨List.nodup_append.mpr ⟨?_, hperm.nodup_iff.mpr hinterfaces, ?_⟩,
    ?_, ?_⟩
  · exact ((sortedNames_perm _).nodup_iff.mpr
      (neededNames_exact c database).nodup_definitions).filter _
  · -- an alias and an interface
    intro name hname other hother hsame
    subst hsame
    obtain ⟨t, ht, rfl⟩ := List.mem_map.mp (hperm.mem_iff.mp hother)
    exact (hfree t ht).1 (mem_sortedNames.mp (List.mem_filter.mp hname).1)
  · split
    · exact List.nodup_nil
    · exact List.nodup_cons.mpr ⟨List.not_mem_nil, List.nodup_nil⟩
  · -- either of them and the interface of the whole database
    intro name hname other hother hsame
    subst hsame
    rw [eq_db_of_mem hother] at hname
    rcases List.mem_append.mp hname with halias | hinterface
    · have hsome := (List.mem_filter.mp halias).2
      rw [hdefinition] at hsome
      exact absurd hsome (by simp)
    · exact hdb (hperm.mem_iff.mp hinterface)

/-! ## Dialects -/

/-- **When the declared names are distinct.** In every dialect, the names that a module
declares are distinct from one another and from those that it imports exactly if no two
tables have the same interface name and none of them has the name `DB`. -/
theorem nodup_declaredNames_iff {d : Dialect} {c : Catalog} {database : Database}
    {statements : List Statement} (hc : d.catalog = .ok c)
    (h : assemble c database = .ok statements) :
    ((declaredNames statements).Nodup
      ∧ ∀ name ∈ declaredNames statements, name ∉ importedBindings statements)
      ↔ (database.tables.map (interfaceName c)).Nodup
        ∧ "DB" ∉ database.tables.map (interfaceName c) := by
  obtain ⟨himport, hdefinition⟩ := Dialect.catalog_db hc
  obtain ⟨hclash, rfl⟩ := assemble_eq_ok_iff.mp h
  constructor
  · intro hdistinct
    exact distinct_interfaceNames hdistinct.1
  · intro hdistinct
    obtain ⟨hinterfaces, hdb⟩ := hdistinct
    exact ⟨nodup_declaredNames hdefinition hclash hinterfaces hdb,
      not_mem_importedBindings_of_declared himport hclash⟩

/-- Two tables with names of their own declare two interfaces. -/
theorem nodup_declaredNames_users_orders :
    ∃ c statements, Dialect.bigQuery.catalog = .ok c
      ∧ assemble c { tables := [{ name := "users" }, { name := "orders" }] } = .ok statements
      ∧ (declaredNames statements).Nodup := by
  obtain ⟨c, hc⟩ : ∃ c, Dialect.bigQuery.catalog = .ok c := ⟨_, rfl⟩
  have hclash : clash? c { tables := [{ name := "users" }, { name := "orders" }] } = none :=
    clash?_eq_none_of_no_columns (by simp)
  have hok := assemble_eq_ok_iff.mpr ⟨hclash, rfl⟩
  have hnames : ([{ name := "users" }, { name := "orders" }] : List Table).map (interfaceName c)
      = ["Users", "Orders"] := by
    rw [List.map_cons, List.map_singleton, interfaceName_of_no_schema c rfl,
      interfaceName_of_no_schema c rfl]
    decide
  refine ⟨c, _, hc, hok, ((nodup_declaredNames_iff hc hok).mpr ?_).1⟩
  rw [hnames]
  decide

/-- The tables `a_b` and `a-b` are two tables of one schema, and both of them get an
interface `AB`. -/
theorem declaredNames_collide :
    ∃ c statements, Dialect.bigQuery.catalog = .ok c
      ∧ assemble c { tables := [{ name := "a_b" }, { name := "a-b" }] } = .ok statements
      ∧ ([{ name := "a_b" }, { name := "a-b" }].map fun t => (schemaOf c t, t.name)).Nodup
      ∧ ¬(declaredNames statements).Nodup := by
  obtain ⟨c, hc⟩ : ∃ c, Dialect.bigQuery.catalog = .ok c := ⟨_, rfl⟩
  have hclash : clash? c { tables := [{ name := "a_b" }, { name := "a-b" }] } = none :=
    clash?_eq_none_of_no_columns (by simp)
  have hnames : ([{ name := "a_b" }, { name := "a-b" }] : List Table).map (interfaceName c)
      = ["AB", "AB"] := by
    rw [List.map_cons, List.map_singleton, interfaceName_of_no_schema c rfl,
      interfaceName_of_no_schema c rfl]
    decide
  refine ⟨c, _, hc, assemble_eq_ok_iff.mpr ⟨hclash, rfl⟩, by simp, fun hnodup => ?_⟩
  have hinterfaces := (distinct_interfaceNames hnodup).1
  rw [hnames] at hinterfaces
  exact absurd hinterfaces (by decide)

end SchemaTypes.Assembly
