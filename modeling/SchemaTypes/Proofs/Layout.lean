import SchemaTypes.Proofs.Declared
import SchemaTypes.Proofs.StableSort
import SchemaTypes.Proofs.TableOrder

/-!
# The layout of a module

The parts of an assembled module follow one another in a fixed order, and each part is in
an order of its own. `Layout` has a place for every part, and `Layout.Complete` says what
stands there:

> `assemble_layout`: imports by module, and in each of them its names; aliases by name;
> one interface for each table, the tables sorted and their columns as they are; and last
> the interface `DB`, if there is a table, with one property for each of them.

Whatever comes in strictly ascending order comes once. That nothing is missing is said
apart: of imports and aliases by what the columns need, of tables by their sort, of
columns one by one.
-/

namespace SchemaTypes.Assembly

/-- A table and the interface that is exported for it. -/
structure Entry where
  table : Table
  name : String
  properties : List Property

/-- The parts of a module, in the order in which they come. -/
structure Layout where
  imports : List Import
  aliases : List (String × AliasBody)
  entries : List Entry
  /-- The properties of `DB`, if there is one. -/
  database : Option (List Property)

/-- The parts as one list of statements. -/
def Layout.statements (l : Layout) : List Statement :=
  l.imports.map .imports
    ++ l.aliases.map (fun a => .exportAlias a.1 a.2)
    ++ l.entries.map (fun e => .exportInterface e.name e.properties)
    ++ l.database.toList.map (.exportInterface "DB")

/-- The import has something to import, in the order of the names, and all of it is bound
to its module. -/
structure ImportComplete (c : Catalog) (i : Import) : Prop where
  nonempty : i.clauses ≠ []
  ascending : (i.clauses.map ImportClause.binding).Pairwise (· < ·)
  bound : ∀ clause ∈ i.clauses,
    clause.localName = none ∧ c.moduleOf? clause.name = some i.module

/-- The interface has one property for each column, in their order. -/
structure Entry.Complete (c : Catalog) (e : Entry) : Prop where
  name : e.name = interfaceName c e.table
  properties : List.Forall₂ (fun column p => columnProperty c column = .ok p ∧ p.key = column.name)
    e.table.columns e.properties

/-- The property leads from the key of the table to its interface. -/
structure Entry.Listed (c : Catalog) (e : Entry) (p : Property) : Prop where
  key_default : schemaOf c e.table = c.defaultSchema → p.key = e.table.name
  key_other : schemaOf c e.table ≠ c.defaultSchema →
    p.key = schemaOf c e.table ++ "." ++ e.table.name
  value : p.value = .identifier ⟨e.name, .reference⟩

/-- Every part is what it has to be for the database. -/
structure Layout.Complete (c : Catalog) (database : Database) (l : Layout) : Prop where
  modules_ascending : (l.imports.map (·.module)).Pairwise (· < ·)
  imports : ∀ i ∈ l.imports, ImportComplete c i
  mem_imports : ∀ module name,
    (∃ i ∈ l.imports, i.module = module ∧ name ∈ i.clauses.map ImportClause.binding) ↔
      c.moduleOf? name = some module
        ∧ (Needed c (ColumnRefersTo c database) name ∨ name = "z" ∧ database.tables ≠ [])
  aliases_ascending : (l.aliases.map (·.1)).Pairwise (· < ·)
  mem_aliases : ∀ name body, (name, body) ∈ l.aliases ↔
    Needed c (ColumnRefersTo c database) name
      ∧ c.moduleOf? name = none ∧ c.definition? name = some body
  tables : StableSort (compareLex (compareOn (schemaOf c)) (compareOn Table.name))
    database.tables (l.entries.map (·.table))
  entries : ∀ e ∈ l.entries, e.Complete c
  database_isSome : l.database.isSome ↔ database.tables ≠ []
  database : ∀ properties, l.database = some properties →
    List.Forall₂ (Entry.Listed c) l.entries properties

/-! ## Names in ascending order -/

theorem sortedNames_pairwise (names : List String) :
    (sortedNames names).Pairwise fun a b => (compare a b).isLE :=
  pairwise_mergeSort_cmp compare names

theorem modulesOf_ascending (c : Catalog) (names : List String) :
    (modulesOf c names).Pairwise (· < ·) :=
  pairwise_lt_of_nodup ((sortedNames_pairwise _).sublist (eraseDups_sublist _))
    (nodup_modulesOf c names)

theorem sortedNames_ascending {names : List String} (h : names.Nodup) :
    (sortedNames names).Pairwise (· < ·) :=
  pairwise_lt_of_nodup (sortedNames_pairwise names) ((sortedNames_perm names).nodup_iff.mpr h)

theorem aliasNames_ascending (c : Catalog) (database : Database) :
    ((exportedAliases (assembled c database)).map (·.1)).Pairwise (· < ·) := by
  rw [aliasNames_assembled]
  exact (sortedNames_ascending (neededNames_exact c database).nodup_definitions).sublist
    List.filter_sublist

/-! ## The parts of an assembled module -/

/-- The import of those of the names that come from the module. -/
def importFrom (c : Catalog) (names : List String) (module : String) : Import :=
  ⟨module, (namesFrom c names module).map fun name => ⟨name, none⟩⟩

/-- The parts of the module for a database. -/
def layoutOf (c : Catalog) (database : Database) : Layout where
  imports := (modulesOf c (boundNames c database)).map (importFrom c (boundNames c database))
  aliases := exportedAliases (assembled c database)
  entries := (ordered c database.tables).map fun t =>
    { table := t, name := interfaceName c t, properties := tableMembers c t }
  database :=
    if database.tables.isEmpty then none
    else some ((ordered c database.tables).map (tableEntry c))

theorem statements_layoutOf (c : Catalog) (database : Database) :
    (layoutOf c database).statements = assembled c database := by
  have haliases : (exportedAliases (assembled c database)).map
      (fun a => Statement.exportAlias a.1 a.2)
        = aliases c (neededNames c database).definitions := by
    rw [exportedAliases_assembled, aliases, List.map_filterMap]
    congr 1
    funext name
    cases c.definition? name <;> rfl
  have hdatabase : (layoutOf c database).database.toList.map (Statement.exportInterface "DB")
      = databaseInterface c (ordered c database.tables) := by
    rw [layoutOf, databaseInterface, ordered_isEmpty]
    split <;> rfl
  rw [Layout.statements, hdatabase, assembled]
  simp only [layoutOf, haliases, importedNames_ordered, List.map_map]
  rfl

theorem binding_importFrom (c : Catalog) (names : List String) (module : String) :
    (importFrom c names module).clauses.map ImportClause.binding = namesFrom c names module := by
  rw [importFrom, List.map_map]
  exact List.map_id _

theorem importFrom_complete {c : Catalog} {names : List String} (hnodup : names.Nodup)
    {module : String} (hmodule : module ∈ modulesOf c names) :
    ImportComplete c (importFrom c names module) where
  nonempty := by
    -- the module is there because of a name that comes from it
    obtain ⟨name, hname, hfrom⟩ := mem_modulesOf.mp hmodule
    exact List.ne_nil_of_mem (List.mem_map_of_mem (mem_namesFrom.mpr ⟨hname, hfrom⟩))
  ascending := by
    rw [binding_importFrom]
    exact (sortedNames_ascending hnodup).sublist List.filter_sublist
  bound := by
    intro clause hclause
    obtain ⟨name, hname, rfl⟩ := List.mem_map.mp hclause
    exact ⟨rfl, (mem_namesFrom.mp hname).2⟩

theorem entry_complete (c : Catalog) (t : Table) :
    Entry.Complete c { table := t, name := interfaceName c t, properties := tableMembers c t } where
  name := rfl
  properties := by
    show List.Forall₂ _ t.columns (t.columns.map (columnMember c))
    rw [List.forall₂_map_right_iff, List.forall₂_same]
    intro column _
    exact ⟨columnProperty_eq_ok c column, rfl⟩

theorem entry_listed (c : Catalog) (t : Table) (properties : List Property) :
    Entry.Listed c { table := t, name := interfaceName c t, properties } (tableEntry c t) where
  key_default h := if_pos h
  key_other h := if_neg h
  value := rfl

/-- A name that a module has is bound if it is needed, or if it is the name of the
validators and there is a table. -/
theorem mem_boundNames_of_moduleOf? {c : Catalog} {database : Database} {name module : String}
    (h : c.moduleOf? name = some module) :
    name ∈ boundNames c database ↔
      Needed c (ColumnRefersTo c database) name ∨ name = "z" ∧ database.tables ≠ [] := by
  have himport : (c.moduleOf? name).isSome := by rw [h]; rfl
  have hneeded : name ∈ (neededNames c database).imports ↔
      Needed c (ColumnRefersTo c database) name := by
    rw [(neededNames_exact c database).mem_imports]
    exact ⟨fun h => h.1, fun h => ⟨h, himport⟩⟩
  rw [mem_boundNames, hneeded]
  exact Iff.rfl

theorem mem_exportedAliases_iff_needed {c : Catalog} {database : Database} {name : String}
    {body : AliasBody} :
    (name, body) ∈ exportedAliases (assembled c database) ↔
      Needed c (ColumnRefersTo c database) name
        ∧ c.moduleOf? name = none ∧ c.definition? name = some body := by
  rw [mem_exportedAliases, (neededNames_exact c database).mem_definitions]
  constructor
  · intro h
    obtain ⟨⟨hneeded, himport, _⟩, hbody⟩ := h
    exact ⟨hneeded, himport, hbody⟩
  · intro h
    obtain ⟨hneeded, himport, hbody⟩ := h
    exact ⟨⟨hneeded, himport, by rw [hbody]; rfl⟩, hbody⟩

theorem layoutOf_complete (c : Catalog) (database : Database) :
    (layoutOf c database).Complete c database where
  modules_ascending := by
    have hmodules : (layoutOf c database).imports.map (·.module)
        = modulesOf c (boundNames c database) := by
      rw [layoutOf, List.map_map]
      exact List.map_id _
    rw [hmodules]
    exact modulesOf_ascending c _
  imports := by
    intro i hi
    obtain ⟨module, hmodule, rfl⟩ := List.mem_map.mp hi
    exact importFrom_complete (nodup_boundNames c database) hmodule
  mem_imports := by
    intro module name
    constructor
    · intro h
      obtain ⟨i, hi, hmodule, hname⟩ := h
      obtain ⟨other, _, rfl⟩ := List.mem_map.mp hi
      rw [binding_importFrom] at hname
      obtain ⟨hbound, hfrom⟩ := mem_namesFrom.mp hname
      have hsame : other = module := hmodule
      rw [hsame] at hfrom
      exact ⟨hfrom, (mem_boundNames_of_moduleOf? hfrom).mp hbound⟩
    · intro h
      obtain ⟨hfrom, hneeded⟩ := h
      have hbound := (mem_boundNames_of_moduleOf? hfrom).mpr hneeded
      refine ⟨importFrom c (boundNames c database) module,
        List.mem_map_of_mem (mem_modulesOf.mpr ⟨name, hbound, hfrom⟩), rfl, ?_⟩
      rw [binding_importFrom]
      exact mem_namesFrom.mpr ⟨hbound, hfrom⟩
  aliases_ascending := aliasNames_ascending c database
  mem_aliases _ _ := mem_exportedAliases_iff_needed
  tables := by
    have htables : (layoutOf c database).entries.map (·.table) = ordered c database.tables := by
      rw [layoutOf, List.map_map]
      exact List.map_id _
    rw [htables]
    exact mergeSort_stableSort (compareTables c) database.tables
  entries := by
    intro e he
    obtain ⟨t, _, rfl⟩ := List.mem_map.mp he
    exact entry_complete c t
  database_isSome := by
    rw [layoutOf]
    split <;> simp_all
  database := by
    intro properties hproperties
    rw [layoutOf] at hproperties
    split at hproperties
    · cases hproperties
    · cases hproperties
      rw [layoutOf, List.forall₂_map_left_iff, List.forall₂_map_right_iff, List.forall₂_same]
      intro t _
      exact entry_listed c t _

/-- **What is where in a module.** The statements for a database are the parts of a layout,
one after the other, and every part is there, in order and complete. -/
theorem assemble_layout {c : Catalog} {database : Database} {statements : List Statement}
    (h : assemble c database = .ok statements) :
    ∃ l : Layout, l.statements = statements ∧ l.Complete c database := by
  obtain ⟨_, rfl⟩ := assemble_eq_ok_iff.mp h
  exact ⟨layoutOf c database, statements_layoutOf c database, layoutOf_complete c database⟩

/-- A table of another schema, and two of one name in the default schema. -/
def parksDatabase : Database where
  tables := [{ schema := some "west", name := "grove" },
    { name := "park", columns := [{ name := "oak", dataType := "tree" }] },
    { schema := some "default", name := "park" }]

theorem clash?_parksDatabase : clash? circularCatalog parksDatabase = none :=
  clash?_eq_none_of_unknown (by decide)

/-- Two tables of one name are both there, the first one first. -/
theorem assemble_layout_parks :
    ∃ (statements : List Statement) (l : Layout),
      assemble circularCatalog parksDatabase = .ok statements
      ∧ l.statements = statements ∧ l.Complete circularCatalog parksDatabase
      ∧ (l.entries.map (·.table)).filter
          (fun t => (compareTables circularCatalog { name := "park" } t).isEq)
        = [{ name := "park", columns := [{ name := "oak", dataType := "tree" }] },
          { schema := some "default", name := "park" }] := by
  have hok : assemble circularCatalog parksDatabase
      = .ok (assembled circularCatalog parksDatabase) :=
    assemble_eq_ok_iff.mpr ⟨clash?_parksDatabase, rfl⟩
  obtain ⟨l, hstatements, hcomplete⟩ := assemble_layout hok
  exact ⟨_, l, hok, hstatements, hcomplete,
    (hcomplete.tables.stable { name := "park" }).trans (by decide)⟩

end SchemaTypes.Assembly
