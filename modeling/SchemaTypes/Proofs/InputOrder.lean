import Mathlib.Data.List.Forall2
import SchemaTypes.Generation
import SchemaTypes.Proofs.Agreement
import SchemaTypes.Proofs.ConstructionOrder
import SchemaTypes.Proofs.Declared
import SchemaTypes.Proofs.TableOrder

/-!
# The order of tables and columns

A database lists its tables in some order, and each table its columns. Neither order
means anything, and `order_irrelevant` says that neither can be seen:

> With other tables first, the same statements are assembled, or the same clash is
> reported. With other columns first, the same static types are written.

The first is a fact about sorting: tables that are told apart by schema and name sort
into one list only. For the second the search for needed names has to be looked at too,
because it starts from other roots. It finds the same names all the same
(`Needs.Exact.perm`), everything that is made of them is sorted (`sortedNames_of_perm`),
and only the interfaces of the tables keep a trace of the order, which the static types
sort away (`statementText_tableInterface`).
-/

namespace SchemaTypes

/-- The same table with its columns in another order. -/
structure Table.ColumnsPermuted (t u : Table) : Prop where
  schema : t.schema = u.schema
  name : t.name = u.name
  columns : t.columns.Perm u.columns

/-- What is needed for the same roots is the same, in some order. -/
theorem Needs.Exact.perm {c : Catalog} {root : String → Prop} {found other : Needs}
    (h : found.Exact c root) (h' : other.Exact c root) :
    found.definitions.Perm other.definitions ∧ found.imports.Perm other.imports := by
  rw [List.perm_ext_iff_of_nodup h.nodup_definitions h'.nodup_definitions,
    List.perm_ext_iff_of_nodup h.nodup_imports h'.nodup_imports]
  constructor
  · intro name
    rw [h.mem_definitions, h'.mem_definitions]
  · intro name
    rw [h.mem_imports, h'.mem_imports]

theorem Needs.contains_congr {found other : Needs}
    (hdefinitions : found.definitions.Perm other.definitions)
    (himports : found.imports.Perm other.imports) : found.contains = other.contains := by
  funext name
  rw [Needs.contains, Needs.contains, hdefinitions.contains_eq, himports.contains_eq]

namespace Assembly

/-! ## Tables in another order -/

theorem ordered_of_perm {c : Catalog} {tables tables' : List Table}
    (hdistinct : (tables.map fun t => (schemaOf c t, t.name)).Nodup)
    (hperm : tables.Perm tables') : ordered c tables = ordered c tables' := by
  rw [ordered, ordered]
  refine mergeSort_eq_of_perm hperm fun t ht u hu hsame => ?_
  obtain ⟨hschema, hname⟩ := compareTables_eq_eq_iff.mp hsame
  exact List.inj_on_of_nodup_map hdistinct ht hu (Prod.ext hschema hname)

theorem assemble_of_perm {c : Catalog} {database database' : Database}
    (hdistinct : (database.tables.map fun t => (schemaOf c t, t.name)).Nodup)
    (hperm : database.tables.Perm database'.tables) :
    assemble c database = assemble c database' := by
  rw [assemble, assemble, ordered_of_perm hdistinct hperm]

/-! ## Columns in another order -/

/-- Sorting looks at what stays the same, so tables end up beside their counterparts. -/
theorem ordered_columnsPermuted (c : Catalog) {tables tables' : List Table}
    (h : List.Forall₂ Table.ColumnsPermuted tables tables') :
    List.Forall₂ Table.ColumnsPermuted (ordered c tables) (ordered c tables') := by
  obtain ⟨hlength, hpairs⟩ := List.forall₂_iff_zip.mp h
  have hschema : ∀ p ∈ tables.zip tables', schemaOf c p.1 = schemaOf c p.2 := by
    intro p hp
    rw [schemaOf, schemaOf, (hpairs hp).schema]
  let pairs := (tables.zip tables').mergeSort fun p q => (compareTables c p.1 q.1).isLE
  have hleft : pairs.map Prod.fst = ordered c tables := by
    rw [ordered, ← List.map_fst_zip (Nat.le_of_eq hlength)]
    exact List.map_mergeSort fun _ _ _ _ => rfl
  have hright : pairs.map Prod.snd = ordered c tables' := by
    rw [ordered, ← List.map_snd_zip (Nat.le_of_eq hlength.symm)]
    refine List.map_mergeSort fun p hp q hq => ?_
    rw [compareTables, compareTables, hschema p hp, hschema q hq, (hpairs hp).name,
      (hpairs hq).name]
  rw [← hleft, ← hright, List.forall₂_map_left_iff, List.forall₂_map_right_iff,
    List.forall₂_same]
  intro p hp
  exact hpairs (List.mem_mergeSort.mp hp)

/-- What is made of schema and name alone is the same for both lists of tables. -/
theorem map_of_columnsPermuted {β : Type} {f : Table → β} {tables tables' : List Table}
    (hf : ∀ t u : Table, t.schema = u.schema → t.name = u.name → f t = f u)
    (h : List.Forall₂ Table.ColumnsPermuted tables tables') : tables.map f = tables'.map f := by
  induction h with
  | nil => rfl
  | cons hhead _ ih => rw [List.map_cons, List.map_cons, ih, hf _ _ hhead.schema hhead.name]

theorem interfaceName_of_schema_name {c : Catalog} (t u : Table) (hschema : t.schema = u.schema)
    (hname : t.name = u.name) : interfaceName c t = interfaceName c u :=
  interfaceName_congr (by rw [schemaOf, schemaOf, hschema]) hname

theorem tableEntry_of_schema_name {c : Catalog} (t u : Table) (hschema : t.schema = u.schema)
    (hname : t.name = u.name) : tableEntry c t = tableEntry c u := by
  have hsame : schemaOf c t = schemaOf c u := by rw [schemaOf, schemaOf, hschema]
  rw [tableEntry, tableEntry, key, key, interfaceName_congr hsame hname, hsame, hname]

variable {c : Catalog} {database database' : Database}

theorem columnRefersTo_of_columnsPermuted
    (h : List.Forall₂ Table.ColumnsPermuted database.tables database'.tables) :
    ColumnRefersTo c database = ColumnRefersTo c database' := by
  obtain ⟨hlength, hpairs⟩ := List.forall₂_iff_zip.mp h
  funext name
  refine propext ⟨fun hname => ?_, fun hname => ?_⟩
  · obtain ⟨t, ht, column, hcolumn, hrefers⟩ := hname
    rw [← List.map_fst_zip (Nat.le_of_eq hlength), List.mem_map] at ht
    obtain ⟨p, hp, rfl⟩ := ht
    exact ⟨p.2, (List.of_mem_zip hp).2, column, (hpairs hp).columns.mem_iff.mp hcolumn, hrefers⟩
  · obtain ⟨u, hu, column, hcolumn, hrefers⟩ := hname
    rw [← List.map_snd_zip (Nat.le_of_eq hlength.symm), List.mem_map] at hu
    obtain ⟨p, hp, rfl⟩ := hu
    exact ⟨p.1, (List.of_mem_zip hp).1, column, (hpairs hp).columns.mem_iff.mpr hcolumn, hrefers⟩

theorem neededNames_perm
    (h : List.Forall₂ Table.ColumnsPermuted database.tables database'.tables) :
    (neededNames c database).definitions.Perm (neededNames c database').definitions
      ∧ (neededNames c database).imports.Perm (neededNames c database').imports := by
  have hexact := neededNames_exact c database'
  rw [← columnRefersTo_of_columnsPermuted h] at hexact
  exact (neededNames_exact c database).perm hexact

theorem boundNames_perm
    (h : List.Forall₂ Table.ColumnsPermuted database.tables database'.tables) :
    (boundNames c database).Perm (boundNames c database') := by
  have htables : database.tables = [] ↔ database'.tables = [] := by
    rw [List.eq_nil_iff_length_eq_zero, List.eq_nil_iff_length_eq_zero, h.length_eq]
  rw [List.perm_ext_iff_of_nodup (nodup_boundNames c _) (nodup_boundNames c _)]
  intro name
  rw [mem_boundNames, mem_boundNames, (neededNames_perm h).2.mem_iff, ne_eq, ne_eq, htables]

theorem sortedNames_of_perm {names names' : List String} (h : names.Perm names') :
    sortedNames names = sortedNames names' :=
  mergeSort_eq_of_perm h fun _ _ _ _ hsame => Std.LawfulEqCmp.eq_of_compare hsame

theorem aliases_of_perm {names names' : List String} (h : names.Perm names') :
    aliases c names = aliases c names' := by
  rw [aliases, aliases, sortedNames_of_perm h]

theorem importsOf_perm {names names' : List String} (h : names.Perm names') :
    (modulesOf c names).map (importOf c names) = (modulesOf c names').map (importOf c names') := by
  have hmodules : modulesOf c names = modulesOf c names' := by
    rw [modulesOf, modulesOf, sortedNames_of_perm (h.filterMap _)]
  rw [hmodules]
  apply List.map_congr_left
  intro module _
  rw [importOf, importOf, namesFrom, namesFrom, sortedNames_of_perm h]

/-- The clash that is reported, by its name. -/
theorem map_clash? (c : Catalog) (database : Database) :
    (clash? c database).map (interfaceName c)
      = ((ordered c database.tables).map (interfaceName c)).find?
          (neededNames c database).contains := by
  rw [List.find?_map]
  rfl

theorem clash?_of_columnsPermuted
    (h : List.Forall₂ Table.ColumnsPermuted database.tables database'.tables) :
    (clash? c database).map (interfaceName c) = (clash? c database').map (interfaceName c) := by
  obtain ⟨hdefinitions, himports⟩ := neededNames_perm (c := c) h
  rw [map_clash?, map_clash?, Needs.contains_congr hdefinitions himports,
    map_of_columnsPermuted interfaceName_of_schema_name (ordered_columnsPermuted c h)]

/-! ## The static types -/

/-- An interface is written in the order of its keys. -/
theorem statementText_tableInterface {t u : Table} (options : StaticType.Options)
    (h : t.ColumnsPermuted u) (hcolumns : (t.columns.map (·.name)).Nodup) :
    StaticType.statementText options (tableInterface c t)
      = StaticType.statementText options (tableInterface c u) := by
  have hkeys : ((tableMembers c t).map (·.key)).Nodup := by
    rw [tableMembers, List.map_map]
    exact hcolumns
  have htext := StaticType.text_object_of_perm hkeys (h.columns.map (columnMember c)) 0
  rw [tableInterface, tableInterface, Statement.exportInterface, Statement.exportInterface,
    StaticType.statementText, StaticType.statementText, StaticType.declarationText,
    StaticType.declarationText, htext, interfaceName_of_schema_name t u h.schema h.name]
  rfl

theorem map_oneForm_tableInterface {tables tables' : List Table} (options : StaticType.Options)
    (h : List.Forall₂ Table.ColumnsPermuted tables tables')
    (hcolumns : ∀ t ∈ tables, (t.columns.map (·.name)).Nodup) :
    (tables.map (tableInterface c)).map (Module.oneForm (StaticType.statementText options))
      = (tables'.map (tableInterface c)).map
          (Module.oneForm (StaticType.statementText options)) := by
  induction h with
  | nil => rfl
  | @cons t u _ _ hhead _ ih =>
    obtain ⟨ht, hrest⟩ := List.forall_mem_cons.mp hcolumns
    have hpiece : Module.oneForm (StaticType.statementText options) (tableInterface c t)
        = Module.oneForm (StaticType.statementText options) (tableInterface c u) := by
      rw [Module.oneForm, Module.oneForm, statementText_tableInterface options hhead ht]
      rfl
    simp only [List.map_cons, hpiece, ih hrest]

theorem types_assembled (options : StaticType.Options)
    (h : List.Forall₂ Table.ColumnsPermuted database.tables database'.tables)
    (hcolumns : ∀ t ∈ database.tables, (t.columns.map (·.name)).Nodup) :
    Module.types options (assembled c database) = Module.types options (assembled c database') := by
  have hordered := ordered_columnsPermuted c h
  have hinterfaces := map_oneForm_tableInterface (c := c) options hordered
    fun t ht => hcolumns t ((ordered_perm c _).mem_iff.mp ht)
  have hbound : ∀ d : Database,
      importedNames (neededNames c d) (ordered c d.tables) = boundNames c d := by
    intro d
    rw [boundNames, importedNames, importedNames, ordered_isEmpty]
  have hdatabase : databaseInterface c (ordered c database.tables)
      = databaseInterface c (ordered c database'.tables) := by
    have hempty : (ordered c database.tables).isEmpty = (ordered c database'.tables).isEmpty := by
      rw [Bool.eq_iff_iff, List.isEmpty_iff_length_eq_zero, List.isEmpty_iff_length_eq_zero,
        hordered.length_eq]
    rw [databaseInterface, databaseInterface, hempty,
      map_of_columnsPermuted tableEntry_of_schema_name hordered]
  -- the interfaces are the only statements that differ, and their static types do not
  have hstatements : (assembled c database).map
        (Module.oneForm (StaticType.statementText options))
      = (assembled c database').map (Module.oneForm (StaticType.statementText options)) := by
    simp only [assembled, hbound, List.map_append, hinterfaces]
    rw [importsOf_perm (boundNames_perm h), aliases_of_perm (neededNames_perm h).1, hdatabase]
  rw [Module.types, Module.types, Module.textInForm, Module.textInForm, hstatements]

end Assembly

/-- The static types of a module that is written as two. -/
theorem Module.blocks_types (options : StaticType.Options) (ss : List Statement) :
    (Module.blocks options ss).map Module.Blocks.types = Module.types options ss := by
  rw [Module.blocks]
  cases htypes : Module.types options ss with
  | error e => rfl
  | ok t =>
    obtain ⟨v, hv⟩ := Module.validators_ok_of_types htypes
    rw [hv]
    rfl

namespace Assembly

/-- The static types for a database, or why there are none. -/
def typesBlock (options : StaticType.Options) (c : Catalog) (database : Database) :
    Except GenerateError String := do
  let statements ← (assemble c database).mapError .build
  ((Module.blocks options statements).map Module.Blocks.types).mapError .render

theorem typesBlock_of_columnsPermuted {c : Catalog} {database database' : Database}
    (options : StaticType.Options)
    (h : List.Forall₂ Table.ColumnsPermuted database.tables database'.tables)
    (hcolumns : ∀ t ∈ database.tables, (t.columns.map (·.name)).Nodup) :
    typesBlock options c database = typesBlock options c database' := by
  have hclash := clash?_of_columnsPermuted (c := c) h
  simp only [typesBlock, Module.blocks_types]
  rw [assemble_eq, assemble_eq]
  cases hleft : clash? c database with
  | some t =>
    cases hright : clash? c database' with
    | some u =>
      rw [hleft, hright] at hclash
      have hname : interfaceName c t = interfaceName c u := Option.some.inj hclash
      simp only [hname]
    | none =>
      rw [hleft, hright] at hclash
      cases hclash
  | none =>
    cases hright : clash? c database' with
    | some u =>
      rw [hleft, hright] at hclash
      cases hclash
    | none =>
      have htypes := types_assembled (c := c) options h hcolumns
      show (Module.types options (assembled c database)).mapError GenerateError.render
        = (Module.types options (assembled c database')).mapError GenerateError.render
      rw [htypes]

/-- **The order of tables and columns is irrelevant.** For tables that are told apart by
schema and name: permuted, they give the same statements or the same clash, and so the
same module; and with their columns permuted, which have different names in each table,
they give the same static types, or fail alike. -/
theorem order_irrelevant {c : Catalog} {database database' : Database}
    (hdistinct : (database.tables.map fun t => (schemaOf c t, t.name)).Nodup) :
    (database.tables.Perm database'.tables →
      assemble c database = assemble c database'
      ∧ ∀ options d, d.catalog = .ok c →
        generate options d database = generate options d database')
    ∧ ((∀ t ∈ database.tables, (t.columns.map (·.name)).Nodup) →
      List.Forall₂ Table.ColumnsPermuted database.tables database'.tables →
      ∀ options, typesBlock options c database = typesBlock options c database') := by
  constructor
  · intro hperm
    have hassemble := assemble_of_perm hdistinct hperm
    refine ⟨hassemble, fun options d hcatalog => ?_⟩
    rw [generate, generate, hcatalog]
    show (assemble c database).mapError _ >>= _ = (assemble c database').mapError _ >>= _
    rw [hassemble]
  · intro hcolumns hpermuted options
    exact typesBlock_of_columnsPermuted options hpermuted hcolumns

/-- A table with these columns and one without, in the same schema said in two ways. -/
def customersAndOrders (columns : List Column) : Database where
  tables := [{ name := "customers", columns }, { schema := some "default", name := "orders" }]

/-- Two tables in either order make one module, and two columns the same static types. -/
theorem order_irrelevant_customers_orders :
    generate {} .bigQuery (customersAndOrders [{ name := "id", dataType := "INT64", hasDefault := true }])
      = generate {} .bigQuery
          ⟨(customersAndOrders [{ name := "id", dataType := "INT64", hasDefault := true }]).tables.reverse⟩
    ∧ ∃ c, Dialect.bigQuery.catalog = .ok c
      ∧ typesBlock {} c (customersAndOrders
          [{ name := "id", dataType := "INT64" }, { name := "at", dataType := "DATE" }])
        = typesBlock {} c (customersAndOrders
          [{ name := "at", dataType := "DATE" }, { name := "id", dataType := "INT64" }]) := by
  obtain ⟨c, hc, hschema⟩ : ∃ c, Dialect.bigQuery.catalog = .ok c ∧ c.defaultSchema = "default" :=
    ⟨_, rfl, rfl⟩
  have hdistinct : ∀ columns, ((customersAndOrders columns).tables.map
      fun t => (schemaOf c t, t.name)).Nodup := by
    intro columns
    simp [customersAndOrders, schemaOf, hschema]
  constructor
  · exact ((order_irrelevant (hdistinct _)).1 (List.reverse_perm _).symm).2 {} .bigQuery hc
  · refine ⟨c, hc, (order_irrelevant (hdistinct _)).2 ?_ ?_ {}⟩
    · simp [customersAndOrders]
    · exact .cons ⟨rfl, rfl, .swap _ _ _⟩ (.cons ⟨rfl, rfl, .refl _⟩ .nil)

end Assembly

end SchemaTypes
