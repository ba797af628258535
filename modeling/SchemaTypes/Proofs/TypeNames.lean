import SchemaTypes.Proofs.Clash

/-!
# What the type names in columns mean

A column refers to types by their names alone, and a module declares names of its own: an
alias for each definition that is needed, and an interface for each table. The clash check
keeps the interfaces away from the names that the catalog defines or imports. It does not
keep them away from names that are built into the language of the modules, and two of
these can be the name of an interface:

> `captured_iff_builtIn`: in every dialect a type name in a column is that of an alias or
> built in; and it is the name of a table's interface as well exactly if a table has the
> interface `Date` or `Buffer` and a column has the scalar type of that name.

A column refers to its scalar type, and otherwise to `Generated` and `null` at most
(`columnRefersTo_iff`).
-/

namespace SchemaTypes

/-! ## The names in a column -/

namespace Expression

variable {name : String}

theorem references_ite_array (b : Bool) (e : Expression) :
    (if b then .array e else e : Expression).references = e.references := by
  cases b <;> rfl

theorem mem_references_ite_generated (b : Bool) (e : Expression) :
    name ∈ (if b then .generic "Generated" [e] else e : Expression).references ↔
      b ∧ name = "Generated" ∨ name ∈ e.references := by
  cases b <;> simp [references, referencesOfAll]

theorem mem_references_ite_nullable (b : Bool) (e : Expression) :
    name ∈ (if b then e.nullable else e).references ↔
      name ∈ e.references ∨ b ∧ name = "null" := by
  cases b <;> simp [nullable, null, named, Identifier.named, references, referencesOfAll]

end Expression

namespace Assembly

variable {c : Catalog} {database : Database} {name : String}

theorem mem_references_columnExpression {column : Column} :
    name ∈ (columnExpression c column).references ↔
      (column.hasDefault || column.isAutoIncrementing) ∧ name = "Generated"
        ∨ name ∈ (c.resolve column.dataType).expression.references
        ∨ (column.isNullable || (c.resolve column.dataType).isNullable) ∧ name = "null" := by
  rw [columnExpression, Expression.mem_references_ite_nullable,
    Expression.mem_references_ite_generated, Expression.references_ite_array, or_assoc]

/-- The name stands in the type of a column, in the interface of some table. -/
def InColumn (statements : List Statement) (name : String) : Prop :=
  ∃ i ∈ tableInterfaces statements, ∃ p ∈ i.2, name ∈ p.value.references

theorem inColumn_assembled :
    InColumn (assembled c database) name ↔ ColumnRefersTo c database name := by
  rw [← mem_columnReferences_ordered, mem_columnReferences, InColumn, tableInterfaces_assembled]
  constructor
  · intro h
    obtain ⟨i, hi, p, hp, hname⟩ := h
    obtain ⟨t, ht, rfl⟩ := List.mem_map.mp hi
    obtain ⟨column, hcolumn, rfl⟩ := List.mem_map.mp hp
    exact ⟨t, ht, column, hcolumn, hname⟩
  · intro h
    obtain ⟨t, ht, column, hcolumn, hname⟩ := h
    exact ⟨_, List.mem_map_of_mem ht, _, List.mem_map_of_mem hcolumn, hname⟩

theorem mem_tableInterfaceNames :
    name ∈ (tableInterfaces (assembled c database)).map (·.1) ↔
      ∃ t ∈ database.tables, interfaceName c t = name := by
  rw [tableInterfaces_assembled, List.map_map, List.mem_map]
  simp only [(ordered_perm c database.tables).mem_iff, Function.comp_apply]

/-- A name that a column refers to and an interface has is new to the catalog. -/
theorem unknown_of_captured (h : clash? c database = none)
    (hcolumn : ColumnRefersTo c database name) {t : Table} (ht : t ∈ database.tables)
    (hname : interfaceName c t = name) : c.moduleOf? name = none ∧ c.definition? name = none := by
  have hfree : ¬Required c database (interfaceName c t) := by
    intro hrequired
    obtain ⟨u, hclash⟩ := clash?_ne_none_of_required ht hrequired
    rw [h] at hclash
    cases hclash
  rw [hname] at hfree
  -- the column needs the name, so all that keeps it from being required is the catalog
  have himport : c.moduleOf? name = none := by
    by_contra himport
    exact hfree ⟨.root hcolumn, .inl (Option.isSome_iff_ne_none.mpr himport)⟩
  refine ⟨himport, ?_⟩
  by_contra hdefinition
  exact hfree ⟨.root hcolumn, .inr ⟨himport, Option.isSome_iff_ne_none.mpr hdefinition⟩⟩

/-! ## Dialects -/

/-- The names of types that a module has without declaring or importing them. -/
def builtInNames : List String := ["number", "string", "null", "Date", "Buffer"]

section Dialects

variable {d : Dialect}

theorem columnRefersTo_iff (hc : d.catalog = .ok c) :
    ColumnRefersTo c database name ↔ ∃ t ∈ database.tables, ∃ column ∈ t.columns,
      (column.hasDefault || column.isAutoIncrementing) ∧ name = "Generated"
        ∨ name = d.typeName column.dataType
        ∨ (column.isNullable || (c.resolve column.dataType).isNullable) ∧ name = "null" := by
  rw [← mem_columnReferences_ordered, mem_columnReferences]
  simp only [mem_references_columnExpression, Dialect.resolve_expression hc,
    (ordered_perm c database.tables).mem_iff, Expression.named, Identifier.named,
    Expression.references, List.mem_singleton]

/-- A type name in a column is defined or built in, and not imported. -/
theorem defined_or_builtIn (hc : d.catalog = .ok c) (h : ColumnRefersTo c database name) :
    c.moduleOf? name = none ∧ ((c.definition? name).isSome ∨ name ∈ builtInNames) := by
  have hnames : ∀ name ∈ "Generated" :: "null" :: Dialect.typeNames,
      name ∉ Dialect.imports.map (·.1)
        ∧ (name ∈ Dialect.definitionNames ∨ name ∈ builtInNames) := by
    decide
  have hname : name ∈ "Generated" :: "null" :: Dialect.typeNames := by
    obtain ⟨t, _, column, _, ⟨_, rfl⟩ | rfl | ⟨_, rfl⟩⟩ := (columnRefersTo_iff hc).mp h
    · exact List.mem_cons_self
    · exact List.mem_cons_of_mem _ (List.mem_cons_of_mem _ (d.typeName_mem column.dataType))
    · exact List.mem_cons_of_mem _ List.mem_cons_self
  obtain ⟨himport, hdefined⟩ := hnames name hname
  rw [← Dialect.isSome_moduleOf?_iff hc, Option.not_isSome_iff_eq_none] at himport
  rw [← Dialect.isSome_definition?_iff hc] at hdefined
  exact ⟨himport, hdefined⟩

/-- Interfaces with names that the dialects neither define nor import do not clash. -/
theorem clash?_eq_none_of_free (hc : d.catalog = .ok c)
    (h : ∀ name ∈ database.tables.map (interfaceName c),
      name ∉ Dialect.imports.map (·.1) ∧ name ∉ Dialect.definitionNames) :
    clash? c database = none := by
  refine clash?_eq_none_of_unknown fun name hname => ?_
  obtain ⟨himport, hdefinition⟩ := h name hname
  rw [← Dialect.isSome_moduleOf?_iff hc, Option.not_isSome_iff_eq_none] at himport
  rw [← Dialect.isSome_definition?_iff hc, Option.not_isSome_iff_eq_none] at hdefinition
  exact ⟨Option.isNone_iff_eq_none.mpr himport, Option.isNone_iff_eq_none.mpr hdefinition⟩

theorem builtIn_of_captured (hc : d.catalog = .ok c) (hclash : clash? c database = none)
    (hcolumn : ColumnRefersTo c database name) {t : Table} (ht : t ∈ database.tables)
    (hname : interfaceName c t = name) : name = "Date" ∨ name = "Buffer" := by
  obtain ⟨_, hundefined⟩ := unknown_of_captured hclash hcolumn ht hname
  rcases (defined_or_builtIn hc hcolumn).2 with hdefined | hbuiltIn
  · rw [hundefined] at hdefined
    cases hdefined
  · -- no interface has a name that starts with a small letter
    simp only [builtInNames, List.mem_cons, List.not_mem_nil, or_false] at hbuiltIn
    rcases hbuiltIn with hlower | hlower | hlower | hdate | hbuffer
    · exact absurd (hname.trans hlower) (interfaceName_ne_of_isLower c t rfl (by decide))
    · exact absurd (hname.trans hlower) (interfaceName_ne_of_isLower c t rfl (by decide))
    · exact absurd (hname.trans hlower) (interfaceName_ne_of_isLower c t rfl (by decide))
    · exact .inl hdate
    · exact .inr hbuffer

/-- **Only built-in types are captured.** In every dialect, a type name in a column is the
name of an alias or built in. It is the name of a table's interface as well exactly if it is
`Date` or `Buffer`, a table has the interface of that name, and a column has the scalar
type of that name. -/
theorem captured_iff_builtIn {statements : List Statement} (hc : d.catalog = .ok c)
    (h : assemble c database = .ok statements) (name : String) :
    (InColumn statements name →
      name ∈ (exportedAliases statements).map (·.1) ∨ name ∈ builtInNames)
    ∧ (InColumn statements name ∧ name ∈ (tableInterfaces statements).map (·.1) ↔
      (name = "Date" ∨ name = "Buffer") ∧ (∃ t ∈ database.tables, interfaceName c t = name)
        ∧ ∃ t ∈ database.tables, ∃ column ∈ t.columns, d.typeName column.dataType = name) := by
  obtain ⟨hclash, rfl⟩ := assemble_eq_ok_iff.mp h
  rw [inColumn_assembled, mem_tableInterfaceNames]
  constructor
  · intro hcolumn
    obtain ⟨himport, hdefined | hbuiltIn⟩ := defined_or_builtIn hc hcolumn
    · have hexact := neededNames_exact c database
      exact .inl (mem_aliasNames.mpr
        ((hexact.mem_definitions name).mpr ⟨.root hcolumn, himport, hdefined⟩))
    · exact .inr hbuiltIn
  · constructor
    · intro hcaptured
      obtain ⟨hrefers, t, ht, hname⟩ := hcaptured
      have hbuiltIn := builtIn_of_captured hc hclash hrefers ht hname
      refine ⟨hbuiltIn, ⟨t, ht, hname⟩, ?_⟩
      -- the name is neither `Generated` nor `null`, which leaves the scalar type
      obtain ⟨u, hu, column, hcolumn, ⟨_, rfl⟩ | rfl | ⟨_, rfl⟩⟩ :=
        (columnRefersTo_iff hc).mp hrefers
      · exact absurd hbuiltIn (by decide)
      · exact ⟨u, hu, column, hcolumn, rfl⟩
      · exact absurd hbuiltIn (by decide)
    · intro hbuiltIn
      obtain ⟨_, hinterface, t, ht, column, hcolumn, hname⟩ := hbuiltIn
      exact ⟨(columnRefersTo_iff hc).mpr ⟨t, ht, column, hcolumn, .inr (.inl hname.symm)⟩,
        hinterface⟩

end Dialects

/-- A table that is called like a type, with a column of that type. -/
def datesTable : Table where
  name := "date"
  columns := [{ name := "day", dataType := "date" }]

theorem interfaceName_datesTable (c : Catalog) : interfaceName c datesTable = "Date" := by
  rw [interfaceName_of_no_schema c rfl]
  decide

theorem assemble_datesTable {d : Dialect} (hc : d.catalog = .ok c) :
    assemble c ⟨[datesTable]⟩ = .ok (assembled c ⟨[datesTable]⟩) := by
  refine assemble_eq_ok_iff.mpr ⟨clash?_eq_none_of_free hc ?_, rfl⟩
  rw [List.map_singleton, interfaceName_datesTable]
  decide

/-- The interface `Date` of the table stands where its column means the built-in type. -/
theorem captured_iff_builtIn_date :
    ∃ c statements, Dialect.clickHouse.catalog = .ok c
      ∧ assemble c ⟨[datesTable]⟩ = .ok statements
      ∧ InColumn statements "Date" ∧ "Date" ∈ (tableInterfaces statements).map (·.1) := by
  obtain ⟨c, hc⟩ : ∃ c, Dialect.clickHouse.catalog = .ok c := ⟨_, rfl⟩
  have hok := assemble_datesTable hc
  obtain ⟨_, hcaptured⟩ := captured_iff_builtIn hc hok "Date"
  have hdate : Dialect.clickHouse.typeName "date" = "Date" := by cbv
  exact ⟨c, _, hc, hok, hcaptured.mpr ⟨.inl rfl,
    ⟨datesTable, List.mem_cons_self, interfaceName_datesTable c⟩,
    datesTable, List.mem_cons_self, _, List.mem_cons_self, hdate⟩⟩

/-- The table `date` has the interface `Date`, and the type of its column is called `Date`
as well. -/
theorem date_captured :
    ∃ c statements, Dialect.bigQuery.catalog = .ok c
      ∧ assemble c ⟨[datesTable]⟩ = .ok statements
      ∧ ∃ i ∈ tableInterfaces statements, ∃ j ∈ tableInterfaces statements,
        ∃ p ∈ j.2, i.1 ∈ p.value.references := by
  obtain ⟨c, hc⟩ : ∃ c, Dialect.bigQuery.catalog = .ok c := ⟨_, rfl⟩
  have hdate : Dialect.bigQuery.typeName "date" = "Date" := by cbv
  have hcolumn : InColumn (assembled c ⟨[datesTable]⟩) "Date" :=
    inColumn_assembled.mpr ((columnRefersTo_iff hc).mpr ⟨datesTable, List.mem_cons_self, _,
      List.mem_cons_self, .inr (.inl hdate.symm)⟩)
  have hinterface : "Date" ∈ (tableInterfaces (assembled c ⟨[datesTable]⟩)).map (·.1) :=
    mem_tableInterfaceNames.mpr ⟨datesTable, List.mem_cons_self, interfaceName_datesTable c⟩
  obtain ⟨i, hi, hname⟩ := List.mem_map.mp hinterface
  refine ⟨c, _, hc, assemble_datesTable hc, i, hi, ?_⟩
  rw [hname]
  exact hcolumn

end Assembly

end SchemaTypes
