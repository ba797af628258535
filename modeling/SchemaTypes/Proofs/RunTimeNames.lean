import SchemaTypes.Proofs.TypeNames
import SchemaTypes.Proofs.ValidatorNames
import SchemaTypes.Proofs.ValidatorTexts

/-!
# Which validators are there at run time

A module runs from its first statement to its last. A validator that refers to another one
needs it to be there already, and an alias is never there, because it is only a type. The
names in the interface of the database are those of the tables above it. The names in the
interface of a table are those of scalar types that have no validator of their own, and so

> `runTimeClosed_iff`: in every dialect the declared names in validators are those of
> interfaces further up exactly if no column is an array of JSON values or a geometry, and
> a table with a column of bytes comes after a table with the interface `Buffer`, if any
> table has that interface.

`RunTimeClosed` is about the text of the validators, by way of the fragments that it is
written from (`Statement.Prints.statementText`).
-/

namespace SchemaTypes

open Validator (PrintsNames)

/-- The validator of the statement has the name in it. -/
def Statement.Prints (s : Statement) (name : String) : Prop :=
  ∃ fs, Validator.statementFragments s = .ok fs ∧ .name name ∈ fs

/-- Such a name stands in the text of the validator. -/
theorem Statement.Prints.statementText {s : Statement} {name : String} (h : s.Prints name) :
    ∃ before after, Validator.statementText s = .ok (before ++ name ++ after) := by
  obtain ⟨fs, hfs, hname⟩ := h
  obtain ⟨before, after, rfl⟩ := List.append_of_mem hname
  refine ⟨Validator.written before, Validator.written after, ?_⟩
  rw [Validator.statementText, hfs]
  exact congrArg Except.ok (by simp [String.append_assoc])

/-- A declared name in a validator is the name of an interface further up. -/
def RunTimeClosed (statements : List Statement) : Prop :=
  ForallAfter (fun before s => ∀ name, s.Prints name → name ∈ declaredNames statements →
    ∃ ps, .exportInterface name ps ∈ before) statements

theorem prints_exportInterface {α : Type} {l : List α} {property : α → Property}
    {names : α → List String} (h : ∀ a ∈ l, PrintsNames (property a).value (names a))
    {interface name : String} :
    (Statement.exportInterface interface (l.map property)).Prints name ↔
      ∃ a ∈ l, name ∈ names a := by
  obtain ⟨fs, hfs, hnames⟩ := PrintsNames.object h 0
  have hstatement : Validator.statementFragments (.exportInterface interface (l.map property))
      = .ok (.text ("export const " ++ interface ++ " = ") :: fs ++ [.text ";"]) := by
    rw [Statement.exportInterface, Validator.statementFragments, hfs]
    rfl
  rw [← List.mem_flatMap, ← hnames, Validator.mem_namesIn]
  constructor
  · intro hprints
    obtain ⟨fs', hfs', hname⟩ := hprints
    rw [hstatement] at hfs'
    rw [← Except.ok.inj hfs'] at hname
    simpa using hname
  · intro hname
    exact ⟨_, hstatement, by simp [hname]⟩

namespace Assembly

variable {c : Catalog} {database : Database} {name : String}

/-! ## The interfaces of a module -/

/-- The statements above the interfaces. -/
def preamble (c : Catalog) (database : Database) : List Statement :=
  (modulesOf c (boundNames c database)).map (importOf c (boundNames c database))
    ++ aliases c (neededNames c database).definitions

theorem assembled_eq_preamble (c : Catalog) (database : Database) :
    assembled c database = preamble c database
      ++ (ordered c database.tables).map (tableInterface c)
      ++ databaseInterface c (ordered c database.tables) := by
  rw [preamble, ← importedNames_ordered]
  rfl

theorem import_or_alias_of_mem_preamble {s : Statement} (hs : s ∈ preamble c database) :
    (∃ i, s = .imports i) ∨ ∃ other body, s = .exportAlias other body := by
  rcases List.mem_append.mp hs with himport | halias
  · obtain ⟨module, _, rfl⟩ := List.mem_map.mp himport
    exact .inl ⟨_, rfl⟩
  · obtain ⟨other, _, hbody⟩ := List.mem_filterMap.mp halias
    obtain ⟨body, _, rfl⟩ := Option.map_eq_some_iff.mp hbody
    exact .inr ⟨other, body, rfl⟩

theorem not_prints_of_mem_preamble {s : Statement} (hs : s ∈ preamble c database) :
    ¬s.Prints name := by
  intro hprints
  obtain ⟨fs, hfs, hname⟩ := hprints
  rcases import_or_alias_of_mem_preamble hs with ⟨i, rfl⟩ | ⟨other, body, rfl⟩
  · cases hfs
    cases hname
  · cases hfs
    cases hname

theorem exists_exportInterface_iff {tables : List Table} :
    (∃ ps, .exportInterface name ps ∈ preamble c database ++ tables.map (tableInterface c)) ↔
      ∃ t ∈ tables, interfaceName c t = name := by
  constructor
  · intro h
    obtain ⟨ps, hps⟩ := h
    rcases List.mem_append.mp hps with hpreamble | htable
    · rcases import_or_alias_of_mem_preamble hpreamble with ⟨i, h⟩ | ⟨other, body, h⟩
      · cases h
      · cases h
    · obtain ⟨t, ht, heq⟩ := List.mem_map.mp htable
      exact ⟨t, ht, (Declaration.interface.inj (Statement.exports.inj heq)).1⟩
  · intro h
    obtain ⟨t, ht, rfl⟩ := h
    exact ⟨tableMembers c t, List.mem_append_right _ (List.mem_map_of_mem ht)⟩

/-- What the interface of the database refers to are the interfaces of the tables. -/
theorem exists_of_prints_databaseInterface {tables : List Table} {s : Statement}
    (hs : s ∈ databaseInterface c tables) (hprints : s.Prints name) :
    ∃ t ∈ tables, interfaceName c t = name := by
  rw [databaseInterface] at hs
  split at hs
  · cases hs
  · have hnames : ∀ t ∈ tables, PrintsNames (tableEntry c t).value [interfaceName c t] :=
      fun t _ => .identifier (.reference (interfaceName c t))
    rw [List.mem_singleton.mp hs, prints_exportInterface hnames] at hprints
    obtain ⟨t, ht, hname⟩ := hprints
    exact ⟨t, ht, (List.mem_singleton.mp hname).symm⟩

/-- Only the interfaces of the tables matter: there is nothing above them that has a name
in it, and the interface of the database has theirs. -/
theorem runTimeClosed_assembled :
    RunTimeClosed (assembled c database) ↔
      ForallAfter (fun before t => ∀ name, (tableInterface c t).Prints name →
        name ∈ declaredNames (assembled c database) → ∃ u ∈ before, interfaceName c u = name)
        (ordered c database.tables) := by
  rw [RunTimeClosed]
  -- what is declared is the same at every place in the module
  generalize declaredNames (assembled c database) = declared
  rw [assembled_eq_preamble, ForallAfter.append_iff, ForallAfter.append_iff, ForallAfter.map_iff]
  simp only [exists_exportInterface_iff]
  constructor
  · intro h
    exact h.1.2
  · intro h
    refine ⟨⟨.of_forall fun s hs before name hprints => ?_, h⟩,
      .of_forall fun s hs before name hprints _ => ?_⟩
    · exact absurd hprints (not_prints_of_mem_preamble hs)
    · obtain ⟨ps, hps⟩ := exists_exportInterface_iff.mpr
        (exists_of_prints_databaseInterface hs hprints)
      exact ⟨ps, List.mem_append_left before hps⟩

theorem mem_declaredNames :
    name ∈ declaredNames (assembled c database) ↔
      name ∈ (neededNames c database).definitions ∧ (c.definition? name).isSome
        ∨ (∃ t ∈ database.tables, interfaceName c t = name)
        ∨ database.tables ≠ [] ∧ name = "DB" := by
  rw [declaredNames_assembled, List.mem_append, List.mem_append, List.mem_filter,
    mem_sortedNames, List.mem_map, or_assoc]
  simp only [(ordered_perm c database.tables).mem_iff]
  refine or_congr_right (or_congr_right ?_)
  cases database.tables with
  | nil => exact ⟨fun h => absurd h List.not_mem_nil, fun h => absurd rfl h.1⟩
  | cons t tables => simp

/-! ## Dialects -/

section Dialects

variable {d : Dialect} {statements : List Statement}

/-- The table has a column of the scalar type with this name. -/
def HasColumn (d : Dialect) (t : Table) (name : String) : Prop :=
  ∃ column ∈ t.columns, d.typeName column.dataType = name

theorem printsNames_columnMember (hc : d.catalog = .ok c) (column : Column) :
    PrintsNames (columnMember c column).value
      (if Kind.classify (d.typeName column.dataType) = .reference
        then [d.typeName column.dataType] else []) := by
  have hscalar : PrintsNames (c.resolve column.dataType).expression
      (if Kind.classify (d.typeName column.dataType) = .reference
        then [d.typeName column.dataType] else []) := by
    rw [Dialect.resolve_expression hc]
    exact .identifier (.named (d.typeName column.dataType))
  -- the array, the generic type and the union around it add no names
  have hvalue := PrintsNames.ite (column.isArray || (c.resolve column.dataType).isArray)
    hscalar.array hscalar
  have hgenerated := PrintsNames.ite (column.hasDefault || column.isAutoIncrementing)
    (hvalue.generic "Generated") hvalue
  exact PrintsNames.ite (column.isNullable || (c.resolve column.dataType).isNullable)
    hgenerated.nullable hgenerated

theorem prints_tableInterface (hc : d.catalog = .ok c) (t : Table) :
    (tableInterface c t).Prints name ↔ HasColumn d t name ∧ Kind.classify name = .reference := by
  rw [tableInterface, tableMembers,
    prints_exportInterface fun column _ => printsNames_columnMember hc column]
  constructor
  · intro h
    obtain ⟨column, hcolumn, hname⟩ := h
    split at hname
    · next hkind =>
      rw [List.mem_singleton.mp hname]
      exact ⟨⟨column, hcolumn, rfl⟩, hkind⟩
    · cases hname
  · intro h
    obtain ⟨⟨column, hcolumn, rfl⟩, hkind⟩ := h
    refine ⟨column, hcolumn, ?_⟩
    rw [if_pos hkind]
    exact List.mem_singleton.mpr rfl

/-- The scalar types whose validators are names. -/
theorem classify_eq_reference_iff {t : Table} (h : HasColumn d t name) :
    Kind.classify name = .reference ↔
      name = "JsonArray" ∨ name = "Geometry" ∨ name = "Buffer" := by
  have hnames : ∀ name ∈ Dialect.typeNames, Kind.classify name = .reference ↔
      name = "JsonArray" ∨ name = "Geometry" ∨ name = "Buffer" := by
    decide
  obtain ⟨column, _, rfl⟩ := h
  exact hnames _ (d.typeName_mem column.dataType)

theorem columnRefersTo_of_hasColumn (hc : d.catalog = .ok c) {t : Table}
    (ht : t ∈ database.tables) (h : HasColumn d t name) : ColumnRefersTo c database name := by
  obtain ⟨column, hcolumn, hname⟩ := h
  exact (columnRefersTo_iff hc).mpr ⟨t, ht, column, hcolumn, .inr (.inl hname.symm)⟩

/-- A column whose validator is the name of an alias: the alias is declared, and no
interface has its name. -/
theorem not_runTimeClosed_of_alias (hc : d.catalog = .ok c) (hclash : clash? c database = none)
    {t : Table} (ht : t ∈ database.tables) (hcolumn : HasColumn d t name)
    (hkind : Kind.classify name = .reference) (hdefined : name ∈ Dialect.definitionNames) :
    ¬RunTimeClosed (assembled c database) := by
  intro hclosed
  have hrefers := columnRefersTo_of_hasColumn hc ht hcolumn
  have hdefinition := (Dialect.isSome_definition?_iff hc).mpr hdefined
  have hneeded := ((neededNames_exact c database).mem_definitions name).mpr
    ⟨.root hrefers, (defined_or_builtIn hc hrefers).1, hdefinition⟩
  obtain ⟨before, after, hsplit⟩ :=
    List.append_of_mem ((ordered_perm c database.tables).mem_iff.mpr ht)
  obtain ⟨u, hu, hname⟩ := runTimeClosed_assembled.mp hclosed before t after hsplit name
    ((prints_tableInterface hc t).mpr ⟨hcolumn, hkind⟩)
    (mem_declaredNames.mpr (.inl ⟨hneeded, hdefinition⟩))
  have hmem : u ∈ database.tables := by
    rw [← (ordered_perm c database.tables).mem_iff, hsplit]
    exact List.mem_append_left _ hu
  -- the table `u` would have clashed
  rw [(unknown_of_captured hclash hrefers hmem hname).2] at hdefinition
  cases hdefinition

/-- **When validators refer to validators.** In every dialect, each declared name in a
validator is that of an interface further up exactly if no column is of one of the two
scalar types whose names are aliases, and a table with a column of bytes comes after a
table with the interface `Buffer`, if any table has that interface. -/
theorem runTimeClosed_iff (hc : d.catalog = .ok c) (h : assemble c database = .ok statements) :
    RunTimeClosed statements ↔
      (∀ t ∈ database.tables, ¬HasColumn d t "JsonArray" ∧ ¬HasColumn d t "Geometry")
      ∧ ("Buffer" ∈ database.tables.map (interfaceName c) →
        ForallAfter (fun before t => HasColumn d t "Buffer" →
          ∃ u ∈ before, interfaceName c u = "Buffer") (ordered c database.tables)) := by
  obtain ⟨hclash, rfl⟩ := assemble_eq_ok_iff.mp h
  constructor
  · intro hclosed
    refine ⟨fun t ht => ⟨fun hcolumn => ?_, fun hcolumn => ?_⟩, fun hbuffer => ?_⟩
    -- the first two names are those of aliases; the third one is declared by a table
    · exact not_runTimeClosed_of_alias hc hclash ht hcolumn rfl (by decide) hclosed
    · exact not_runTimeClosed_of_alias hc hclash ht hcolumn rfl (by decide) hclosed
    · intro before t after hsplit hcolumn
      exact runTimeClosed_assembled.mp hclosed before t after hsplit "Buffer"
        ((prints_tableInterface hc t).mpr ⟨hcolumn, rfl⟩)
        (mem_declaredNames.mpr (.inr (.inl (List.mem_map.mp hbuffer))))
  · intro h
    obtain ⟨haliases, hbuffer⟩ := h
    refine runTimeClosed_assembled.mpr fun before t after hsplit name hprints hdeclared => ?_
    have ht : t ∈ database.tables := by
      rw [← (ordered_perm c database.tables).mem_iff, hsplit]
      exact List.mem_append_right before List.mem_cons_self
    obtain ⟨hcolumn, hkind⟩ := (prints_tableInterface hc t).mp hprints
    rcases (classify_eq_reference_iff hcolumn).mp hkind with rfl | rfl | rfl
    · exact absurd hcolumn (haliases t ht).1
    · exact absurd hcolumn (haliases t ht).2
    · -- `Buffer` is declared, but neither defined nor the interface of the database
      rcases mem_declaredNames.mp hdeclared with ⟨_, hdefined⟩ | hinterface | ⟨_, hdb⟩
      · exact absurd ((Dialect.isSome_definition?_iff hc).mp hdefined) (by decide)
      · exact hbuffer (List.mem_map.mpr hinterface) before t after hsplit hcolumn
      · exact absurd hdb (by decide)

/-- A table with one column of this type. -/
def oneColumn (name dataType : String) : Table where
  name := name
  columns := [{ name := "content", dataType }]

theorem hasColumn_oneColumn {table dataType : String} :
    HasColumn d (oneColumn table dataType) name ↔ d.typeName dataType = name := by
  constructor
  · intro h
    obtain ⟨column, hcolumn, hname⟩ := h
    rw [List.mem_singleton.mp hcolumn] at hname
    exact hname
  · intro h
    exact ⟨_, List.mem_singleton.mpr rfl, h⟩

theorem assemble_oneColumn (hc : d.catalog = .ok c) {table : String} (dataType : String)
    (hfree : Text.pascalCase table ∉ Dialect.imports.map (·.1)
      ∧ Text.pascalCase table ∉ Dialect.definitionNames) :
    assemble c ⟨[oneColumn table dataType]⟩ = .ok (assembled c ⟨[oneColumn table dataType]⟩) := by
  refine assemble_eq_ok_iff.mpr ⟨clash?_eq_none_of_free hc ?_, rfl⟩
  rw [List.map_singleton, interfaceName_of_no_schema c rfl]
  exact List.forall_mem_singleton.mpr hfree

end Dialects

/-- Bytes are referred to by a name that nothing declares, until there is a table with that
name: then its own validator needs itself. -/
theorem runTimeClosed_iff_bytes :
    ∃ c, Dialect.clickHouse.catalog = .ok c
      ∧ (∃ statements, assemble c ⟨[oneColumn "file" "bytes"]⟩ = .ok statements
        ∧ RunTimeClosed statements)
      ∧ ∃ statements, assemble c ⟨[oneColumn "buffer" "bytes"]⟩ = .ok statements
        ∧ ¬RunTimeClosed statements := by
  obtain ⟨c, hc⟩ : ∃ c, Dialect.clickHouse.catalog = .ok c := ⟨_, rfl⟩
  have hbytes : Dialect.clickHouse.typeName "bytes" = "Buffer" := by cbv
  have hfile : assemble c ⟨[oneColumn "file" "bytes"]⟩ = _ :=
    assemble_oneColumn hc "bytes" (by decide)
  have hbuffer : assemble c ⟨[oneColumn "buffer" "bytes"]⟩ = _ :=
    assemble_oneColumn hc "bytes" (by decide)
  refine ⟨c, hc, ⟨_, hfile, (runTimeClosed_iff hc hfile).mpr ⟨fun t ht => ?_, fun hname => ?_⟩⟩,
    _, hbuffer, fun hclosed => ?_⟩
  · rw [List.mem_singleton.mp ht, hasColumn_oneColumn, hasColumn_oneColumn, hbytes]
    decide
  · -- the interface is `File`
    rw [List.map_singleton, interfaceName_of_no_schema c rfl] at hname
    exact absurd hname (by decide)
  · have hname : "Buffer" ∈ [oneColumn "buffer" "bytes"].map (interfaceName c) := by
      rw [List.map_singleton, interfaceName_of_no_schema c rfl]
      decide
    have hearlier := ((runTimeClosed_iff hc hbuffer).mp hclosed).2 hname [] _ []
      (List.mergeSort_singleton _) (hasColumn_oneColumn.mpr hbytes)
    obtain ⟨u, hu, _⟩ := hearlier
    cases hu

/-- The validator of a table with a geography is written with `Geometry`, which is an alias
and so has no value. -/
theorem not_runTimeClosed_geography :
    ∃ c statements, Dialect.bigQuery.catalog = .ok c
      ∧ assemble c ⟨[oneColumn "place" "geography"]⟩ = .ok statements
      ∧ ¬RunTimeClosed statements := by
  obtain ⟨c, hc⟩ : ∃ c, Dialect.bigQuery.catalog = .ok c := ⟨_, rfl⟩
  have hgeography : Dialect.bigQuery.typeName "geography" = "Geometry" := by cbv
  have hok : assemble c ⟨[oneColumn "place" "geography"]⟩ = _ :=
    assemble_oneColumn hc "geography" (by decide)
  exact ⟨c, _, hc, hok, not_runTimeClosed_of_alias hc (assemble_eq_ok_iff.mp hok).1
    List.mem_cons_self (hasColumn_oneColumn.mpr hgeography) rfl (by decide)⟩

end Assembly

end SchemaTypes
