import Mathlib.Data.List.Basic
import SchemaTypes.Assembly
import SchemaTypes.Proofs.Lists

/-!
# What an assembled module consists of

`Assembly.assemble` is written with steps that may fail, but only one of them can: the
types of columns and the imports of a database are always well-formed, and a database is
refused for a clash of names alone. This file says so once, so that nothing else has to
follow the steps again:

> `assemble_eq_ok_iff`: the statements are the imports, the aliases, the interfaces of
> the tables in their order and the interface of the database, provided that no table
> has the name of something needed.

The parts are named here (`columnExpression`, `tableInterface`, `importOf`,
`columnReferences`, `neededNames`), and so are the names that they declare and bind
(`declaredNames_assembled`, `importedClauses_assembled`) and the interfaces among them
(`tableInterfaces_assembled`, `databaseProperties_assembled`).
-/

namespace SchemaTypes

/-! ## Views of statements -/

namespace Statement

/-- The exported alias, with its body. -/
def exportedAlias : Statement → List (String × AliasBody)
  | .exports (.typeAlias name body) => [(name, body)]
  | _ => []

/-- The exported interface, with its properties. -/
def exportedInterface : Statement → List (String × List Property)
  | .exports (.interface name properties) => [(name, properties)]
  | _ => []

/-- The imported names, each with its module. -/
def importedClauses : Statement → List (String × ImportClause)
  | .imports i => i.clauses.map fun clause => (i.module, clause)
  | .exports _ => []

end Statement

/-- The name that a clause binds in the module that it stands in. -/
def ImportClause.binding (clause : ImportClause) : String :=
  clause.localName.getD clause.name

/-- The aliases that the statements export, with their bodies. -/
def exportedAliases (statements : List Statement) : List (String × AliasBody) :=
  statements.flatMap Statement.exportedAlias

/-- The interfaces that the statements export, with their properties. -/
def exportedInterfaces (statements : List Statement) : List (String × List Property) :=
  statements.flatMap Statement.exportedInterface

/-- The interfaces of the tables: all but the last one, which is that of the database. -/
def tableInterfaces (statements : List Statement) : List (String × List Property) :=
  (exportedInterfaces statements).dropLast

/-- The properties of the interface of the database. -/
def databaseProperties (statements : List Statement) : List Property :=
  ((exportedInterfaces statements).getLast?.map (·.2)).getD []

/-- The names that the statements declare. -/
def declaredNames (statements : List Statement) : List String :=
  statements.flatMap fun s => s.declaredName?.toList

/-- What the statements import, with the modules. -/
def importedClauses (statements : List Statement) : List (String × ImportClause) :=
  statements.flatMap Statement.importedClauses

/-- The names that the statements bind by importing them. -/
def importedBindings (statements : List Statement) : List String :=
  (importedClauses statements).map fun clause => clause.2.binding

namespace Expression

theorem mem_referencesOfProperties {name : String} {properties : List Property} :
    name ∈ referencesOfProperties properties ↔ ∃ p ∈ properties, name ∈ p.value.references := by
  induction properties with
  | nil => simp [referencesOfProperties]
  | cons p rest ih =>
    obtain ⟨key, value, description⟩ := p
    rw [referencesOfProperties, List.mem_append, ih, referencesOfProperty]
    constructor
    · intro h
      rcases h with hvalue | ⟨q, hq, hname⟩
      · exact ⟨_, List.mem_cons_self .., hvalue⟩
      · exact ⟨q, List.mem_cons_of_mem _ hq, hname⟩
    · intro h
      obtain ⟨q, hq, hname⟩ := h
      rcases List.mem_cons.mp hq with rfl | hrest
      · exact Or.inl hname
      · exact Or.inr ⟨q, hrest, hname⟩

end Expression

namespace Assembly

/-! ## Tables and columns -/

/-- The type of a column. -/
def columnExpression (c : Catalog) (column : Column) : Expression :=
  let scalar := c.resolve column.dataType
  let value :=
    if column.isArray || scalar.isArray then .array scalar.expression else scalar.expression
  let value :=
    if column.hasDefault || column.isAutoIncrementing then .generic "Generated" [value]
    else value
  if column.isNullable || scalar.isNullable then value.nullable else value

theorem columnType_eq_ok (c : Catalog) (column : Column) :
    columnType c column = .ok (columnExpression c column) := by
  unfold columnType columnExpression Expression.genericOf
  simp only [List.isEmpty_cons, Bool.false_eq_true, if_false]
  split <;> rfl

/-- The property of a column in its table's interface. -/
def columnMember (c : Catalog) (column : Column) : Property :=
  { key := column.name, value := columnExpression c column, description := column.comment }

/-- The properties of a table's interface. -/
def tableMembers (c : Catalog) (t : Table) : List Property :=
  t.columns.map (columnMember c)

theorem tableProperties_eq_ok (c : Catalog) (t : Table) :
    tableProperties c t = .ok (tableMembers c t) := by
  unfold tableProperties tableMembers
  apply mapM_eq_ok_map
  intro column _
  rw [columnProperty, columnType_eq_ok]
  rfl

/-- The export of a table's interface. -/
def tableInterface (c : Catalog) (t : Table) : Statement :=
  .exportInterface (interfaceName c t) (tableMembers c t)

/-- The names that the columns of the tables refer to. -/
def columnReferences (c : Catalog) (tables : List Table) : List String :=
  Expression.referencesOfProperties (tables.map (tableMembers c)).flatten

theorem mem_columnReferences {c : Catalog} {tables : List Table} {name : String} :
    name ∈ columnReferences c tables ↔
      ∃ t ∈ tables, ∃ column ∈ t.columns, name ∈ (columnExpression c column).references := by
  rw [columnReferences, Expression.mem_referencesOfProperties]
  constructor
  · intro h
    obtain ⟨p, hp, hname⟩ := h
    obtain ⟨members, hmembers, hpm⟩ := List.mem_flatten.mp hp
    obtain ⟨t, ht, rfl⟩ := List.mem_map.mp hmembers
    obtain ⟨column, hcolumn, rfl⟩ := List.mem_map.mp hpm
    exact ⟨t, ht, column, hcolumn, hname⟩
  · intro h
    obtain ⟨t, ht, column, hcolumn, hname⟩ := h
    refine ⟨columnMember c column, ?_, hname⟩
    exact List.mem_flatten.mpr ⟨tableMembers c t, List.mem_map_of_mem ht,
      List.mem_map_of_mem hcolumn⟩

theorem ordered_perm (c : Catalog) (tables : List Table) : (ordered c tables).Perm tables :=
  List.mergeSort_perm _ _

theorem ordered_isEmpty (c : Catalog) (tables : List Table) :
    (ordered c tables).isEmpty = tables.isEmpty := by
  rw [Bool.eq_iff_iff, List.isEmpty_iff_length_eq_zero, List.isEmpty_iff_length_eq_zero,
    (ordered_perm c tables).length_eq]

theorem ordered_nil (c : Catalog) : ordered c [] = [] :=
  List.mergeSort_nil

/-- The definitions and imports that a database needs. -/
def neededNames (c : Catalog) (database : Database) : Needs :=
  c.needs (columnReferences c (ordered c database.tables))

/-! ## Imports -/

theorem sortedNames_perm (names : List String) : (sortedNames names).Perm names :=
  List.mergeSort_perm _ _

theorem mem_sortedNames {name : String} {names : List String} :
    name ∈ sortedNames names ↔ name ∈ names :=
  (sortedNames_perm names).mem_iff

theorem mem_modulesOf {c : Catalog} {module : String} {names : List String} :
    module ∈ modulesOf c names ↔ ∃ name ∈ names, c.moduleOf? name = some module := by
  rw [modulesOf, List.mem_eraseDups, mem_sortedNames, List.mem_filterMap]

theorem nodup_modulesOf (c : Catalog) (names : List String) : (modulesOf c names).Nodup :=
  nodup_eraseDups _

/-- Those of the names that come from the module, in ascending order. -/
def namesFrom (c : Catalog) (names : List String) (module : String) : List String :=
  (sortedNames names).filter fun name => c.moduleOf? name = some module

theorem mem_namesFrom {c : Catalog} {name module : String} {names : List String} :
    name ∈ namesFrom c names module ↔ name ∈ names ∧ c.moduleOf? name = some module := by
  rw [namesFrom, List.mem_filter, mem_sortedNames, decide_eq_true_iff]

/-- The import of those of the names that come from the module. -/
def importOf (c : Catalog) (names : List String) (module : String) : Statement :=
  .imports ⟨module, (namesFrom c names module).map fun name => ⟨name, none⟩⟩

theorem imports_eq_ok (c : Catalog) (names : List String) :
    imports c names = .ok ((modulesOf c names).map (importOf c names)) := by
  unfold imports
  apply mapM_eq_ok_map
  intro module hmodule
  obtain ⟨name, hname, hfrom⟩ := mem_modulesOf.mp hmodule
  -- the module is there because of a name, and so its import has a clause
  have hmem : name ∈ namesFrom c names module := mem_namesFrom.mpr ⟨hname, hfrom⟩
  have hnonempty : (namesFrom c names module).isEmpty = false := by
    cases hl : namesFrom c names module with
    | nil => rw [hl] at hmem; exact absurd hmem List.not_mem_nil
    | cons _ _ => rfl
  show (do return Statement.imports (← Import.of module (namesFrom c names module))) = _
  rw [Import.of, hnonempty]
  rfl

/-! ## The whole module -/

/-- The statements for a database, if no name clashes. -/
def assembled (c : Catalog) (database : Database) : List Statement :=
  let tables := ordered c database.tables
  let needs := neededNames c database
  let bound := importedNames needs tables
  (modulesOf c bound).map (importOf c bound) ++ aliases c needs.definitions
    ++ tables.map (tableInterface c) ++ databaseInterface c tables

/-- The first table with the name of something that is needed. -/
def clash? (c : Catalog) (database : Database) : Option Table :=
  (ordered c database.tables).find? fun t => (neededNames c database).contains (interfaceName c t)

/-- Only a clash can keep a database from being assembled. -/
theorem assemble_eq (c : Catalog) (database : Database) :
    assemble c database =
      match clash? c database with
      | some t => .error (.declarationClash (interfaceName c t))
      | none => .ok (assembled c database) := by
  have hproperties : (ordered c database.tables).mapM (tableProperties c)
      = .ok ((ordered c database.tables).map (tableMembers c)) :=
    mapM_eq_ok_map fun t _ => tableProperties_eq_ok c t
  simp only [assemble, hproperties, zip_map_self, List.map_map, imports_eq_ok, bind, Except.bind]
  rfl

theorem assemble_eq_ok_iff {c : Catalog} {database : Database} {statements : List Statement} :
    assemble c database = .ok statements ↔
      clash? c database = none ∧ statements = assembled c database := by
  rw [assemble_eq]
  cases clash? c database with
  | some t => simp
  | none => simp [eq_comm]

/-! ## What the statements declare and bind -/

/-- The names that are imported for a database. -/
def boundNames (c : Catalog) (database : Database) : List String :=
  importedNames (neededNames c database) database.tables

theorem importedNames_ordered (c : Catalog) (database : Database) :
    importedNames (neededNames c database) (ordered c database.tables)
      = boundNames c database := by
  rw [boundNames, importedNames, importedNames, ordered_isEmpty]

/-- What can be read off each statement, read off the four parts in turn. -/
theorem flatMap_assembled {β : Type} (view : Statement → List β) (c : Catalog)
    (database : Database) :
    (assembled c database).flatMap view
      = (modulesOf c (boundNames c database)).flatMap
            (fun module => view (importOf c (boundNames c database) module))
          ++ (aliases c (neededNames c database).definitions).flatMap view
          ++ (ordered c database.tables).flatMap (fun t => view (tableInterface c t))
          ++ (databaseInterface c (ordered c database.tables)).flatMap view := by
  simp only [assembled, List.flatMap_append, List.flatMap_map, importedNames_ordered]

theorem flatMap_aliases {β : Type} (view : Statement → List β) (c : Catalog)
    (names : List String) :
    (aliases c names).flatMap view = (sortedNames names).flatMap fun name =>
      ((c.definition? name).map fun body => view (.exportAlias name body)).getD [] := by
  unfold aliases
  induction sortedNames names with
  | nil => rfl
  | cons name rest ih =>
    rw [List.flatMap_cons, ← ih]
    cases h : c.definition? name with
    | none => rw [List.filterMap_cons_none (by rw [h]; rfl)]; rfl
    | some body => rw [List.filterMap_cons_some (by rw [h]; rfl)]; rfl

theorem exportedAliases_assembled (c : Catalog) (database : Database) :
    exportedAliases (assembled c database)
      = (sortedNames (neededNames c database).definitions).filterMap fun name =>
          (c.definition? name).map fun body => (name, body) := by
  have himports : (modulesOf c (boundNames c database)).flatMap
      (fun module => (importOf c (boundNames c database) module).exportedAlias) = [] :=
    List.flatMap_eq_nil_iff.mpr fun _ _ => rfl
  have htables : (ordered c database.tables).flatMap
      (fun t => (tableInterface c t).exportedAlias) = [] :=
    List.flatMap_eq_nil_iff.mpr fun _ _ => rfl
  have hdatabase : (databaseInterface c (ordered c database.tables)).flatMap
      Statement.exportedAlias = [] := by
    unfold databaseInterface
    split <;> rfl
  rw [exportedAliases, flatMap_assembled, himports, htables, hdatabase, flatMap_aliases,
    List.append_nil, List.append_nil, List.nil_append, List.filterMap_eq_flatMap_toList]
  congr 1
  funext name
  cases c.definition? name <;> rfl

theorem aliasNames_assembled (c : Catalog) (database : Database) :
    (exportedAliases (assembled c database)).map (·.1)
      = (sortedNames (neededNames c database).definitions).filter
          fun name => (c.definition? name).isSome := by
  rw [exportedAliases_assembled, List.map_filterMap, ← List.filterMap_eq_filter]
  congr 1
  funext name
  cases h : c.definition? name <;> simp [Option.guard, h]

theorem declaredNames_assembled (c : Catalog) (database : Database) :
    declaredNames (assembled c database)
      = (sortedNames (neededNames c database).definitions).filter
            (fun name => (c.definition? name).isSome)
          ++ (ordered c database.tables).map (interfaceName c)
          ++ if database.tables.isEmpty then [] else ["DB"] := by
  have himports : (modulesOf c (boundNames c database)).flatMap
      (fun module => (importOf c (boundNames c database) module).declaredName?.toList) = [] :=
    List.flatMap_eq_nil_iff.mpr fun _ _ => rfl
  have htables : (ordered c database.tables).flatMap
      (fun t => (tableInterface c t).declaredName?.toList)
        = (ordered c database.tables).map (interfaceName c) :=
    List.map_eq_flatMap.symm
  have hdatabase : (databaseInterface c (ordered c database.tables)).flatMap
      (fun s => s.declaredName?.toList) = if database.tables.isEmpty then [] else ["DB"] := by
    rw [databaseInterface, ordered_isEmpty]
    split <;> rfl
  rw [declaredNames, flatMap_assembled, himports, htables, hdatabase, flatMap_aliases,
    List.nil_append, ← List.filterMap_eq_filter, List.filterMap_eq_flatMap_toList]
  congr 3
  funext name
  cases h : c.definition? name <;> simp [Option.guard, h, Statement.exportAlias,
    Statement.declaredName?, Declaration.name]

theorem exportedInterfaces_assembled (c : Catalog) (database : Database) :
    exportedInterfaces (assembled c database)
      = (ordered c database.tables).map (fun t => (interfaceName c t, tableMembers c t))
          ++ if database.tables.isEmpty then []
            else [("DB", (ordered c database.tables).map (tableEntry c))] := by
  have himports : (modulesOf c (boundNames c database)).flatMap
      (fun module => (importOf c (boundNames c database) module).exportedInterface) = [] :=
    List.flatMap_eq_nil_iff.mpr fun _ _ => rfl
  have haliases : (aliases c (neededNames c database).definitions).flatMap
      Statement.exportedInterface = [] := by
    rw [flatMap_aliases, List.flatMap_eq_nil_iff]
    intro name _
    cases c.definition? name <;> rfl
  have htables : (ordered c database.tables).flatMap
      (fun t => (tableInterface c t).exportedInterface)
        = (ordered c database.tables).map fun t => (interfaceName c t, tableMembers c t) :=
    List.map_eq_flatMap.symm
  have hdatabase : (databaseInterface c (ordered c database.tables)).flatMap
      Statement.exportedInterface = if database.tables.isEmpty then []
        else [("DB", (ordered c database.tables).map (tableEntry c))] := by
    rw [databaseInterface, ordered_isEmpty]
    split <;> rfl
  rw [exportedInterfaces, flatMap_assembled, himports, haliases, htables, hdatabase,
    List.nil_append, List.nil_append]

/-- Without tables there are no interfaces, and otherwise the last one is `DB`. -/
theorem tableInterfaces_assembled (c : Catalog) (database : Database) :
    tableInterfaces (assembled c database)
      = (ordered c database.tables).map fun t => (interfaceName c t, tableMembers c t) := by
  rw [tableInterfaces, exportedInterfaces_assembled]
  cases h : database.tables with
  | nil => rw [ordered_nil]; rfl
  | cons _ _ => exact List.dropLast_concat

theorem databaseProperties_assembled (c : Catalog) (database : Database) :
    databaseProperties (assembled c database)
      = (ordered c database.tables).map (tableEntry c) := by
  rw [databaseProperties, exportedInterfaces_assembled]
  cases h : database.tables with
  | nil => rw [ordered_nil]; rfl
  | cons _ _ => rw [List.isEmpty_cons, if_neg Bool.false_ne_true, List.getLast?_concat]; rfl

theorem importedClauses_assembled (c : Catalog) (database : Database) :
    importedClauses (assembled c database)
      = (modulesOf c (boundNames c database)).flatMap fun module =>
          (namesFrom c (boundNames c database) module).map fun name => (module, ⟨name, none⟩) := by
  have haliases : (aliases c (neededNames c database).definitions).flatMap
      Statement.importedClauses = [] := by
    rw [flatMap_aliases, List.flatMap_eq_nil_iff]
    intro name _
    cases c.definition? name <;> rfl
  have htables : (ordered c database.tables).flatMap
      (fun t => (tableInterface c t).importedClauses) = [] :=
    List.flatMap_eq_nil_iff.mpr fun _ _ => rfl
  have hdatabase : (databaseInterface c (ordered c database.tables)).flatMap
      Statement.importedClauses = [] := by
    unfold databaseInterface
    split <;> rfl
  rw [importedClauses, flatMap_assembled, haliases, htables, hdatabase, List.append_nil,
    List.append_nil, List.append_nil]
  congr 1
  funext module
  exact List.map_map

end Assembly

end SchemaTypes
