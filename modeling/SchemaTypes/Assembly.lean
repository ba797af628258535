import SchemaTypes.Database
import SchemaTypes.Reach
import SchemaTypes.Text.PascalCase

/-!
# From tables to declarations

A database becomes a list of statements: the imports, the shared definitions that the
columns need, one interface for each table and an interface `DB` with all of them. The
order of the tables in the database does not matter; each part comes in the order of
its names.
-/

namespace SchemaTypes.Assembly

/-! ## Tables -/

/-- The schema that the table is in. -/
def schemaOf (c : Catalog) (t : Table) : String :=
  t.schema.getD c.defaultSchema

/-- The key of the table in `DB`: its name, after the schema if that is not the default. -/
def key (c : Catalog) (t : Table) : String :=
  if schemaOf c t = c.defaultSchema then t.name else schemaOf c t ++ "." ++ t.name

/-- The name of the table's interface. -/
def interfaceName (c : Catalog) (t : Table) : String :=
  if schemaOf c t = c.defaultSchema then Text.pascalCase t.name
  else Text.pascalCase (schemaOf c t) ++ Text.pascalCase t.name

/-- The order of tables: by schema, then by name. -/
def compareTables (c : Catalog) (a b : Table) : Ordering :=
  (compare (schemaOf c a) (schemaOf c b)).then (compare a.name b.name)

/-- The tables in their order. -/
def ordered (c : Catalog) (tables : List Table) : List Table :=
  tables.mergeSort fun a b => (compareTables c a b).isLE

/-! ## Columns -/

/-- The type of a column: its scalar, as an array if it is a list, as a generated column
if an insert may leave it out, and with `null` if it may be missing. -/
def columnType (c : Catalog) (column : Column) : Except BuildError Expression := do
  let scalar := c.resolve column.dataType
  let value :=
    if column.isArray || scalar.isArray then .array scalar.expression else scalar.expression
  let value ←
    if column.hasDefault || column.isAutoIncrementing then
      Expression.genericOf "Generated" [value]
    else .ok value
  return if column.isNullable || scalar.isNullable then value.nullable else value

/-- The property of a column. -/
def columnProperty (c : Catalog) (column : Column) : Except BuildError Property := do
  return { key := column.name, value := ← columnType c column, description := column.comment }

/-- The properties of a table's interface, in the order of its columns. -/
def tableProperties (c : Catalog) (t : Table) : Except BuildError (List Property) :=
  t.columns.mapM (columnProperty c)

/-! ## Declarations -/

/-- The names in ascending order. -/
def sortedNames (names : List String) : List String :=
  names.mergeSort fun a b => (compare a b).isLE

/-- The exports of the definitions, in the order of their names. -/
def aliases (c : Catalog) (names : List String) : List Statement :=
  (sortedNames names).filterMap fun name =>
    (c.definition? name).map fun body => .exportAlias name body

/-- The modules that the names come from, in ascending order and each once. -/
def modulesOf (c : Catalog) (names : List String) : List String :=
  (sortedNames (names.filterMap c.moduleOf?)).eraseDups

/-- One import for each module, with the names in ascending order. -/
def imports (c : Catalog) (names : List String) : Except BuildError (List Statement) :=
  (modulesOf c names).mapM fun module => do
    let names := (sortedNames names).filter fun name => c.moduleOf? name = some module
    return .imports (← Import.of module names)

/-- The name that validators are written with. -/
def validatorName : String := "z"

/-- The names that are imported: those that are needed, and the validators if there is
anything to validate. -/
def importedNames (needs : Needs) (tables : List Table) : List String :=
  if tables.isEmpty then needs.imports else addName validatorName needs.imports

/-- The property of a table in `DB`. -/
def tableEntry (c : Catalog) (t : Table) : Property :=
  { key := key c t, value := .reference (interfaceName c t) }

/-- The interface of all tables, if there are any. -/
def databaseInterface (c : Catalog) (tables : List Table) : List Statement :=
  if tables.isEmpty then [] else [.exportInterface "DB" (tables.map (tableEntry c))]

/-- The statements for a database. A table whose interface would have the name of a
definition or import that is needed is refused. -/
def assemble (c : Catalog) (database : Database) : Except BuildError (List Statement) := do
  let tables := ordered c database.tables
  let properties ← tables.mapM (tableProperties c)
  let needs := c.needs (Expression.referencesOfProperties properties.flatten)
  match tables.find? fun t => needs.contains (interfaceName c t) with
  | some t => .error (.declarationClash (interfaceName c t))
  | none =>
    let imports ← imports c (importedNames needs tables)
    let interfaces :=
      (tables.zip properties).map fun (t, ps) => Statement.exportInterface (interfaceName c t) ps
    return imports ++ aliases c needs.definitions ++ interfaces ++ databaseInterface c tables

end SchemaTypes.Assembly
