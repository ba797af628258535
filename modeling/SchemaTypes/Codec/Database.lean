import SchemaTypes.Database
import SchemaTypes.Json.Record
import SchemaTypes.Json.Writer

/-!
# Databases in JSON

The description of a database that a module is generated from. What is not said of a
column does not hold of it, and a table without columns may leave them out.
-/

namespace SchemaTypes

open Json (Fields Outline Reader)

/-! ## Writing -/

/-- The column as JSON. -/
def Column.toJson (c : Column) : Json :=
  .object ([("name", .string c.name), ("dataType", .string c.dataType),
    ("isNullable", .boolean c.isNullable), ("isArray", .boolean c.isArray),
    ("hasDefault", .boolean c.hasDefault), ("isAutoIncrementing", .boolean c.isAutoIncrementing)]
    ++ Json.optionalMember "comment" c.comment)

/-- The table as JSON. -/
def Table.toJson (t : Table) : Json :=
  .object (Json.optionalMember "schema" t.schema
    ++ [("name", .string t.name), ("columns", .array (t.columns.map Column.toJson))])

/-- The database as JSON. -/
def Database.toJson (d : Database) : Json :=
  .object [("tables", .array (d.tables.map Table.toJson))]

/-! ## Reading -/

/-- A column. -/
def Column.fields : Fields Outline Column :=
  Column.mk <$> .required "name" Reader.string
    <*> .required "dataType" Reader.string
    <*> .optional "isNullable" Reader.boolean false
    <*> .optional "isArray" Reader.boolean false
    <*> .optional "hasDefault" Reader.boolean false
    <*> .optional "isAutoIncrementing" Reader.boolean false
    <*> .optional "comment" (Reader.nullable Reader.string) none

/-- A table. -/
def Table.fields : Fields Outline Table :=
  Table.mk <$> .optional "schema" (Reader.nullable Reader.string) none
    <*> .required "name" Reader.string
    <*> .optional "columns" (Reader.list (Reader.record "ColumnMetadata" Column.fields)) []

/-- A database. -/
def Database.fields : Fields Outline Database :=
  Database.mk <$> .optional "tables" (Reader.list (Reader.record "TableMetadata" Table.fields)) []

/-- Reads the description of a database from a text. -/
def Database.read (text : String) : Except ReadError Database :=
  Json.read (Reader.record "DatabaseMetadata" Database.fields) text

end SchemaTypes
