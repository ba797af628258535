import SchemaTypes.Catalog
import SchemaTypes.Definitions

/-!
# Dialects

The databases whose types are known, each with its catalog. The scalar types of a dialect
and the names that are imported are listed here in ascending order, and put into its catalog
as a whole. A name that no dialect has is read as the words that say so (`ofName`).
-/

namespace SchemaTypes

/-- A database whose types are known. -/
inductive Dialect
  | bigQuery
  | clickHouse
  deriving DecidableEq, Repr

namespace Dialect

/-- All dialects, in the order in which they are listed. -/
def all : List Dialect := [bigQuery, clickHouse]

/-- The name of a dialect. -/
def name : Dialect → String
  | bigQuery => "bigquery"
  | clickHouse => "clickhouse"

/-- The dialects and their names. -/
def names : List (String × Dialect) := all.map fun d => (d.name, d)

/-- What is said of a name that no dialect has. -/
def unknownMessage (name : String) : String :=
  "Unknown dialect '" ++ name ++ "'. Expected one of: " ++ ", ".intercalate (all.map Dialect.name)

/-- The dialect with this name, in capitals or small letters, or what is said if there is
none. -/
def ofName (name : String) : Except String Dialect :=
  match all.find? fun d => Text.sameIgnoringCase d.name name with
  | some d => .ok d
  | none => .error (unknownMessage name)

/-- The dialect with this name, where nothing is said if there is none. -/
def ofName? (name : String) : Option Dialect :=
  (ofName name).toOption

/-- The scalar types of BigQuery. -/
def bigQueryScalars : List (String × String) :=
  [("array", "JsonArray"), ("bignumeric", "number"), ("bool", "number"), ("bytes", "Buffer"),
   ("date", "Date"), ("datetime", "Date"), ("float64", "number"), ("geography", "Geometry"),
   ("int64", "number"), ("interval", "number"), ("json", "Json"), ("numeric", "number"),
   ("string", "string"), ("struct", "string"), ("time", "Date"), ("timestamp", "Date")]

/-- The scalar types of ClickHouse. -/
def clickHouseScalars : List (String × String) :=
  [("array", "JsonArray"), ("bignumeric", "number"), ("bool", "number"), ("bytes", "Buffer"),
   ("date", "Date"), ("date32", "Date"), ("datetime", "Date"), ("datetime64", "Date"),
   ("decimal", "Decimal"), ("float32", "number"), ("float64", "number"),
   ("geography", "Geometry"),
   ("int128", "number"), ("int16", "number"), ("int256", "number"), ("int32", "number"),
   ("int64", "number"), ("int8", "number"),
   ("interval", "number"), ("json", "Json"), ("numeric", "number"), ("string", "string"),
   ("struct", "string"), ("time", "Date"), ("timestamp", "Date"),
   ("uint128", "number"), ("uint16", "number"), ("uint256", "number"), ("uint32", "number"),
   ("uint64", "number"), ("uint8", "number")]

/-- The scalar types of a dialect, in ascending order of their names. -/
def scalars : Dialect → List (String × String)
  | bigQuery => bigQueryScalars
  | clickHouse => clickHouseScalars

/-- The names that generated modules import. -/
def imports : List (String × String) :=
  [("ColumnType", "kysely"), ("z", "zod")]

/-- The catalog of a dialect. -/
def catalog (d : Dialect) : Except BuildError Catalog := do
  let definitions ← Definitions.all
  return {
    defaultSchema := "default"
    defaultScalar := Expression.named "string"
    scalars := .ofList (d.scalars.map fun entry => (entry.1, Expression.named entry.2))
    definitions := .ofList definitions
    imports := .ofList imports }

end Dialect

end SchemaTypes
