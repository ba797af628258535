/-!
# Databases

What is known of a database: its tables and their columns, as the database itself
describes them. The order of the tables carries no meaning.
-/

namespace SchemaTypes

/-- A column of a table. -/
structure Column where
  name : String
  /-- The type as the database writes it. -/
  dataType : String
  isNullable : Bool := false
  isArray : Bool := false
  hasDefault : Bool := false
  isAutoIncrementing : Bool := false
  comment : Option String := none
  deriving DecidableEq, Repr

/-- A table; without a schema it is in the default one. -/
structure Table where
  schema : Option String := none
  name : String
  columns : List Column := []
  deriving DecidableEq, Repr

/-- A database. -/
structure Database where
  tables : List Table := []
  deriving DecidableEq, Repr

end SchemaTypes
