import SchemaTypes.NameMap
import SchemaTypes.ScalarName
import SchemaTypes.Statement

/-!
# Catalogs

A catalog knows what the types of a database are called: which expression stands for a
scalar type, which definitions those expressions may need, and which names are imported
from elsewhere.
-/

namespace SchemaTypes

/-- What is known of the types of a database. -/
structure Catalog where
  /-- The schema that table names do not mention. -/
  defaultSchema : String
  /-- The type of scalars that are not listed. -/
  defaultScalar : Expression
  /-- Scalar types by their names in small letters. -/
  scalars : NameMap Expression
  /-- Definitions that are declared where they are needed. -/
  definitions : NameMap AliasBody
  /-- Names that are imported, and the modules that they come from. -/
  imports : NameMap String
  deriving Repr

/-- The type of a column before anything is known of the column itself. -/
structure ResolvedScalar where
  expression : Expression
  isNullable : Bool
  isArray : Bool

namespace Catalog

/-- The type that a database writes like this. -/
def resolve (c : Catalog) (raw : String) : ResolvedScalar :=
  let scalar := ScalarName.parse raw
  { expression := (c.scalars.find? scalar.name).getD c.defaultScalar
    isNullable := scalar.isNullable
    isArray := scalar.isArray }

/-- The definition with this name. -/
def definition? (c : Catalog) (name : String) : Option AliasBody :=
  c.definitions.find? name

/-- The module that the name is imported from. -/
def moduleOf? (c : Catalog) (name : String) : Option String :=
  c.imports.find? name

end Catalog

end SchemaTypes
