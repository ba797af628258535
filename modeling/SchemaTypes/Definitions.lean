import SchemaTypes.ColumnType
import SchemaTypes.Statement

/-!
# Shared definitions

Types that the dialects have in common: JSON values, decimals, shapes of the geometry
types, and the conditional type of columns that the database fills in itself.
-/

namespace SchemaTypes.Definitions

open Expression (named reference unionOf genericOf)

/-- An array of JSON values. -/
def jsonArray : Expression := .array (reference "JsonValue")

/-- An object of JSON values. -/
def jsonObject : Expression := .mapped (reference "JsonValue")

/-- JSON values without parts. -/
def jsonPrimitive : Except BuildError Expression :=
  unionOf [named "boolean", named "number", named "string", .null]

/-- Any JSON value. -/
def jsonValue : Except BuildError Expression :=
  unionOf [reference "JsonArray", reference "JsonObject", reference "JsonPrimitive"]

/-- Decimals are read as text; a number may be written as well. -/
def decimal : Except BuildError Expression := do
  let insert ← unionOf [named "string", named "number"]
  ColumnType.toExpression { select := named "string", insert }

/-- JSON columns are read as values and written as text. -/
def jsonColumn : Except BuildError Expression :=
  ColumnType.toExpression
    { select := reference "JsonValue", insert := named "string", update := some (named "string") }

/-- A point of the plane. -/
def point : Expression :=
  .object [{ key := "x", value := named "number" }, { key := "y", value := named "number" }]

/-- A line through points. -/
def lineString : Expression := .array (reference "Point")

/-- A polygon, given by closed lines. -/
def polygon : Expression := .array (reference "LineString")

/-- Any shape, or several. -/
def geometry : Except BuildError Expression :=
  unionOf [reference "LineString", reference "Point", reference "Polygon",
    .array (reference "Geometry")]

/-- A column that may be left out when a row is inserted. A column type keeps its other
two parts; any other type becomes one. -/
def generated : Except BuildError AliasBody := do
  let test ← genericOf "ColumnType" [.infer "S", .infer "I", .infer "U"]
  let consequent ← ColumnType.toExpression
    { select := reference "S"
      insert := ← unionOf [reference "I", named "undefined"]
      update := some (reference "U") }
  let alternate ← ColumnType.toExpression
    { select := reference "T"
      insert := ← unionOf [reference "T", named "undefined"]
      update := some (reference "T") }
  return .template (← Template.of ["T"] (.conditional "T" test consequent alternate))

/-- The shared definitions and their names, in ascending order. -/
def all : Except BuildError (List (String × AliasBody)) := do
  return [("Decimal", .plain (← decimal)),
    ("Generated", ← generated),
    ("Geometry", .plain (← geometry)),
    ("Json", .plain (← jsonColumn)),
    ("JsonArray", .plain jsonArray),
    ("JsonObject", .plain jsonObject),
    ("JsonPrimitive", .plain (← jsonPrimitive)),
    ("JsonValue", .plain (← jsonValue)),
    ("LineString", .plain lineString),
    ("Point", .plain point),
    ("Polygon", .plain polygon)]

end SchemaTypes.Definitions
