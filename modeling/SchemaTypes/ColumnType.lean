import SchemaTypes.Expression

/-!
# Column types

A column may be read as one type and written as another. `ColumnType<S, I, U>` says
what selecting yields and what inserting and updating accept; where nothing else is
said, an update accepts what an insert does.
-/

namespace SchemaTypes

/-- The types of a column for reading and writing. -/
structure ColumnType where
  select : Expression
  insert : Expression
  update : Option Expression := none

namespace ColumnType

/-- What an update accepts. -/
def effectiveUpdate (c : ColumnType) : Expression :=
  c.update.getD c.insert

/-- The column type as an expression. -/
def toExpression (c : ColumnType) : Except BuildError Expression :=
  Expression.genericOf "ColumnType" [c.select, c.insert, c.effectiveUpdate]

end ColumnType

end SchemaTypes
