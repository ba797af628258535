import SchemaTypes.Dialect
import SchemaTypes.Json.Variant
import SchemaTypes.Render.StaticType

/-!
# Options and dialects in JSON

An option that is not given is not set. The name of a dialect is written in small letters, and
has to be when it is read; on the command line it may be in capitals as well
(`Dialect.ofName`).
-/

namespace SchemaTypes

open Json (Fields Reader Source)

variable {σ : Type} [Source σ]

/-- How modules are written; what is not said does not hold. -/
def StaticType.Options.fields : Fields σ StaticType.Options :=
  StaticType.Options.mk <$> .optional "type_only_imports" Reader.boolean false

/-- The options as JSON. -/
def StaticType.Options.toJson (o : StaticType.Options) : Json :=
  .object [("type_only_imports", .boolean o.typeOnlyImports)]

/-- A dialect. -/
def Dialect.reader : Reader σ Dialect := Reader.choice Dialect.names

/-- The dialect as JSON. -/
def Dialect.toJson (d : Dialect) : Json := .string d.name

end SchemaTypes
