import SchemaTypes.Expression
import SchemaTypes.Json.Variant

/-!
# Expressions in JSON

An expression is an object with its form in the member `type` and its parts in the
others. A kind that is not given is settled by the name. Everything that can be built is
written, and everything that is written can be read; but unions and generic types
without parts are read as well.
-/

namespace SchemaTypes

open Json (Fields Reader Source Variants nestingLimit)

/-! ## Writing -/

/-- The kind as JSON. -/
def Kind.toJson (k : Kind) : Json := .string k.name

/-- The literal as JSON. -/
def Literal.toJson : Literal → Json
  | .boolean b => .boolean b
  | .integer n => .integer n.toInt
  | .float x => .float x
  | .string s => .string s

namespace Expression

mutual

/-- The expression as JSON. -/
def toJson : Expression → Json
  | .identifier id => .tagged "Identifier" [("name", .string id.name), ("kind", id.kind.toJson)]
  | .literal value => .tagged "Literal" [("value", value.toJson)]
  | .array element => .tagged "Array" [("element", element.toJson)]
  | .union variants => .tagged "Union" [("variants", .array (toJsonAll variants))]
  | .object properties => .tagged "Object" [("properties", .array (toJsonProperties properties))]
  | .generic name arguments =>
    .tagged "Generic" [("name", .string name), ("args", .array (toJsonAll arguments))]
  | .conditional name test consequent alternate =>
    .tagged "ExtendsClause" [("name", .string name), ("test", test.toJson),
      ("consequent", consequent.toJson), ("alternate", alternate.toJson)]
  | .infer name => .tagged "InferClause" [("name", .string name)]
  | .mapped value => .tagged "MappedType" [("value", value.toJson)]
  | .moduleReference module => .tagged "ModuleReference" [("moduleName", .string module)]

/-- The expressions as JSON. -/
def toJsonAll : List Expression → List Json
  | [] => []
  | e :: es => e.toJson :: toJsonAll es

/-- The properties as JSON. -/
def toJsonProperties : List Property → List Json
  | [] => []
  | p :: ps => toJsonProperty p :: toJsonProperties ps

/-- The property as JSON. -/
def toJsonProperty : Property → Json
  | ⟨key, value, description⟩ =>
    .object ([("key", .string key), ("value", value.toJson)]
      ++ Json.optionalMember "description" description)

end

end Expression

/-! ## Reading -/

variable {σ : Type} [Source σ]

/-- A kind. -/
def Kind.reader : Reader σ Kind := Reader.choice Kind.names

/-- A name; its kind is settled by the name if it is not given. -/
def Identifier.fields : Fields σ Identifier :=
  (fun name kind => ⟨name, kind.getD (Kind.classify name)⟩)
    <$> .required "name" Reader.string
    <*> .optional "kind" (Reader.nullable Kind.reader) none

/-- A literal: a truth value, an integer of 64 bits, any other number as a double, or a
string. -/
def Literal.ofJson : Reader Json Literal
  | .scalar (.boolean b) => .ok (.boolean b)
  | .scalar (.integer n) =>
    if n < Int64.minValue.toInt ∨ Int64.maxValue.toInt < n then
      match Decimal.Binary64.nearest (n < 0) n.natAbs 0 with
      | some x => .ok (.float x)
      | none => .error (.mismatch (.noVariantFits "LiteralValue"))
    else .ok (.integer (Int64.ofInt n))
  | .scalar (.float x) => .ok (.float x)
  | .string s => .ok (.string s)
  | _ => .error (.mismatch (.noVariantFits "LiteralValue"))

/-- The literal in a record, nested at most so deep. -/
def Literal.fields (levels : Nat) : Fields σ Literal :=
  id <$> .required "value" (Reader.buffered levels Literal.ofJson)

/-- A property, given how its type is read. -/
def Property.fields (expression : Reader σ Expression) : Fields σ Property :=
  (fun key value description => ⟨key, value, description⟩)
    <$> .required "key" Reader.string
    <*> .required "value" expression
    <*> .optional "description" (Reader.nullable Reader.string) none

namespace Expression

/-- The forms of an expression. -/
inductive Form
  | identifier
  | literal
  | array
  | union
  | object
  | generic
  | conditional
  | infer
  | mapped
  | moduleReference
  deriving DecidableEq, Repr

/-- The forms and their names. -/
def forms : Variants Form :=
  [("Identifier", .identifier), ("Literal", .literal), ("Array", .array), ("Union", .union),
   ("Object", .object), ("Generic", .generic), ("ExtendsClause", .conditional),
   ("InferClause", .infer), ("MappedType", .mapped), ("ModuleReference", .moduleReference)]

/-- The parts of an expression of a form, given how the expressions in it are read. -/
def parts (inner : Reader Json Expression) : Form → Reader Json Expression
  | .identifier => Reader.record "IdentifierRepr" (.identifier <$> Identifier.fields)
  | .literal => Reader.record "Literal" (.literal <$> Literal.fields nestingLimit)
  | .array => Reader.record "ArrayExpression" (.array <$> .required "element" inner)
  | .union => Reader.record "UnionExpression" (.union <$> .required "variants" (Reader.list inner))
  | .object =>
    Reader.record "ObjectExpression"
      (.object <$> .required "properties"
        (Reader.list (Reader.record "Property" (Property.fields inner))))
  | .generic =>
    Reader.record "GenericExpression"
      (.generic <$> .required "name" Reader.string <*> .required "args" (Reader.list inner))
  | .conditional =>
    Reader.record "ExtendsClause"
      (.conditional <$> .required "name" Reader.string <*> .required "test" inner
        <*> .required "consequent" inner <*> .required "alternate" inner)
  | .infer => Reader.record "InferClause" (.infer <$> .required "name" Reader.string)
  | .mapped => Reader.record "MappedType" (.mapped <$> .required "value" inner)
  | .moduleReference =>
    Reader.record "ModuleReference" (.moduleReference <$> .required "moduleName" Reader.string)

/-- An expression in a value that was read in full, nested at most so deep. -/
def ofJson : Nat → Reader Json Expression
  | 0, _ => .error (.fault .malformed)
  | levels + 1, j => do
    let (form, content) ← Reader.tagged "Expression" forms levels j
    parts (ofJson levels) form content

/-- An expression, nested at most so deep. -/
def reader (levels : Nat) : Reader σ Expression := fun s => do
  let (form, content) ← Reader.tagged "Expression" forms (levels - 1) s
  parts (ofJson levels) form content

end Expression

end SchemaTypes
