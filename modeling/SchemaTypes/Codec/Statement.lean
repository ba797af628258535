import SchemaTypes.Codec.Expression
import SchemaTypes.Statement

/-!
# Statements in JSON

Statements and declarations say their form in the member `type`, like expressions. The
body of an alias does not: it is a template if it can be read as one, and otherwise an
expression.
-/

namespace SchemaTypes

open Json (Fields Reader Source Variants nestingLimit)

/-! ## Writing -/

/-- The body of an alias as JSON. -/
def AliasBody.toJson : AliasBody → Json
  | .template t => .object [("params", Json.strings t.params), ("expression", t.expression.toJson)]
  | .plain e => e.toJson

/-- The declaration as JSON. -/
def Declaration.toJson : Declaration → Json
  | .typeAlias name body =>
    .tagged "AliasDeclaration" [("name", .string name), ("body", body.toJson)]
  | .interface name properties =>
    .tagged "InterfaceDeclaration" [("name", .string name),
      ("body", .object [("properties", .array (Expression.toJsonProperties properties))])]

/-- The imported name as JSON. -/
def ImportClause.toJson (c : ImportClause) : Json :=
  .object ([("name", .string c.name)] ++ Json.optionalMember "alias" c.localName)

/-- The parts of an import as members of an object. -/
def Import.members (i : Import) : List (String × Json) :=
  [("moduleName", .string i.module), ("imports", .array (i.clauses.map ImportClause.toJson))]

/-- The statement as JSON. -/
def Statement.toJson : Statement → Json
  | .imports i => .tagged "ImportStatement" i.members
  | .exports d => .tagged "ExportStatement" [("argument", d.toJson)]

/-- The statements as JSON. -/
def Statement.toJsonList (statements : List Statement) : Json :=
  .array (statements.map Statement.toJson)

/-! ## Reading -/

variable {σ : Type} [Source σ]

/-- The body of an alias with parameters. -/
def Template.fields (expression : Reader Json Expression) : Fields Json Template :=
  Template.mk <$> .required "params" (Reader.list Reader.string)
    <*> .required "expression" expression

/-- The body of an alias in a value that was read in full. -/
def AliasBody.ofJson : Reader Json AliasBody := fun j =>
  let expression := Expression.ofJson nestingLimit
  match Reader.record "Template" (Template.fields expression) j with
  | .ok t => .ok (.template t)
  | .error _ =>
    match expression j with
    | .ok e => .ok (.plain e)
    | .error _ => .error (.mismatch (.noVariantFits "AliasBody"))

/-- The body of an alias, nested at most so deep. -/
def AliasBody.reader (levels : Nat) : Reader σ AliasBody :=
  Reader.buffered levels AliasBody.ofJson

/-- The properties of an object in a value that was read in full. -/
def Property.listOfJson : Reader Json (List Property) :=
  Reader.list (Reader.record "Property" (Property.fields (Expression.ofJson nestingLimit)))

namespace Declaration

/-- The forms of a declaration. -/
inductive Form
  | typeAlias
  | interface
  deriving DecidableEq, Repr

/-- The forms and their names. -/
def forms : Variants Form :=
  [("AliasDeclaration", .typeAlias), ("InterfaceDeclaration", .interface)]

/-- The parts of a declaration of a form. -/
def parts : Form → Reader Json Declaration
  | .typeAlias =>
    Reader.record "AliasDeclaration"
      (.typeAlias <$> .required "name" Reader.string <*> .required "body" AliasBody.ofJson)
  | .interface =>
    Reader.record "InterfaceDeclaration"
      (.interface <$> .required "name" Reader.string
        <*> .required "body" (Reader.record "ObjectExpression"
          (id <$> .required "properties" Property.listOfJson)))

/-- A declaration in a value that was read in full. -/
def ofJson : Reader Json Declaration := fun j => do
  let (form, content) ← Reader.tagged "Declaration" forms nestingLimit j
  parts form content

end Declaration

/-- An imported name. -/
def ImportClause.fields : Fields σ ImportClause :=
  ImportClause.mk <$> .required "name" Reader.string
    <*> .optional "alias" (Reader.nullable Reader.string) none

namespace Statement

/-- The forms of a statement. -/
inductive Form
  | imports
  | exports
  deriving DecidableEq, Repr

/-- The forms and their names. -/
def forms : Variants Form :=
  [("ImportStatement", .imports), ("ExportStatement", .exports)]

/-- The parts of a statement of a form. -/
def parts : Form → Reader Json Statement
  | .imports =>
    Reader.record "ImportStatement"
      ((fun module clauses => .imports ⟨module, clauses⟩)
        <$> .required "moduleName" Reader.string
        <*> .required "imports" (Reader.list (Reader.record "ImportClause" ImportClause.fields)))
  | .exports =>
    Reader.record "ExportStatement" (.exports <$> .required "argument" Declaration.ofJson)

/-- A statement, nested at most so deep. -/
def reader (levels : Nat) : Reader σ Statement := fun s => do
  let (form, content) ← Reader.tagged "Statement" forms (levels - 1) s
  parts form content

/-- Statements, nested at most so deep. -/
def listReader (levels : Nat) : Reader σ (List Statement) :=
  Reader.list (reader (levels - 1))

/-- Reads statements from a text. -/
def readList (text : String) : Except ReadError (List Statement) :=
  Json.read (listReader nestingLimit) text

end Statement

end SchemaTypes
