import SchemaTypes.Expression

/-!
# Statements

A generated module is a list of statements: imports, and exports of type aliases and
interfaces. An alias may have parameters, which its body then refers to.
-/

namespace SchemaTypes

/-- The body of an alias with parameters. -/
structure Template where
  params : List String
  expression : Expression
  deriving Repr

/-- A template with these parameters, of which there must be one. -/
def Template.of (params : List String) (expression : Expression) : Except BuildError Template :=
  if params.isEmpty then .error .emptyTemplate else .ok ⟨params, expression⟩

/-- The right-hand side of an alias. -/
inductive AliasBody
  | template (template : Template)
  | plain (expression : Expression)
  deriving Repr

namespace AliasBody

/-- The expression without its parameters. -/
def expression : AliasBody → Expression
  | .template t => t.expression
  | .plain e => e

/-- The parameters; a plain alias has none. -/
def params : AliasBody → List String
  | .template t => t.params
  | .plain _ => []

/-- The names that the body refers to outside itself. -/
def freeReferences (body : AliasBody) : List String :=
  body.expression.references.filter fun name => !body.params.contains name

end AliasBody

/-- What an export declares. -/
inductive Declaration
  | typeAlias (name : String) (body : AliasBody)
  | interface (name : String) (properties : List Property)
  deriving Repr

/-- The declared name. -/
def Declaration.name : Declaration → String
  | .typeAlias name _ => name
  | .interface name _ => name

/-- A name that is imported, and the name it has here if that is another. -/
structure ImportClause where
  name : String
  localName : Option String := none
  deriving DecidableEq, Repr

/-- The names imported from a module. -/
structure Import where
  module : String
  clauses : List ImportClause
  deriving DecidableEq, Repr

/-- An import of these names, of which there must be one. -/
def Import.of (module : String) (names : List String) : Except BuildError Import :=
  if names.isEmpty then .error (.emptyImport module)
  else .ok ⟨module, names.map fun name => ⟨name, none⟩⟩

/-- A statement of a generated module. -/
inductive Statement
  | imports (statement : Import)
  | exports (declaration : Declaration)
  deriving Repr

namespace Statement

/-- The export of an alias. -/
def exportAlias (name : String) (body : AliasBody) : Statement :=
  .exports (.typeAlias name body)

/-- The export of an interface. -/
def exportInterface (name : String) (properties : List Property) : Statement :=
  .exports (.interface name properties)

/-- Whether the statement is an import. -/
def isImport : Statement → Bool
  | .imports _ => true
  | .exports _ => false

/-- The name that an export declares. -/
def declaredName? : Statement → Option String
  | .imports _ => none
  | .exports d => some d.name

end Statement

end SchemaTypes
