import SchemaTypes.Decimal.Binary64
import SchemaTypes.Kind
import SchemaTypes.Text.Blank

/-!
# Type expressions

The types that a database schema is described by: names, literals, arrays, unions,
objects, and the few generic forms that the shared definitions need. An expression says
nothing about how it is written out; that is left to the two forms it is rendered in.

The plain constructors admit unions, generics and templates without parts, which can be
read from JSON but not rendered. The builders refuse to make them.
-/

namespace SchemaTypes

/-- A name, with its kind settled. -/
structure Identifier where
  name : String
  kind : Kind
  deriving DecidableEq, Repr

namespace Identifier

/-- A name of the kind that it spells. -/
def named (name : String) : Identifier := ⟨name, Kind.classify name⟩

/-- A name that refers to a declaration, whatever it spells. -/
def reference (name : String) : Identifier := ⟨name, .reference⟩

/-- The name `null`, of any kind. -/
def isNull (i : Identifier) : Bool := i.name == "null"

/-- The name `undefined`, of any kind. -/
def isUndefined (i : Identifier) : Bool := i.name == "undefined"

end Identifier

/-- A literal that stands as a type. -/
inductive Literal
  | boolean (value : Bool)
  | integer (value : Int64)
  | float (value : Decimal.Binary64)
  | string (value : String)
  deriving DecidableEq, Repr

/-- A property of an object: its key, its type and what it is for. -/
structure PropertyOf (α : Type) where
  key : String
  value : α
  description : Option String := none
  deriving DecidableEq, Repr

/-- A type expression. -/
inductive Expression
  | identifier (id : Identifier)
  | literal (value : Literal)
  | array (element : Expression)
  | union (variants : List Expression)
  | object (properties : List (PropertyOf Expression))
  | generic (name : String) (arguments : List Expression)
  /-- The type `consequent` if the parameter `name` fits `test`, and else `alternate`. -/
  | conditional (name : String) (test consequent alternate : Expression)
  /-- A placeholder in the test of a conditional. -/
  | infer (name : String)
  /-- An object with any keys, all of them optional. -/
  | mapped (value : Expression)
  /-- Says that a name comes from a module; it has no written form of its own. -/
  | moduleReference (module : String)
  deriving Repr

/-- A property of an object type. -/
abbrev Property : Type := PropertyOf Expression

/-- The description without blanks at its ends, if anything is left of it. -/
def PropertyOf.trimmedDescription {α : Type} (p : PropertyOf α) : Option String :=
  match p.description with
  | none => none
  | some d => if Text.trim d = "" then none else some (Text.trim d)

/-- Why a builder refused to make something. -/
inductive BuildError
  | emptyUnion
  | emptyGeneric (name : String)
  | emptyTemplate
  | emptyImport (module : String)
  /-- A table interface has the name of a definition or import that is needed. -/
  | declarationClash (name : String)
  deriving DecidableEq, Repr

/-- The error, in words. -/
def BuildError.message : BuildError → String
  | .emptyUnion => "union must have at least one variant"
  | .emptyGeneric name => "generic `" ++ name ++ "` must have at least one type argument"
  | .emptyTemplate => "template must declare at least one type parameter"
  | .emptyImport module => "import from \"" ++ module ++ "\" must name at least one binding"
  | .declarationClash name =>
    "`" ++ name ++ "` is declared both as a table interface and as a shared definition or import"

namespace Expression

/-! ## Builders -/

/-- A name of the kind that it spells. -/
def named (name : String) : Expression := .identifier (.named name)

/-- A name that refers to a declaration. -/
def reference (name : String) : Expression := .identifier (.reference name)

/-- The type `null`. -/
def null : Expression := named "null"

/-- The type or `null`. -/
def nullable (inner : Expression) : Expression := .union [inner, null]

/-- The union of the variants, of which there must be one. -/
def unionOf (variants : List Expression) : Except BuildError Expression :=
  if variants.isEmpty then .error .emptyUnion else .ok (.union variants)

/-- The type constructor applied to the arguments, of which there must be one. -/
def genericOf (name : String) (arguments : List Expression) : Except BuildError Expression :=
  if arguments.isEmpty then .error (.emptyGeneric name) else .ok (.generic name arguments)

/-! ## Views -/

/-- The identifier, if the expression is one. -/
def identifier? : Expression → Option Identifier
  | .identifier id => some id
  | _ => none

/-- A union of two variants or more. -/
def isMultiVariantUnion : Expression → Bool
  | .union (_ :: _ :: _) => true
  | _ => false

/-- The other variant of a union whose second and last is `null`. -/
def nullableInner? : List Expression → Option Expression
  | [inner, .identifier second] => if second.isNull then some inner else none
  | _ => none

mutual

/-- The names that the expression refers to, from left to right and with repeats. -/
def references : Expression → List String
  | .identifier id => [id.name]
  | .literal _ | .infer _ | .moduleReference _ => []
  | .array element => element.references
  | .union variants => referencesOfAll variants
  | .object properties => referencesOfProperties properties
  | .generic name arguments => name :: referencesOfAll arguments
  | .conditional _ test consequent alternate =>
    test.references ++ consequent.references ++ alternate.references
  | .mapped value => value.references

/-- The names that the expressions refer to. -/
def referencesOfAll : List Expression → List String
  | [] => []
  | e :: rest => e.references ++ referencesOfAll rest

/-- The names that the types of the properties refer to. -/
def referencesOfProperties : List Property → List String
  | [] => []
  | p :: rest => referencesOfProperty p ++ referencesOfProperties rest

/-- The names that the type of the property refers to. -/
def referencesOfProperty : Property → List String
  | ⟨_, value, _⟩ => value.references

end

end Expression

end SchemaTypes
