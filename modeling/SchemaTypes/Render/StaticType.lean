import SchemaTypes.Render.Error
import SchemaTypes.Render.Parts
import SchemaTypes.Render.UnionOrder
import SchemaTypes.Statement

/-!
# Static types

The written form of declarations as types. Properties are written in ascending order of
their keys and unions in their canonical order, so that the text does not depend on the
order in which an expression was put together.

The parts of an expression are rendered where they stand and put in order afterwards, each
text with the part that it is of, because that leaves the recursion structural. Nothing else
comes of it: the text, or the error of the first part that fails in the written order, is that
of parts that were put in order before they were rendered (`StaticType.text_union`,
`StaticType.text_object`).
-/

namespace SchemaTypes.StaticType

open Render Rendered

/-- Texts of properties in ascending order of the keys; equal keys stay as they were. -/
def inKeyOrder {α : Type} (properties : List (Property × α)) : List (Property × α) :=
  properties.mergeSort fun a b => (compare a.1.key b.1.key).isLE

/-- Texts of variants in the canonical order of the variants. -/
def inUnionOrder {α : Type} (variants : List (Expression × α)) : List (Expression × α) :=
  UnionOrder.canonical (fun v => v.1.identifier?) variants

mutual

/-- The expression as a type, where `depth` levels are open around it. -/
def text : Expression → Nat → Rendered String
  | .identifier id, _ => .ok id.name
  | .literal value, _ => .ok (literalText value)
  | .array element, depth => do
    let t ← text element depth
    return if element.isMultiVariantUnion then "(" ++ t ++ ")[]" else t ++ "[]"
  | .union [], _ => .error .emptyUnion
  | .union (v :: vs), depth => do
    let ts ← collect ((inUnionOrder ((v :: vs).zip (texts (v :: vs) depth))).map (·.2))
    return " | ".intercalate ts
  | .object [], _ => .ok (Text.openBrace ++ Text.closeBrace)
  | .object (p :: ps), depth => do
    let ts ← collect ((inKeyOrder ((p :: ps).zip (propertyTexts (p :: ps) (depth + 1)))).map (·.2))
    return block depth (String.join ts)
  | .generic name [], _ => .error (.emptyGeneric name)
  | .generic name (a :: as), depth => do
    let ts ← collect (texts (a :: as) depth)
    return name ++ "<" ++ ", ".intercalate ts ++ ">"
  | .conditional name test consequent alternate, depth => do
    let t ← text test (depth + 1)
    let c ← text consequent (depth + 1)
    let a ← text alternate (depth + 1)
    return name ++ " extends " ++ t ++ "\n" ++ indent (depth + 1) ++ "? " ++ c
      ++ "\n" ++ indent (depth + 1) ++ ": " ++ a
  | .infer name, _ => .ok ("infer " ++ name)
  | .mapped value, depth => do
    let t ← text value (depth + 1)
    return block depth (indent (depth + 1) ++ "[K in string]?: " ++ t ++ ";\n")
  | .moduleReference module, _ => .error (.moduleReference module)

/-- Each of the expressions as a type. -/
def texts : List Expression → Nat → List (Rendered String)
  | [], _ => []
  | e :: es, depth => text e depth :: texts es depth

/-- The lines of each of the properties. -/
def propertyTexts : List Property → Nat → List (Rendered String)
  | [], _ => []
  | p :: ps, depth => propertyText p depth :: propertyTexts ps depth

/-- The lines of a property: its description as a comment, its key and its type. -/
def propertyText : Property → Nat → Rendered String
  | ⟨key, value, description⟩, depth =>
    inProperty key do
      let t ← text value depth
      return propertyHead depth ⟨key, value, description⟩ ++ t ++ ";\n"

end

/-! ## Statements -/

/-- How modules are written. -/
structure Options where
  /-- Imports are marked as needed for types only. -/
  typeOnlyImports : Bool := false
  deriving DecidableEq, Repr

/-- An imported name. -/
def clauseText (c : ImportClause) : String :=
  match c.localName with
  | none => c.name
  | some localName => c.name ++ " as " ++ localName

/-- An import. -/
def importText (options : Options) (i : Import) : Rendered String :=
  if i.clauses.isEmpty then .error (.emptyImport i.module)
  else
    .ok ("import " ++ (if options.typeOnlyImports then "type " else "")
      ++ Text.openBrace ++ " " ++ ", ".intercalate (i.clauses.map clauseText) ++ " "
      ++ Text.closeBrace ++ " from " ++ Text.quoted i.module ++ ";")

/-- The parameters of an alias. -/
def paramsText : AliasBody → Rendered String
  | .plain _ => .ok ""
  | .template t =>
    if t.params.isEmpty then .error .emptyTemplate
    else .ok ("<" ++ ", ".intercalate t.params ++ ">")

/-- A declaration, without the word that exports it. -/
def declarationText : Declaration → Rendered String
  | .typeAlias name body => do
    let params ← paramsText body
    let t ← text body.expression 0
    return "type " ++ name ++ params ++ " = " ++ t ++ ";"
  | .interface name properties => do
    let t ← text (.object properties) 0
    return "interface " ++ name ++ " " ++ t

/-- A statement. -/
def statementText (options : Options) : Statement → Rendered String
  | .imports i => importText options i
  | .exports d => inDeclaration d.name do
    let t ← declarationText d
    return "export " ++ t

end SchemaTypes.StaticType
