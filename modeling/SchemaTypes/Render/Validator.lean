import SchemaTypes.Render.Error
import SchemaTypes.Render.Parts
import SchemaTypes.Statement

/-!
# Validators

The written form of interfaces as validators, which check values when a program runs.
Properties and variants keep their order, and a name is written by its kind: only a
reference is written as itself. Imports and aliases have no validator.

A validator is put together from fragments, which keep the names that are written as
themselves apart from all other text. Its text is that of its fragments, one after the
other, and it is put together from the texts of its parts in the same way
(`Validator.text_array` and the equations beside it).

A description is only left out if nothing stands between its quotes. A trimmed description
is never empty, so that does not come up (`Render.describeText_of_describes`).
-/

namespace SchemaTypes.Validator

open Render Rendered

/-! ## Fragments -/

/-- A part of a validator: a name that is written as it is, or other text. -/
inductive Fragment
  | name (name : String)
  | text (text : String)
  deriving DecidableEq, Repr

namespace Fragment

/-- The text of the fragment. -/
def written : Fragment → String
  | name n => n
  | text t => t

/-- The name, if the fragment is one. -/
def name? : Fragment → Option String
  | name n => some n
  | text _ => none

end Fragment

/-- The text of the fragments. -/
def written (fs : List Fragment) : String :=
  String.join (fs.map Fragment.written)

/-! ## Expressions -/

/-- The validator of a name. -/
def identifierText (i : Identifier) : String :=
  match i.kind with
  | .unknown => "z.unknown()"
  | .boolean => "z.boolean()"
  | .date => "z.coerce.date()"
  | .null => "z.null()"
  | .number => "z.coerce.number()"
  | .string => "z.string()"
  | .undefined => ".optional()"
  | .reference => i.name

/-- The validator of a name as a fragment: only a reference is a name there. -/
def identifierFragment (i : Identifier) : Fragment :=
  if i.kind = .reference then .name i.name else .text (identifierText i)

/-- What is written behind the validator of a property with a description, if there is
anything between the quotes of the description. -/
def describeText (p : Property) : String :=
  match p.trimmedDescription with
  | none => ""
  | some d =>
    if 2 < (Text.quoted d).utf8ByteSize then ".describe(" ++ Text.quoted d ++ ")" else ""

mutual

/-- The validator of the expression in fragments, where `depth` levels are open around it.
A union with `null` as its second and last variant makes the other one nullish. -/
def fragments : Expression → Nat → Rendered (List Fragment)
  | .identifier id, _ => .ok [identifierFragment id]
  | .literal value, _ => .ok [.text (literalText value)]
  | .array element, depth => do
    let fs ← fragments element depth
    return if element.isMultiVariantUnion then .text "z.array(z.union(" :: fs ++ [.text "))"]
      else .text "z.array(" :: fs ++ [.text ")"]
  | .union [], _ => .error .emptyUnion
  | .union (v :: vs), depth =>
    if (Expression.nullableInner? (v :: vs)).isSome then do
      let fs ← fragments v depth
      return fs ++ [.text ".nullish()"]
    else do
      let fss ← collect (fragmentsOfAll (v :: vs) depth)
      return .text "z.enum([" :: List.intercalate [.text ", "] fss ++ [.text "])"]
  | .object [], _ => .ok [.text ("z.object(" ++ Text.openBrace ++ Text.closeBrace ++ ")")]
  | .object (p :: ps), depth => do
    let fss ← collect (fragmentsOfProperties (p :: ps) (depth + 1))
    return .text ("z.object(" ++ Text.openBrace ++ "\n") :: fss.flatten
      ++ [.text (indent depth ++ Text.closeBrace ++ ")")]
  | .generic name [], _ => .error (.emptyGeneric name)
  | .generic _ (a :: as), depth => do
    let fss ← collect (fragmentsOfAll (a :: as) depth)
    return List.intercalate [.text ", "] fss
  | .conditional name test consequent alternate, depth => do
    let t ← fragments test (depth + 1)
    let c ← fragments consequent (depth + 1)
    let a ← fragments alternate (depth + 1)
    return .text (name ++ " extends ") :: t ++ .text ("\n" ++ indent (depth + 1) ++ "? ") :: c
      ++ .text ("\n" ++ indent (depth + 1) ++ ": ") :: a
  | .infer name, _ => .ok [.text ("infer " ++ name)]
  | .mapped value, depth => do
    let fs ← fragments value depth
    return .text "z.record(z.string(), " :: fs ++ [.text ".optional())"]
  | .moduleReference module, _ => .error (.moduleReference module)

/-- The validator of each of the expressions. -/
def fragmentsOfAll : List Expression → Nat → List (Rendered (List Fragment))
  | [], _ => []
  | e :: es, depth => fragments e depth :: fragmentsOfAll es depth

/-- The lines of each of the properties. -/
def fragmentsOfProperties : List Property → Nat → List (Rendered (List Fragment))
  | [], _ => []
  | p :: ps, depth => fragmentsOfProperty p depth :: fragmentsOfProperties ps depth

/-- The lines of a property: its description as a comment, its key and its validator,
which carries the description as well. -/
def fragmentsOfProperty : Property → Nat → Rendered (List Fragment)
  | ⟨key, value, description⟩, depth =>
    inProperty key do
      let fs ← fragments value depth
      return .text (propertyHead depth ⟨key, value, description⟩) :: fs
        ++ [.text (describeText ⟨key, value, description⟩ ++ ",\n")]

end

/-- The validator of the expression. -/
def text (e : Expression) (depth : Nat) : Rendered String :=
  (fragments e depth).map written

/-- The lines of a property. -/
def propertyText (p : Property) (depth : Nat) : Rendered String :=
  (fragmentsOfProperty p depth).map written

/-! ## Statements -/

/-- The validator of a statement in fragments; none if it has no validator. -/
def statementFragments : Statement → Rendered (List Fragment)
  | .imports _ => .ok []
  | .exports (.typeAlias _ _) => .ok []
  | .exports (.interface name properties) => inDeclaration name do
    let fs ← fragments (.object properties) 0
    return .text ("export const " ++ name ++ " = ") :: fs ++ [.text ";"]

/-- The validator of a statement; the empty text if it has none. -/
def statementText (s : Statement) : Rendered String :=
  (statementFragments s).map written

end SchemaTypes.Validator
