/-!
# Why an expression was not rendered

Expressions that are read from JSON may lack parts, and a module reference has no
written form. Rendering stops at the first such place and says where it was: the
declaration and the properties on the way there, from the outside in. Elements, variants and
arguments are not told apart on the way: the error of a part is that of the whole, except in a
property or a declaration.
-/

namespace SchemaTypes

/-- Why an expression or statement was not rendered. -/
inductive RenderError
  | emptyUnion
  | emptyGeneric (name : String)
  | emptyTemplate
  | emptyImport (module : String)
  | moduleReference (module : String)
  /-- The error is in the type of a property. -/
  | property (key : String) (source : RenderError)
  /-- The error is in a declaration. -/
  | declaration (name : String) (source : RenderError)
  deriving DecidableEq, Repr

/-- The error, in words. -/
def RenderError.message : RenderError → String
  | .emptyUnion => "union has no variants"
  | .emptyGeneric name => "generic `" ++ name ++ "` has no type arguments"
  | .emptyTemplate => "template declares no type parameters"
  | .emptyImport module => "import from \"" ++ module ++ "\" names no bindings"
  | .moduleReference module =>
    "module reference to \"" ++ module ++ "\" cannot be rendered in type position"
  | .property key source => "property `" ++ key ++ "`: " ++ source.message
  | .declaration name source => "failed to render `" ++ name ++ "`: " ++ source.message

/-- What was rendered. -/
abbrev Rendered (α : Type) : Type := Except RenderError α

namespace Rendered

variable {α : Type}

/-- The values in their order, or the first error. -/
def collect : List (Rendered α) → Rendered (List α)
  | [] => .ok []
  | a :: rest => do
    let value ← a
    let values ← collect rest
    return value :: values

/-- The result, with errors placed in the property with this key. -/
def inProperty (key : String) : Rendered α → Rendered α
  | .ok a => .ok a
  | .error e => .error (.property key e)

/-- The result, with errors placed in the declaration with this name. -/
def inDeclaration (name : String) : Rendered α → Rendered α
  | .ok a => .ok a
  | .error e => .error (.declaration name e)

end Rendered

end SchemaTypes
