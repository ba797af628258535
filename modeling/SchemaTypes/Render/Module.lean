import SchemaTypes.Render.StaticType
import SchemaTypes.Render.Validator

/-!
# Modules

The text of a module is the texts of its statements. Imports stand on lines of their
own, one below the other; everything else is set off by an empty line, and the module
ends with the end of a line.

A module may hold both forms of each declaration, the validator before the type, or the
two forms may be kept apart as two modules. Each form of a statement is a text, and an empty
text stands for no form at all; a static form is never empty.
-/

namespace SchemaTypes.Module

open Rendered
open StaticType (Options)

/-- The text of a statement. -/
structure Piece where
  isImport : Bool
  text : String
  deriving DecidableEq, Repr

/-- What stands between two statements. -/
def separator (before after : Bool) : String :=
  if before && after then "\n" else "\n\n"

/-- The statements that follow an import, or follow something else. -/
def joinAfter (previous : Bool) : List Piece → String
  | [] => "\n"
  | piece :: rest =>
    separator previous piece.isImport ++ piece.text ++ joinAfter piece.isImport rest

/-- The text of a module. -/
def join : List Piece → String
  | [] => "\n"
  | piece :: rest => piece.text ++ joinAfter piece.isImport rest

/-- A statement in both forms. -/
def bothForms (options : Options) (s : Statement) : Rendered Piece := do
  let static ← StaticType.statementText options s
  if s.isImport then return ⟨true, static⟩
  let validator ← Validator.statementText s
  return ⟨false, if validator = "" then static else validator ++ "\n" ++ static⟩

/-- The module with both forms of each declaration. -/
def text (options : Options) (statements : List Statement) : Rendered String := do
  let pieces ← collect (statements.map (bothForms options))
  return join pieces

/-- A statement in one form; none if it has no text in this form. -/
def oneForm (form : Statement → Rendered String) (s : Statement) : Rendered (Option Piece) := do
  let t ← form s
  return if t = "" then none else some ⟨s.isImport, t⟩

/-- The module with one form of each declaration. -/
def textInForm (form : Statement → Rendered String) (statements : List Statement) :
    Rendered String := do
  let pieces ← collect (statements.map (oneForm form))
  return join (pieces.filterMap id)

/-- The static types. -/
def types (options : Options) (statements : List Statement) : Rendered String :=
  textInForm (StaticType.statementText options) statements

/-- The validators. -/
def validators (statements : List Statement) : Rendered String :=
  textInForm Validator.statementText statements

/-- The two forms, each on its own. -/
structure Blocks where
  types : String
  validators : String
  deriving DecidableEq, Repr

/-- Both forms as modules of their own. -/
def blocks (options : Options) (statements : List Statement) : Rendered Blocks := do
  let types ← types options statements
  let validators ← validators statements
  return { types, validators }

end SchemaTypes.Module
