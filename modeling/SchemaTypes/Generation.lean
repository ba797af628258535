import SchemaTypes.Assembly
import SchemaTypes.Codec.Database
import SchemaTypes.Dialect
import SchemaTypes.Render.Module

/-!
# Generating modules

From the description of a database to the text of a module: the description is read,
the statements are assembled with the catalog of the dialect, and both forms of every
declaration are written. Making the catalog can fail like any other step, although it never
does (`Dialect.exists_catalog`).
-/

namespace SchemaTypes

/-- Why no module was generated. -/
inductive GenerateError
  | metadata (error : ReadError)
  | build (error : BuildError)
  | render (error : RenderError)
  deriving DecidableEq, Repr

namespace GenerateError

/-- What is said first of a description that cannot be read. -/
def metadataPrefix : String := "failed to parse database metadata"

/-- The error, in words. -/
def message : GenerateError → String
  | .metadata e => metadataPrefix ++ ": " ++ e.message
  | .build e => "failed to build declarations: " ++ e.message
  | .render e => e.message

end GenerateError

/-- The module for a database. -/
def generate (options : StaticType.Options) (dialect : Dialect) (database : Database) :
    Except GenerateError String := do
  let catalog ← dialect.catalog.mapError .build
  let statements ← (Assembly.assemble catalog database).mapError .build
  (Module.text options statements).mapError .render

/-- The module for a database that is described in JSON. -/
def generateFromText (options : StaticType.Options) (dialect : Dialect) (text : String) :
    Except GenerateError String := do
  let database ← (Database.read text).mapError .metadata
  generate options dialect database

end SchemaTypes
