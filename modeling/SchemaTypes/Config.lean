import SchemaTypes.Dialect
import SchemaTypes.Toml.Document

/-!
# Settings

A settings file says what the command line does not. Every setting may be left out, and
no other key is allowed. The dialect is given by its name, or by a table with the name
as its one key and nothing behind it.
-/

namespace SchemaTypes

/-- The settings of a file. -/
structure Config where
  dialect : Option Dialect := none
  typeOnlyImports : Option Bool := none
  outFile : Option String := none
  deriving DecidableEq, Repr

namespace Config

/-- The name of the file that is looked for when none is named. -/
def defaultFile : String := "typegen.toml"

/-- The keys that a file may have. -/
def keys : List String := ["dialect", "type_only_imports", "out_file"]

/-- A dialect. -/
def dialectOf? : Toml.Value → Option Dialect
  | .string name => Dialect.names.lookup name
  | .table _ [(name, content)] => if content.isEmpty then Dialect.names.lookup name else none
  | _ => none

/-- A truth value. -/
def booleanOf? : Toml.Value → Option Bool
  | .boolean b => some b
  | _ => none

/-- A text. -/
def textOf? : Toml.Value → Option String
  | .string text => some text
  | _ => none

/-- The value of a key that may be left out; none if it is there but is not of its type. -/
def setting? {α : Type} (key : String) (read : Toml.Value → Option α) (entries : Toml.Entries) :
    Option (Option α) :=
  match entries.lookup key with
  | none => some none
  | some v => (read v).map some

/-- The settings that the entries of a file make. -/
def ofEntries? (entries : Toml.Entries) : Option Config := do
  guard (entries.all fun entry => keys.contains entry.1)
  return {
    dialect := ← setting? "dialect" dialectOf? entries
    typeOnlyImports := ← setting? "type_only_imports" booleanOf? entries
    outFile := ← setting? "out_file" textOf? entries }

/-- The settings in the text of a file. -/
def ofText? (text : String) : Option Config := do
  ofEntries? (← Toml.parse text)

end Config

end SchemaTypes
