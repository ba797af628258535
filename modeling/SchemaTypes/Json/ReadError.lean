import SchemaTypes.Decimal.Layout
import SchemaTypes.Json.Basic
import SchemaTypes.Text.Shown

/-!
# Why a JSON text was not read

A text may fail to be JSON, or end too early, or be JSON that does not fit what is
read from it. In the last case the error says what was found and what was wanted.
-/

namespace SchemaTypes

/-- How a text fails to be JSON. -/
inductive Fault
  /-- Something stands where the grammar has no place for it. -/
  | malformed
  /-- The text ends inside a value. -/
  | unfinished
  deriving DecidableEq, Repr

/-- What stands at a place in a text, for an error to name. -/
inductive Found
  | scalar (value : Scalar)
  | string (value : String)
  | sequence
  | mapping
  deriving DecidableEq, Repr

/-- How a value fails to fit what is read from it. -/
inductive Mismatch
  | invalidType (found : Found) (wanted : String)
  | invalidValue (found : Found) (wanted : String)
  | invalidLength (count : Nat) (wanted : String)
  | missingField (name : String)
  | duplicateField (name : String)
  | unknownVariant (name : String) (known : List String)
  | noVariantFits (type : String)
  deriving DecidableEq, Repr

/-- Why reading stopped. -/
inductive ReadError
  | fault (fault : Fault)
  | mismatch (mismatch : Mismatch)
  deriving DecidableEq, Repr

/-- What was found, in words. -/
def Found.message : Found → String
  | .scalar .null => "null"
  | .scalar (.boolean true) => "boolean `true`"
  | .scalar (.boolean false) => "boolean `false`"
  | .scalar (.integer n) => "integer `" ++ String.ofList (Decimal.intChars n) ++ "`"
  | .scalar (.float x) => "floating point `" ++ String.ofList x.jsonChars ++ "`"
  | .string s => "string " ++ Text.shown s
  | .sequence => "sequence"
  | .mapping => "map"

/-- A name between backquotes. -/
def backquoted (name : String) : String :=
  "`" ++ name ++ "`"

/-- The known variants, in words. -/
def variantsMessage : List String → String
  | [] => "there are no variants"
  | [a] => "expected " ++ backquoted a
  | [a, b] => "expected " ++ backquoted a ++ " or " ++ backquoted b
  | names => "expected one of " ++ ", ".intercalate (names.map backquoted)

/-- The mismatch, in words. -/
def Mismatch.message : Mismatch → String
  | .invalidType found wanted => "invalid type: " ++ found.message ++ ", expected " ++ wanted
  | .invalidValue found wanted => "invalid value: " ++ found.message ++ ", expected " ++ wanted
  | .invalidLength count wanted =>
    "invalid length " ++ String.ofList (Decimal.natChars count) ++ ", expected " ++ wanted
  | .missingField name => "missing field " ++ backquoted name
  | .duplicateField name => "duplicate field " ++ backquoted name
  | .unknownVariant name known =>
    "unknown variant " ++ backquoted name ++ ", " ++ variantsMessage known
  | .noVariantFits type => "data did not match any variant of untagged enum " ++ type

/-- The fault, in words. -/
def Fault.message : Fault → String
  | .malformed => "malformed JSON"
  | .unfinished => "unexpected end of JSON"

/-- The error, in words. -/
def ReadError.message : ReadError → String
  | .fault f => f.message
  | .mismatch m => m.message

end SchemaTypes
