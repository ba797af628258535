import SchemaTypes.Decimal.Layout
import SchemaTypes.Json.Basic
import SchemaTypes.Text.Quoted

/-!
# JSON text

Values are written without any space between the tokens, and members in their order.
-/

namespace SchemaTypes

/-- The token for a value without parts. -/
def Scalar.chars : Scalar → List Char
  | .null => ['n', 'u', 'l', 'l']
  | .boolean true => ['t', 'r', 'u', 'e']
  | .boolean false => ['f', 'a', 'l', 's', 'e']
  | .integer n => Decimal.intChars n
  | .float x => x.jsonChars

namespace Json

mutual

/-- The characters of a value's text. -/
def chars : Json → List Char
  | .scalar s => s.chars
  | .string s => Text.quotedChars s.toList
  | .array items => '[' :: (itemChars items ++ [']'])
  | .object members => '{' :: (memberChars members ++ ['}'])

/-- The items, with commas between them. -/
def itemChars : List Json → List Char
  | [] => []
  | item :: rest => item.chars ++ itemTailChars rest

/-- The items that follow another one. -/
def itemTailChars : List Json → List Char
  | [] => []
  | item :: rest => ',' :: (item.chars ++ itemTailChars rest)

/-- The members, with commas between them. -/
def memberChars : List (String × Json) → List Char
  | [] => []
  | member :: rest => oneMemberChars member ++ memberTailChars rest

/-- The members that follow another one. -/
def memberTailChars : List (String × Json) → List Char
  | [] => []
  | member :: rest => ',' :: (oneMemberChars member ++ memberTailChars rest)

/-- A name, a colon and a value. -/
def oneMemberChars : String × Json → List Char
  | (name, value) => Text.quotedChars name.toList ++ ':' :: value.chars

end

/-- The text of a value. -/
def text (j : Json) : String :=
  String.ofList j.chars

end Json

end SchemaTypes
