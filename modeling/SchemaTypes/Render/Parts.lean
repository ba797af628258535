import SchemaTypes.Decimal.Layout
import SchemaTypes.Expression
import SchemaTypes.Text.Ascii
import SchemaTypes.Text.Quoted

/-!
# Parts of both written forms

Static types and validators share how keys, literals, comments and indentation are
written, and the lines between the braces of an object. A text is put together from other
texts, and not written into a buffer piece by piece.
-/

namespace SchemaTypes.Render

/-- Two spaces for each level. -/
def indent (depth : Nat) : String :=
  String.ofList (List.replicate (2 * depth) ' ')

/-- Lines between braces, the second of which stands as far in as what the first goes on
with. -/
def block (depth : Nat) (lines : String) : String :=
  Text.openBrace ++ "\n" ++ lines ++ indent depth ++ Text.closeBrace

/-- A key: as it is when it is a bare name, and in quotes otherwise. -/
def keyText (key : String) : String :=
  if Text.isBareName key.toList then key else Text.quoted key

/-- A literal. -/
def literalText : Literal → String
  | .boolean true => "true"
  | .boolean false => "false"
  | .integer n => String.ofList (Decimal.intChars n.toInt)
  | .float x => String.ofList x.literalChars
  | .string s => Text.quoted s

/-- Text in which no comment can end: a backslash stands between `*` and `/`. -/
def defused : List Char → List Char
  | '*' :: '/' :: cs => '*' :: '\\' :: '/' :: defused cs
  | c :: cs => c :: defused cs
  | [] => []

/-- A comment that documents what follows. -/
def comment (text : String) : String :=
  "/** " ++ String.ofList (defused text.toList) ++ " */"

/-- The line with a property's comment, if it has a description. -/
def commentLine (depth : Nat) (p : Property) : String :=
  match p.trimmedDescription with
  | none => ""
  | some d => indent depth ++ comment d ++ "\n"

/-- What stands before the type of a property: its description as a comment, and its key. -/
def propertyHead (depth : Nat) (p : Property) : String :=
  commentLine depth p ++ indent depth ++ keyText p.key ++ ": "

end SchemaTypes.Render
