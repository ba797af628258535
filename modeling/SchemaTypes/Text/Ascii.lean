/-!
# ASCII letters and bare names

Type names, keywords and object keys are compared and classified by their ASCII
letters and digits alone: a letter with an accent is neither a letter nor a digit
here, and changing case leaves it as it is.
-/

namespace SchemaTypes.Text

/-- Whether two texts are equal up to the case of ASCII letters. -/
def sameIgnoringCase (a b : String) : Bool :=
  a.toList.map Char.toLower == b.toList.map Char.toLower

/-- The brace that opens. -/
def openBrace : String := "\x7b"

/-- The brace that closes. -/
def closeBrace : String := "\x7d"

/-- Characters that may open a bare name: ASCII letters, `_` and `$`. -/
def opensName (c : Char) : Bool :=
  c.isAlpha || c == '_' || c == '$'

/-- Characters that may follow in a bare name: ASCII letters, digits, `_` and `$`. -/
def continuesName (c : Char) : Bool :=
  c.isAlphanum || c == '_' || c == '$'

/-- Names that can stand as an object key without quotes. -/
def isBareName : List Char → Bool
  | [] => false
  | c :: cs => opensName c && cs.all continuesName

end SchemaTypes.Text
