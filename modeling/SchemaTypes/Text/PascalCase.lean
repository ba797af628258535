/-!
# Pascal case

A database name becomes a type name by cutting it at every character that is not
an ASCII letter or digit, capitalising what is left of each part and joining the
parts. A name with nothing left becomes `_`, and one that would start with a digit
gets a `_` in front, so the result is always a bare name.
-/

namespace SchemaTypes.Text

/-- The maximal runs of ASCII letters and digits, in order; `run` is the run being
read, in reverse. -/
def wordsFrom (run : List Char) : List Char → List (List Char)
  | [] => if run.isEmpty then [] else [run.reverse]
  | c :: cs =>
    if c.isAlphanum then wordsFrom (c :: run) cs
    else if run.isEmpty then wordsFrom [] cs
    else run.reverse :: wordsFrom [] cs

/-- The maximal runs of ASCII letters and digits, in order. -/
def words (cs : List Char) : List (List Char) :=
  wordsFrom [] cs

/-- The word with its first letter made a capital. -/
def capitalized : List Char → List Char
  | [] => []
  | c :: cs => c.toUpper :: cs

/-- The words of a name, capitalised and joined, on characters. -/
def pascalChars (cs : List Char) : List Char :=
  match (words cs).flatMap capitalized with
  | [] => ['_']
  | c :: rest => if c.isDigit then '_' :: c :: rest else c :: rest

/-- The type name made from a table or schema name. -/
def pascalCase (name : String) : String :=
  String.ofList (pascalChars name.toList)

end SchemaTypes.Text
