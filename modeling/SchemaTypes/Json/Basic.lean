import SchemaTypes.Decimal.Binary64

/-!
# JSON values

A JSON value is a tree. Whole numbers are kept apart from doubles, and the members
of an object stay in the order in which they were given, with repeats.
-/

namespace SchemaTypes

/-- A JSON value that has no parts and is no string. -/
inductive Scalar
  | null
  | boolean (value : Bool)
  | integer (value : Int)
  | float (value : Decimal.Binary64)
  deriving DecidableEq, Repr

/-- A JSON value. -/
inductive Json
  | scalar (value : Scalar)
  | string (value : String)
  | array (items : List Json)
  | object (members : List (String × Json))
  deriving Repr

namespace Json

/-- The value `null`. -/
abbrev null : Json := .scalar .null

/-- A truth value. -/
abbrev boolean (value : Bool) : Json := .scalar (.boolean value)

/-- A whole number. -/
abbrev integer (value : Int) : Json := .scalar (.integer value)

/-- A double. -/
abbrev float (value : Decimal.Binary64) : Json := .scalar (.float value)

/-- A list of texts. -/
def strings (texts : List String) : Json := .array (texts.map string)

/-- A member that is left out when there is no value. -/
def optionalMember (name : String) : Option String → List (String × Json)
  | none => []
  | some text => [(name, .string text)]

/-- The name of the member that says which form an object has. -/
def tagName : String := "type"

/-- An object with its form and its parts. -/
def tagged (form : String) (parts : List (String × Json)) : Json :=
  .object ((tagName, .string form) :: parts)

/-- Arrays and objects may be nested this deep in a text that is read. -/
def nestingLimit : Nat := 127

mutual

/-- How deep arrays and objects are nested in the value. -/
def depth : Json → Nat
  | .scalar _ | .string _ => 0
  | .array items => depthOfItems items + 1
  | .object members => depthOfMembers members + 1

/-- The depth of the deepest of the items. -/
def depthOfItems : List Json → Nat
  | [] => 0
  | item :: rest => max item.depth (depthOfItems rest)

/-- The depth of the deepest of the members. -/
def depthOfMembers : List (String × Json) → Nat
  | [] => 0
  | member :: rest => max (depthOfMember member) (depthOfMembers rest)

/-- The depth of a member's value. -/
def depthOfMember : String × Json → Nat
  | (_, value) => value.depth

end

/-- The value of the first member with this name. -/
def member? (name : String) : Json → Option Json
  | .object members => members.lookup name
  | _ => none

end Json

end SchemaTypes
