import SchemaTypes.Json.Token

/-!
# A text as far as it is JSON

`Outline.ofText` finds the tree of values in a text before anyone says what is to be
read from it. It never fails: where the text stops being JSON, the tree ends there and
says why. Reading a typed value then walks the tree in the order of the text, so the
first thing wrong with the text is what it reports, be it a value of the wrong type or
a comma too many.

A tree can be taken in two ways. `buffer` makes a value of it, with a bound on its
depth, and `skip` only makes sure that the text goes on behind it.
-/

namespace SchemaTypes.Json

/-- How the items of an array or the members of an object come to an end. -/
inductive Ending
  | closed
  | cut (fault : Fault)
  deriving DecidableEq, Repr

/-- Whether the end was reached, or why not. -/
def Ending.reached : Ending → Except Fault Unit
  | .closed => .ok ()
  | .cut f => .error f

/-- Why one cannot read on behind the end, if so. -/
def Ending.obstacle : Ending → Option Fault
  | .closed => none
  | .cut f => some f

/-- What stands where the name of a member is due. -/
inductive Key
  /-- A string. -/
  | quoted (name : Token String)
  /-- Something else, so that the object ends here. -/
  | bare
  deriving DecidableEq, Repr

/-- The name, or why there is none. -/
def Key.name : Key → Except Fault String
  | .quoted t => t.value
  | .bare => .error .malformed

/-- Why one cannot read on behind the name, if so. -/
def Key.obstacle : Key → Option Fault
  | .quoted t => t.obstacle
  | .bare => some .malformed

/-- What stands at a place of a text. -/
inductive Outline
  /-- The text ends where a value is due. -/
  | absent
  | string (token : Token String)
  | scalar (token : Token Scalar)
  | array (items : List Outline) (ending : Ending)
  | object (members : List (Key × Outline)) (ending : Ending)
  deriving Repr

namespace Outline

/-! ## Finding the tree -/

/-- A value found in a text, and the text behind it if it can be read on. -/
abbrev Finding (α : Type) : Type := α × Option (List Char)

/-- The text behind a token, if it can be read on. -/
def behind {α : Type} (t : Token α) (rest : List Char) : Option (List Char) :=
  if t.obstacle.isSome then none else some rest

mutual

/-- The value at the start of the text. -/
def value : Nat → List Char → Finding Outline
  | 0, _ => (.scalar (.fail .malformed), none)
  | fuel + 1, cs =>
    match skipSpace cs with
    | [] => (.absent, none)
    | c :: cs =>
      if c = '"' then
        let (t, rest) := stringToken cs
        (.string t, behind t rest)
      else if c = '[' then
        match skipSpace cs with
        | [] => (.array [] (.cut .unfinished), none)
        | ']' :: rest => (.array [] .closed, some rest)
        | _ =>
          let ((items, ending), rest) := itemsFrom fuel cs
          (.array items ending, rest)
      else if c = '{' then
        match skipSpace cs with
        | [] => (.object [] (.cut .unfinished), none)
        | '}' :: rest => (.object [] .closed, some rest)
        | _ =>
          let ((members, ending), rest) := membersFrom fuel cs
          (.object members ending, rest)
      else
        let (t, rest) := scalarToken c cs
        (.scalar t, behind t rest)

/-- The items of an array from a place where one is due. -/
def itemsFrom : Nat → List Char → Finding (List Outline × Ending)
  | 0, _ => (([], .cut .malformed), none)
  | fuel + 1, cs =>
    match value fuel cs with
    | (item, none) => (([item], .closed), none)
    | (item, some rest) =>
      match skipSpace rest with
      | [] => (([item], .cut .unfinished), none)
      | ']' :: rest => (([item], .closed), some rest)
      | ',' :: rest =>
        let ((items, ending), rest) := itemsFrom fuel rest
        ((item :: items, ending), rest)
      | _ => (([item], .cut .malformed), none)

/-- The members of an object from a place where one is due. -/
def membersFrom : Nat → List Char → Finding (List (Key × Outline) × Ending)
  | 0, _ => (([], .cut .malformed), none)
  | fuel + 1, cs =>
    match skipSpace cs with
    | [] => (([(.quoted (.fail .unfinished), .absent)], .closed), none)
    | '"' :: cs =>
      let (name, rest) := stringToken cs
      if name.obstacle.isSome then (([(.quoted name, .absent)], .closed), none)
      else
        match skipSpace rest with
        | [] => (([(.quoted name, .absent)], .closed), none)
        | ':' :: rest =>
          match value fuel rest with
          | (item, none) => (([(.quoted name, item)], .closed), none)
          | (item, some rest) =>
            match skipSpace rest with
            | [] => (([(.quoted name, item)], .cut .unfinished), none)
            | '}' :: rest => (([(.quoted name, item)], .closed), some rest)
            | ',' :: rest =>
              let ((members, ending), rest) := membersFrom fuel rest
              (((.quoted name, item) :: members, ending), rest)
            | _ => (([(.quoted name, item)], .cut .malformed), none)
        | _ => (([(.quoted name, .scalar (.fail .malformed))], .closed), none)
    | _ => (([(.bare, .scalar (.fail .malformed))], .closed), none)

end

/-- The tree of a text and what follows it. Every step into a part takes at least one
character for two steps of the count, so the count is enough for any text. -/
def ofText (s : String) : Finding Outline :=
  value (2 * s.length + 2) s.toList

/-! ## Taking the tree as a value -/

/-- The value of a tree in which arrays and objects are nested at most `levels` deep. -/
def buffer : Nat → Outline → Except Fault Json
  | _, .absent => .error .unfinished
  | _, .string t => Json.string <$> t.value
  | _, .scalar t => Json.scalar <$> t.value
  | 0, .array _ _ | 0, .object _ _ => .error .malformed
  | levels + 1, .array items ending => do
    let items ← items.mapM (buffer levels)
    ending.reached
    return .array items
  | levels + 1, .object members ending => do
    let members ← members.mapM fun (key, item) => do
      let name ← key.name
      return (name, ← buffer levels item)
    ending.reached
    return .object members

/-! ## Skipping a tree -/

/-- The first of two reasons. -/
def firstFault : Option Fault → Option Fault → Option Fault
  | some f, _ => some f
  | none, g => g

mutual

/-- Why one cannot read on behind the tree, if so. There is no bound on its depth. -/
def obstacle : Outline → Option Fault
  | .absent => some .unfinished
  | .string t => t.obstacle
  | .scalar t => t.obstacle
  | .array items ending => firstFault (obstacleOfItems items) ending.obstacle
  | .object members ending => firstFault (obstacleOfMembers members) ending.obstacle

/-- The first obstacle among items. -/
def obstacleOfItems : List Outline → Option Fault
  | [] => none
  | item :: rest => firstFault item.obstacle (obstacleOfItems rest)

/-- The first obstacle among members. -/
def obstacleOfMembers : List (Key × Outline) → Option Fault
  | [] => none
  | member :: rest => firstFault (obstacleOfMember member) (obstacleOfMembers rest)

/-- The first obstacle in a member. -/
def obstacleOfMember : Key × Outline → Option Fault
  | (key, item) => firstFault key.obstacle item.obstacle

end

end Outline

end SchemaTypes.Json
