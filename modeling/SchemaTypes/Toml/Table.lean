/-!
# Tables in TOML

A table is put together from lines in different places of a document, and each way to
make one says who may add to it later. A heading `[a.b]` makes the table `b` and, on the
way to it, a table `a` that may still get a heading of its own. A dotted key `a.b = …`
makes a table `a` for dotted keys only. A table in braces is complete as it stands.
-/

namespace SchemaTypes.Toml

/-- How a table came to be. -/
inductive Origin
  | heading
  /-- It lies on the way to another heading. -/
  | route
  | dotted
  | inline
  deriving DecidableEq, Repr

/-- What a key stands for. -/
inductive Value
  | string (text : String)
  | boolean (value : Bool)
  /-- An array without items. -/
  | emptyArray
  | table (origin : Origin) (entries : List (String × Value))
  deriving Repr

/-- The entries of a table, in the order in which they were made. -/
abbrev Entries : Type := List (String × Value)

/-- Whether the value is an array or a table with nothing in it. -/
def Value.isEmpty : Value → Bool
  | .emptyArray => true
  | .table _ entries => entries.isEmpty
  | _ => false

/-- A key: its last part, and the parts before it. -/
structure KeyPath where
  outer : List String
  last : String
  deriving DecidableEq, Repr

namespace KeyPath

/-- The key with a part in front. -/
def cons (part : String) (p : KeyPath) : KeyPath := ⟨part :: p.outer, p.last⟩

/-- All parts of the key. -/
def toList (p : KeyPath) : List String := p.outer ++ [p.last]

end KeyPath

namespace Entries

/-- The entries with the one of this key changed; a new one goes behind the others. -/
def change (key : String) (f : Option Value → Option Value) : Entries → Option Entries
  | [] => (f none).map fun v => [(key, v)]
  | (k, v) :: rest =>
    if k = key then (f (some v)).map fun v => (k, v) :: rest
    else (change key f rest).map fun rest => (k, v) :: rest

/-- The entries with those of the table at the end of a path changed. Tables that the
path needs are made; those that are there must let the path through. -/
def within (made : Origin) (passes : Origin → Bool) (f : Entries → Option Entries) :
    List String → Entries → Option Entries
  | [], entries => f entries
  | part :: path, entries =>
    entries.change part fun
      | none => (within made passes f path []).map (.table made)
      | some (.table origin inner) =>
        if passes origin then (within made passes f path inner).map (.table origin) else none
      | some _ => none

/-- The entries with a value for a key that has none. -/
def assign (p : KeyPath) (v : Value) : Entries → Option Entries :=
  within .dotted (· == .dotted)
    (fun entries => entries.change p.last fun old => if old.isSome then none else some v) p.outer

/-- The entries changed in the table with this heading. -/
def under (heading : List String) (f : Entries → Option Entries) : Entries → Option Entries :=
  within .route (· != .inline) f heading

/-- The entries with a table for a heading: a new one, or one on the way to others. -/
def openTable (p : KeyPath) : Entries → Option Entries :=
  under p.outer fun entries => entries.change p.last fun
    | none => some (.table .heading [])
    | some (.table .route inner) => some (.table .heading inner)
    | some _ => none

end Entries

end SchemaTypes.Toml
