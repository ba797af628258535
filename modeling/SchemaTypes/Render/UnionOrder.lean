import SchemaTypes.Expression

/-!
# The order of a union

The names in a union are written in ascending order, with `null` behind all others and
`undefined` last. They take the places that held names before, so that every other
variant stays where it is.
-/

namespace SchemaTypes.UnionOrder

/-- Names come before `null`, and `null` before `undefined`. -/
def rank (i : Identifier) : Nat :=
  if i.isUndefined then 2 else if i.isNull then 1 else 0

/-- The order of names. -/
def compareIdentifiers (a b : Identifier) : Ordering :=
  (compare (rank a) (rank b)).then (compare a.name b.name)

variable {α : Type}

/-- The names among the variants, in their order; equal names stay as they were. -/
def sortedNames (name? : α → Option Identifier) (variants : List α) : List α :=
  let named := variants.filterMap fun v => (name? v).map fun i => (i, v)
  (named.mergeSort fun a b => (compareIdentifiers a.1 b.1).isLE).map (·.2)

/-- The list with the given elements, one after the other, in the places of those that
are chosen. -/
def refill (chosen : α → Bool) : List α → List α → List α
  | [], vs => vs
  | _ :: _, [] => []
  | s :: ss, v :: vs =>
    if chosen v then s :: refill chosen ss vs else v :: refill chosen (s :: ss) vs

/-- The variants in the order in which they are written; `name?` tells which are names. -/
def canonical (name? : α → Option Identifier) (variants : List α) : List α :=
  refill (fun v => (name? v).isSome) (sortedNames name? variants) variants

end SchemaTypes.UnionOrder
