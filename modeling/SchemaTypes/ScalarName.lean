import SchemaTypes.Text.Ascii
import SchemaTypes.Text.Blank

/-!
# Database type names

A database writes the type of a column in its own way: `Nullable(DateTime64(3))`,
`LowCardinality(String)`. The wrappers that say that a value may be missing or is a
list become flags, the one that only concerns storage is dropped, and what is left is
cut at its first parameter and put into small letters.
-/

namespace SchemaTypes

/-- A wrapper around a database type. -/
inductive Wrapper
  | nullable
  | array
  | lowCardinality
  deriving DecidableEq, Repr

namespace Wrapper

/-- The wrappers in the order in which they are looked for. -/
def all : List Wrapper := [nullable, array, lowCardinality]

/-- The word that a wrapper is written with, in small letters. -/
def word : Wrapper → List Char
  | nullable => ['n', 'u', 'l', 'l', 'a', 'b', 'l', 'e']
  | array => ['a', 'r', 'r', 'a', 'y']
  | lowCardinality => ['l', 'o', 'w', 'c', 'a', 'r', 'd', 'i', 'n', 'a', 'l', 'i', 't', 'y']

/-- The text between the parentheses of a wrapped type, without blanks at its ends, if
the type is wrapped in this way from its first character to its last. -/
def strip? (w : Wrapper) (cs : List Char) : Option (List Char) :=
  if (cs.take w.word.length).map Char.toLower = w.word then
    match cs.drop w.word.length with
    | '(' :: rest => if rest.getLast? = some ')' then some (Text.trimChars rest.dropLast) else none
    | _ => none
  else none

end Wrapper

/-- A database type without its wrappers and parameters. -/
structure ScalarName where
  name : String
  isNullable : Bool := false
  isArray : Bool := false
  deriving DecidableEq, Repr

namespace ScalarName

/-- The same type inside a wrapper. -/
def wrapped (w : Wrapper) (s : ScalarName) : ScalarName :=
  match w with
  | .nullable => { s with isNullable := true }
  | .array => { s with isArray := true }
  | .lowCardinality => s

/-- The outermost wrapper of a type and what is in it. -/
def unwrap? (cs : List Char) : Option (Wrapper × List Char) :=
  Wrapper.all.findSome? fun w => (w.strip? cs).map fun inner => (w, inner)

/-- The name of a type without wrappers: what stands before its parameters, in small
letters. -/
def base (cs : List Char) : List Char :=
  (Text.trimChars (cs.takeWhile (· != '('))).map Char.toLower

theorem length_trimChars_le (cs : List Char) : (Text.trimChars cs).length ≤ cs.length := by
  unfold Text.trimChars
  rw [List.length_reverse]
  refine Nat.le_trans (List.dropWhile_sublist _).length_le ?_
  rw [List.length_reverse]
  exact (List.dropWhile_sublist _).length_le

theorem length_lt_of_strip? {w : Wrapper} {cs inner : List Char}
    (h : w.strip? cs = some inner) : inner.length < cs.length := by
  unfold Wrapper.strip? at h
  split at h
  · split at h
    · next rest hdrop =>
      split at h
      · injection h with h
        subst h
        have hlen := congrArg List.length hdrop
        have htrim := length_trimChars_le rest.dropLast
        simp only [List.length_drop, List.length_cons, List.length_dropLast] at hlen htrim
        omega
      · cases h
    · cases h
  · cases h

theorem length_lt_of_unwrap? {w : Wrapper} {cs inner : List Char}
    (h : unwrap? cs = some (w, inner)) : inner.length < cs.length := by
  unfold unwrap? at h
  obtain ⟨w', _, hw⟩ := List.exists_of_findSome?_eq_some h
  cases hs : w'.strip? cs with
  | none => rw [hs] at hw; cases hw
  | some r =>
    rw [hs] at hw
    have : r = inner := by
      simp only [Option.map_some, Option.some.injEq, Prod.mk.injEq] at hw
      exact hw.2
    exact this ▸ length_lt_of_strip? hs

/-- The type named by characters without blanks at their ends. -/
def ofChars (cs : List Char) : ScalarName :=
  match _h : unwrap? cs with
  | some (w, inner) => (ofChars inner).wrapped w
  | none => { name := String.ofList (base cs) }
termination_by cs.length
decreasing_by exact length_lt_of_unwrap? _h

/-- The type that a database writes like this. -/
def parse (raw : String) : ScalarName :=
  ofChars (Text.trimChars raw.toList)

end ScalarName

end SchemaTypes
