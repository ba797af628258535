import SchemaTypes.Json.Outline

/-!
# Reading simple values

A typed value is read from the outline of a text, from a JSON value that a program
holds, or from a part of either that was put aside while something else was read. All
are a `Source`: one sees what stands at a place, and can take it as a JSON value or
skip it.
-/

namespace SchemaTypes.Json

/-- What stands at a place, one level deep. -/
inductive View (σ : Type)
  | absent
  | scalar (value : Except Fault Scalar)
  | string (value : Except Fault String)
  | sequence (items : List σ) (ending : Ending)
  | mapping (members : List (Key × σ)) (ending : Ending)

/-- Where typed values are read from. -/
class Source (σ : Type) where
  /-- What stands here. -/
  view : σ → View σ
  /-- The JSON value that stands here, nested at most so deep. -/
  buffer : Nat → σ → Except Fault Json
  /-- Why one cannot read on behind what stands here, if so. -/
  obstacle : σ → Option Fault
  /-- Whether what stands here was read in full and put aside, as the parts beside a
  tag are. -/
  inFull : Bool

instance : Source Outline where
  view
    | .absent => .absent
    | .scalar t => .scalar t.value
    | .string t => .string t.value
    | .array items ending => .sequence items ending
    | .object members ending => .mapping members ending
  buffer := Outline.buffer
  obstacle := Outline.obstacle
  inFull := false

/-- A member of a value that was put aside. -/
def knownMember (member : String × Json) : Key × Json :=
  (.quoted (.ok member.1), member.2)

instance : Source Json where
  view
    | .scalar s => .scalar (.ok s)
    | .string s => .string (.ok s)
    | .array items => .sequence items .closed
    | .object members => .mapping (members.map knownMember) .closed
  buffer _ j := .ok j
  obstacle _ := none
  inFull := true

/-- A JSON value that a program holds, where reading starts. -/
structure Held where
  value : Json

instance : Source Held where
  view
    | ⟨.scalar s⟩ => .scalar (.ok s)
    | ⟨.string s⟩ => .string (.ok s)
    | ⟨.array items⟩ => .sequence (items.map Held.mk) .closed
    | ⟨.object members⟩ =>
      .mapping (members.map fun member => (.quoted (.ok member.1), ⟨member.2⟩)) .closed
  buffer _ j := .ok j.value
  obstacle _ := none
  inFull := false

/-- The error for a place where something else was wanted. -/
def View.mistyped {σ : Type} (wanted : String) : View σ → ReadError
  | .absent => .fault .unfinished
  | .scalar (.ok s) => .mismatch (.invalidType (.scalar s) wanted)
  | .string (.ok s) => .mismatch (.invalidType (.string s) wanted)
  | .scalar (.error f) | .string (.error f) => .fault f
  | .sequence _ _ => .mismatch (.invalidType .sequence wanted)
  | .mapping _ _ => .mismatch (.invalidType .mapping wanted)

/-- A fault as a reason to stop reading. -/
def orFault {α : Type} : Except Fault α → Except ReadError α
  | .ok a => .ok a
  | .error f => .error (.fault f)

/-- Stops where the items or members break off. -/
def Ending.check (ending : Ending) : Except ReadError Unit :=
  orFault ending.reached

/-- How values of a type are read from a source. -/
abbrev Reader (σ α : Type) : Type := σ → Except ReadError α

namespace Reader

variable {σ : Type} [Source σ] {α : Type}

/-- A string. -/
def string : Reader σ String := fun s =>
  match Source.view s with
  | .string (.ok text) => .ok text
  | v => .error (v.mistyped "a string")

/-- A truth value. -/
def boolean : Reader σ Bool := fun s =>
  match Source.view s with
  | .scalar (.ok (.boolean b)) => .ok b
  | v => .error (v.mistyped "a boolean")

/-- A value or `null`. -/
def nullable (read : Reader σ α) : Reader σ (Option α) := fun s =>
  match Source.view s with
  | .scalar (.ok .null) => .ok none
  | _ => some <$> read s

/-- An array of values. -/
def list (read : Reader σ α) : Reader σ (List α) := fun s =>
  match Source.view s with
  | .sequence items ending => do
    let values ← items.mapM read
    ending.check
    return values
  | v => .error (v.mistyped "a sequence")

/-- A value that is read in full, nested at most so deep, before it is looked at. -/
def buffered (levels : Nat) (read : Reader Json α) : Reader σ α := fun s => do
  read (← orFault (Source.buffer levels s))

end Reader

/-- Reads a value from a text that holds nothing else. -/
def read {α : Type} (reader : Reader Outline α) (text : String) : Except ReadError α := do
  let (outline, rest) := Outline.ofText text
  let value ← reader outline
  match rest with
  | none => .error (.fault .malformed)
  | some cs => if (skipSpace cs).isEmpty then return value else .error (.fault .malformed)

/-- Reads any JSON value from a text that holds nothing else. -/
def ofText (text : String) : Except ReadError Json :=
  read (Reader.buffered nestingLimit .ok) text

end SchemaTypes.Json
