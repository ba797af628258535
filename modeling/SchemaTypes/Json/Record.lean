import SchemaTypes.Json.Source

/-!
# Reading records

Records are described by their fields, `Fields σ α`, put together as
`Make <$> required "name" string <*> optional "size" number none`. A record is given
either by name, in any order and with other members in between that are skipped, or as
an array of its fields in their order. Of several things that are wrong the first in the
text is reported; that a field is missing shows only at the end.
-/

namespace SchemaTypes.Json

/-! ## The first thing wrong -/

/-- A value put together from several places of a text, or the first error among them
with its position. -/
structure Located (α : Type) where
  result : Except (Nat × ReadError) α

namespace Located

variable {α β γ : Type}

/-- A value that needs no place. -/
def pure (a : α) : Located α := ⟨.ok a⟩

/-- An error at a position. -/
def error (position : Nat) (e : ReadError) : Located α := ⟨.error (position, e)⟩

/-- What was read at a position. -/
def place (position : Nat) : Except ReadError α → Located α
  | .ok a => pure a
  | .error e => error position e

/-- The value with a function applied. -/
def map (f : α → β) (a : Located α) : Located β := ⟨a.result.map f⟩

/-- Both values; of two errors the first in the text. -/
def both (f : α → β → γ) (a : Located α) (b : Located β) : Located γ :=
  match a.result, b.result with
  | .ok a, .ok b => pure (f a b)
  | .error e, .ok _ => ⟨.error e⟩
  | .ok _, .error e => ⟨.error e⟩
  | .error e, .error e' => ⟨.error (if e.1 ≤ e'.1 then e else e')⟩

/-- The value, or the error without its position. -/
def forget (a : Located α) : Except ReadError α :=
  match a.result with
  | .ok a => .ok a
  | .error e => .error e.2

end Located

/-! ## Fields -/

/-- The two ways to give the fields of a record. -/
inductive Given (σ : Type)
  | byName (members : List (Key × σ))
  | byOrder (items : List σ) (ending : Ending) (wanted : String)

/-- Fields that make a value: their names, and how to read them where the first of
them has a given number among the fields of the record. -/
structure Fields (σ α : Type) where
  names : List String
  get : Nat → Given σ → Located α

/-- Whether the member has this name. -/
def Key.isNamed (name : String) : Key → Bool
  | .quoted (.ok found) => found == name
  | _ => false

/-- The members with this name, each with its position. -/
def occurrences {σ : Type} (name : String) (members : List (Key × σ)) :
    List ((Key × σ) × Nat) :=
  members.zipIdx.filter fun m => m.1.1.isNamed name

variable {σ α β : Type}

/-- A field read from the members or items of a record; `absent` is its value when it
is not there. -/
def Given.field (name : String) (read : Reader σ α) (absent : Option α) (number : Nat) :
    Given σ → Located α
  | .byName members =>
    match occurrences name members, absent with
    | [], some a => .pure a
    | [], none => .error (members.length + 1) (.mismatch (.missingField name))
    | [((_, item), i)], _ => .place i (read item)
    | ((_, item), i) :: (_, j) :: _, _ =>
      .both (fun a (_ : Unit) => a) (.place i (read item))
        (.error j (.mismatch (.duplicateField name)))
  | .byOrder items ending wanted =>
    match items[number]?, ending, absent with
    | some item, _, _ => .place number (read item)
    | none, .cut f, _ => .error number (.fault f)
    | none, .closed, some a => .pure a
    | none, .closed, none => .error number (.mismatch (.invalidLength number wanted))

namespace Fields

/-- A field that has to be there. -/
def required (name : String) (read : Reader σ α) : Fields σ α :=
  ⟨[name], fun number => Given.field name read none number⟩

/-- A field that may be left out. -/
def optional (name : String) (read : Reader σ α) (absent : α) : Fields σ α :=
  ⟨[name], fun number => Given.field name read (some absent) number⟩

instance : Functor (Fields σ) where
  map f fields := ⟨fields.names, fun number given => (fields.get number given).map f⟩

instance : Seq (Fields σ) where
  seq f fields :=
    ⟨f.names ++ (fields ()).names, fun number given =>
      .both (fun f a => f a) (f.get number given)
        ((fields ()).get (number + f.names.length) given)⟩

end Fields

/-! ## Records -/

variable [Source σ]

/-- What is wrong with a member that is no field of the record, if anything. -/
def strayFault (names : List String) (key : Key) (item : σ) : Option Fault :=
  match key with
  | .quoted (.ok name) => if names.contains name then none else Source.obstacle item
  | .quoted (.void f) => some f
  | .quoted (.stop f _) => some f
  | .bare => some .malformed

/-- The first thing wrong with an object besides the fields of the record. -/
def strays (names : List String) (members : List (Key × σ)) (ending : Ending) : Located Unit :=
  match members.zipIdx.findSome? fun m =>
      (strayFault names m.1.1 m.1.2).map fun f => (m.2, f) with
  | some (i, f) => .error i (.fault f)
  | none => .place members.length ending.check

/-- A number of elements, in words. -/
def elements (n : Nat) : String :=
  if n = 1 then "1 element" else String.ofList (Decimal.natChars n) ++ " elements"

/-- The first thing wrong with an array behind the fields of the record. What has been
read in full is counted; a text is not read on. -/
def surplus (σ : Type) [Source σ] (fields items : Nat) (ending : Ending) : Located Unit :=
  if fields < items then
    .error fields <|
      if Source.inFull σ then .mismatch (.invalidLength items (elements fields ++ " in sequence"))
      else .fault .malformed
  else .place items ending.check

/-- A record of this name with these fields. -/
def Reader.record (name : String) (fields : Fields σ α) : Reader σ α := fun s =>
  let count := fields.names.length
  match Source.view s with
  | .mapping members ending =>
    (Located.both (fun a (_ : Unit) => a) (fields.get 0 (.byName members))
      (strays fields.names members ending)).forget
  | .sequence items ending =>
    let wanted := "struct " ++ name ++ " with " ++ elements count
    (Located.both (fun a (_ : Unit) => a) (fields.get 0 (.byOrder items ending wanted))
      (surplus σ count items.length ending)).forget
  | v => .error (v.mistyped ("struct " ++ name))

end SchemaTypes.Json
