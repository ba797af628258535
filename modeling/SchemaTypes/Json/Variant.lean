import SchemaTypes.Json.Record

/-!
# Reading variants

A type with several forms says by a name which of them it has. The name of a tagged
form stands in the member `type`, and the other members, or items, hold its fields; a
choice that has no fields is its name alone, or an object with the name and `null`.
-/

namespace SchemaTypes.Json

variable {σ : Type} [Source σ] {τ : Type}

/-- The names of the variants, in their order. -/
abbrev Variants (τ : Type) : Type := List (String × τ)

/-- The variant with this name. -/
def Variants.named (variants : Variants τ) (name : String) : Except ReadError τ :=
  match variants.lookup name with
  | some variant => .ok variant
  | none => .error (.mismatch (.unknownVariant name (variants.map (·.1))))

/-- The variant with this number. -/
def Variants.numbered (variants : Variants τ) (n : Nat) : Except ReadError τ :=
  match variants[n]? with
  | some (_, variant) => .ok variant
  | none =>
    .error (.mismatch (.invalidValue (.scalar (.integer n))
      ("variant index 0 <= i < " ++ String.ofList (Decimal.natChars variants.length))))

/-- A variant given by its name; in a value that was read in full also by its number. -/
def Reader.variant (variants : Variants τ) : Reader σ τ := fun s =>
  match Source.view s with
  | .string (.ok name) => variants.named name
  | .scalar (.ok (.integer (.ofNat n))) =>
    if Source.inFull σ then variants.numbered n
    else .error (.mismatch (.invalidType (.scalar (.integer n)) "variant identifier"))
  | v => .error (v.mistyped "variant identifier")

/-! ## Tagged forms -/

/-- A member beside the tag, read in full. -/
def contentMember (levels : Nat) (key : Key) (item : σ) : Except ReadError (String × Json) := do
  let name ← orFault key.name
  return (name, ← orFault (Source.buffer levels item))

/-- The members beside the tag, read in full. -/
def contentMembers (levels : Nat) : List ((Key × σ) × Nat) → Located (List (String × Json))
  | [] => .pure []
  | ((key, item), i) :: rest =>
    if key.isNamed tagName then contentMembers levels rest
    else
      .both List.cons (.place i (contentMember levels key item)) (contentMembers levels rest)

/-- A tagged form: its variant, and its other members or items as one JSON value in
which each is nested at most so deep. -/
def Reader.tagged (name : String) (variants : Variants τ) (levels : Nat) :
    Reader σ (τ × Json) := fun s =>
  match Source.view s with
  | .mapping members ending =>
    let tag := Given.field tagName (Reader.variant variants) none 0 (.byName members)
    let content := contentMembers levels members.zipIdx
    let finish : Located Unit := .place members.length ending.check
    (Located.both (fun tag members => (tag, Json.object members)) tag
      (Located.both (fun members (_ : Unit) => members) content finish)).forget
  | .sequence [] (.cut f) => .error (.fault f)
  | .sequence [] .closed => .error (.mismatch (.missingField tagName))
  | .sequence (first :: rest) ending => do
    let tag ← Reader.variant variants first
    let items ← orFault (rest.mapM (Source.buffer levels))
    ending.check
    return (tag, .array items)
  | v => .error (v.mistyped ("internally tagged enum " ++ name))

/-! ## Choices -/

/-- The value that stands beside the name of a choice. -/
def Reader.unit : Reader σ Unit := fun s =>
  match Source.view s with
  | .scalar (.ok .null) => .ok ()
  | .mapping [] ending =>
    if Source.inFull σ then .ok ()
    else .error ((View.mapping (σ := σ) [] ending).mistyped "unit")
  | v => .error (v.mistyped "unit")

/-- The error for an object that does not hold one choice. -/
def notOneChoice : ReadError :=
  .mismatch (.invalidValue .mapping "map with a single key")

/-- A choice. In a text, anything but a string or an object has no place here; in a
value that was read in full it is one of the wrong type. -/
def Reader.choice (variants : Variants τ) : Reader σ τ := fun s =>
  match Source.view s with
  | .string (.ok name) => variants.named name
  | .string (.error f) => .error (.fault f)
  | .mapping [] ending =>
    if Source.inFull σ then .error notOneChoice
    else do
      ending.check
      .error (.fault .malformed)
  | .mapping ((key, item) :: rest) ending =>
    if Source.inFull σ && !rest.isEmpty then .error notOneChoice
    else do
      let variant ← variants.named (← orFault key.name)
      Reader.unit item
      if rest.isEmpty then ending.check else .error (.fault .malformed)
      return variant
  | .absent => .error (.fault .unfinished)
  | v =>
    .error (if Source.inFull σ then v.mistyped "string or map" else .fault .malformed)

end SchemaTypes.Json
