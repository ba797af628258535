import SchemaTypes.Json.Variant
import SchemaTypes.Proofs.Lists
import SchemaTypes.Proofs.RoundTrip.Text

/-!
# Records and variants read from whole values

Typed values are read from the tree of a text, and from values that were put aside. Both
show a JSON value as it is (`Faithful`), as long as it is not nested too deep, and that
is all that the readers of lists, records and tagged forms need: each has one lemma here
that says from what it reads a value, over any such source.

> `Listed.record`: a record is read from an object that gives all its fields and has
> no other members, each name once.
> `Faithful.tagged`: a tagged form is read from an object with a known form.
-/

namespace SchemaTypes.Json

/-! ## Depth -/

theorem depth_le_depthOfItems {items : List Json} {item : Json} (h : item ∈ items) :
    item.depth ≤ depthOfItems items := by
  induction items with
  | nil => cases h
  | cons first rest ih =>
    rw [depthOfItems]
    rcases List.mem_cons.mp h with rfl | hrest
    · omega
    · have := ih hrest
      omega

theorem depth_le_depthOfMembers {members : List (String × Json)} {m : String × Json}
    (h : m ∈ members) : m.2.depth ≤ depthOfMembers members := by
  induction members with
  | nil => cases h
  | cons first rest ih =>
    rw [depthOfMembers]
    rcases List.mem_cons.mp h with rfl | hrest
    · obtain ⟨name, value⟩ := m
      exact Nat.le_max_left value.depth (depthOfMembers rest)
    · have := ih hrest
      omega

/-- An array is nested deeper than its items. -/
theorem depth_lt_of_mem_array {items : List Json} {item : Json} (h : item ∈ items) :
    item.depth < (array items).depth := by
  have := depth_le_depthOfItems h
  rw [depth]
  omega

/-- An object is nested deeper than its members. -/
theorem depth_lt_of_mem_object {members : List (String × Json)} {m : String × Json}
    (h : m ∈ members) : m.2.depth < (object members).depth := by
  have := depth_le_depthOfMembers h
  rw [depth]
  omega

theorem depth_lt_of_mem_tagged {form : String} {parts : List (String × Json)}
    {m : String × Json} (h : m ∈ parts) : m.2.depth < (tagged form parts).depth :=
  depth_lt_of_mem_object (List.mem_cons_of_mem _ h)

/-! ## Sources that show a value as it is -/

/-- The members of an object as a source shows them. -/
def shownMembers {σ : Type} (embed : Json → σ) (members : List (String × Json)) :
    List (Key × σ) :=
  members.map fun m => (.quoted (.ok m.1), embed m.2)

theorem shownMembers_cons {σ : Type} (embed : Json → σ) (m : String × Json)
    (members : List (String × Json)) :
    shownMembers embed (m :: members)
      = (.quoted (.ok m.1), embed m.2) :: shownMembers embed members := rfl

/-- A source in which JSON values stand in full. -/
structure Faithful {σ : Type} [Source σ] (embed : Json → σ) : Prop where
  scalar : ∀ s, Source.view (embed (.scalar s)) = .scalar (.ok s)
  string : ∀ s, Source.view (embed (.string s)) = .string (.ok s)
  array : ∀ items, Source.view (embed (.array items)) = .sequence (items.map embed) .closed
  object : ∀ members,
    Source.view (embed (.object members)) = .mapping (shownMembers embed members) .closed
  buffer : ∀ levels j, j.depth ≤ levels → Source.buffer levels (embed j) = .ok j

theorem buffer_outline (levels : Nat) (j : Json) (h : j.depth ≤ levels) :
    Outline.buffer levels j.outline = .ok j := by
  induction levels generalizing j with
  | zero =>
    cases j with
    | scalar s => rfl
    | string s => rfl
    | array items => simp [depth] at h
    | object members => simp [depth] at h
  | succ levels ih =>
    cases j with
    | scalar s => rfl
    | string s => rfl
    | array items =>
      have hitems : (outlineItems items).mapM (Outline.buffer levels) = .ok items := by
        rw [outlineItems_eq_map]
        refine mapM_map_eq_ok fun item hitem => ih item ?_
        have := depth_lt_of_mem_array hitem
        omega
      rw [outline, Outline.buffer, hitems]
      rfl
    | object members =>
      rw [outline, Outline.buffer, outlineMembers_eq_map, mapM_map_eq_ok]
      · rfl
      · intro m hm
        have hdepth := depth_lt_of_mem_object hm
        have hvalue := ih m.2 (by omega)
        show (do return (m.1, ← Outline.buffer levels m.2.outline)) = Except.ok m
        rw [hvalue]
        rfl

/-- The tree of a text. -/
theorem faithful_outline : Faithful outline where
  scalar _ := rfl
  string _ := rfl
  array items := by
    rw [outline, outlineItems_eq_map]
    rfl
  object members := by
    rw [outline, outlineMembers_eq_map]
    rfl
  buffer := buffer_outline

/-- A value that was read in full. -/
theorem faithful_id : Faithful (σ := Json) id where
  scalar _ := rfl
  string _ := rfl
  array items := by
    rw [List.map_id]
    rfl
  object members := rfl
  buffer _ _ _ := rfl

/-! ## Simple values -/

namespace Faithful

variable {σ : Type} [Source σ] {embed : Json → σ} {α : Type}

theorem readString (hembed : Faithful embed) (s : String) :
    Reader.string (embed (.string s)) = .ok s := by
  unfold Reader.string
  rw [hembed.string]

theorem readBoolean (hembed : Faithful embed) (b : Bool) :
    Reader.boolean (embed (.boolean b)) = .ok b := by
  unfold Reader.boolean
  rw [hembed.scalar]

theorem readNullable (hembed : Faithful embed) {read : Reader σ α} {s : String} {a : α}
    (h : read (embed (.string s)) = .ok a) :
    Reader.nullable read (embed (.string s)) = .ok (some a) := by
  unfold Reader.nullable
  rw [hembed.string, h]
  rfl

theorem readBuffered (hembed : Faithful embed) {levels : Nat} {j : Json}
    (hdepth : j.depth ≤ levels) (read : Reader Json α) :
    Reader.buffered levels read (embed j) = read j := by
  unfold Reader.buffered
  rw [hembed.buffer levels j hdepth]
  rfl

/-- A list is read back if each of its elements is. -/
theorem readList (hembed : Faithful embed) {read : Reader σ α} {toJson : α → Json} {as : List α}
    (h : ∀ a ∈ as, read (embed (toJson a)) = .ok a) :
    Reader.list read (embed (.array (as.map toJson))) = .ok as := by
  unfold Reader.list
  rw [hembed.array, List.map_map]
  show ((as.map (embed ∘ toJson)).mapM read >>= fun values => do
    Ending.check .closed
    return values) = .ok as
  have hitems : (as.map (embed ∘ toJson)).mapM read = .ok as := mapM_map_eq_ok h
  rw [hitems]
  rfl

theorem readChoice (hembed : Faithful embed) {variants : Variants α} {name : String} {a : α}
    (h : variants.lookup name = some a) :
    Reader.choice variants (embed (.string name)) = .ok a := by
  unfold Reader.choice Variants.named
  rw [hembed.string]
  simp only [h]

end Faithful

/-! ## Fields -/

variable {σ : Type} {α β : Type}

@[simp] theorem Fields.names_required (name : String) (read : Reader σ α) :
    (Fields.required name read).names = [name] := rfl

@[simp] theorem Fields.names_optional (name : String) (read : Reader σ α) (absent : α) :
    (Fields.optional name read absent).names = [name] := rfl

@[simp] theorem Fields.names_map (f : α → β) (fields : Fields σ α) :
    (f <$> fields).names = fields.names := rfl

@[simp] theorem Fields.names_seq (fields : Fields σ (α → β)) (field : Fields σ α) :
    (fields <*> field).names = fields.names ++ field.names := rfl

theorem isNamed_self (name : String) : (Key.quoted (.ok name)).isNamed name = true :=
  beq_self_eq_true name

theorem isNamed_of_ne {name found : String} (h : found ≠ name) :
    (Key.quoted (.ok found)).isNamed name = false :=
  beq_false_of_ne h

/-- The places with a given name, counted from any number on. -/
def namedFrom (name : String) (members : List (Key × σ)) (start : Nat) :
    List ((Key × σ) × Nat) :=
  (members.zipIdx start).filter fun m => m.1.1.isNamed name

theorem namedFrom_cons (name : String) (m : Key × σ) (members : List (Key × σ)) (start : Nat) :
    namedFrom name (m :: members) start
      = if m.1.isNamed name then (m, start) :: namedFrom name members (start + 1)
        else namedFrom name members (start + 1) := by
  unfold namedFrom
  rw [List.zipIdx_cons, List.filter_cons]

theorem namedFrom_eq_nil {embed : Json → σ} {name : String} {members : List (String × Json)}
    (h : name ∉ members.map (·.1)) (start : Nat) :
    namedFrom name (shownMembers embed members) start = [] := by
  induction members generalizing start with
  | nil => rfl
  | cons m rest ih =>
    rw [List.map_cons, List.mem_cons, not_or] at h
    obtain ⟨hne, hrest⟩ := h
    rw [shownMembers_cons, namedFrom_cons, isNamed_of_ne (Ne.symm hne), if_neg (by decide)]
    exact ih hrest (start + 1)

theorem namedFrom_eq_singleton {embed : Json → σ} {name : String}
    {members : List (String × Json)} {j : Json} (hnodup : (members.map (·.1)).Nodup)
    (h : (name, j) ∈ members) (start : Nat) :
    ∃ i, namedFrom name (shownMembers embed members) start
      = [((.quoted (.ok name), embed j), i)] := by
  induction members generalizing start with
  | nil => cases h
  | cons m rest ih =>
    obtain ⟨hfirst, hnodup⟩ := List.nodup_cons.mp hnodup
    rw [shownMembers_cons, namedFrom_cons]
    rcases List.mem_cons.mp h with rfl | hrest
    · rw [isNamed_self, if_pos rfl]
      exact ⟨start, congrArg _ (namedFrom_eq_nil hfirst (start + 1))⟩
    · have hne : m.1 ≠ name := by
        rintro rfl
        exact hfirst (List.mem_map.mpr ⟨(m.1, j), hrest, rfl⟩)
      rw [isNamed_of_ne hne, if_neg (by decide)]
      exact ih hnodup hrest (start + 1)

/-- The members give this value for the fields, whatever stands before the fields. -/
def Fields.Gives (fields : Fields σ α) (members : List (Key × σ)) (a : α) : Prop :=
  ∀ number, (fields.get number (.byName members)).result = .ok a

theorem Fields.Gives.map {fields : Fields σ α} {members : List (Key × σ)} {a : α}
    (h : fields.Gives members a) (f : α → β) : (f <$> fields).Gives members (f a) := by
  intro number
  show (fields.get number (.byName members)).result.map f = .ok (f a)
  rw [h number]
  rfl

theorem Fields.Gives.seq {fields : Fields σ (α → β)} {field : Fields σ α}
    {members : List (Key × σ)} {f : α → β} {a : α} (hf : fields.Gives members f)
    (ha : field.Gives members a) : (fields <*> field).Gives members (f a) := by
  intro number
  show (Located.both (fun f a => f a) (fields.get number (.byName members))
    (field.get (number + fields.names.length) (.byName members))).result = .ok (f a)
  unfold Located.both
  rw [hf number, ha (number + fields.names.length)]
  rfl

theorem field_of_occurrences {name : String} {members : List (Key × σ)} {key : Key} {item : σ}
    {i : Nat} (hone : occurrences name members = [((key, item), i)]) {read : Reader σ α} {a : α}
    (hread : read item = .ok a) (absent : Option α) (number : Nat) :
    (Given.field name read absent number (.byName members)).result = .ok a := by
  unfold Given.field
  simp only [hone, hread]
  rfl

/-- The members give no value for the fields. -/
def Fields.Refuses (fields : Fields σ α) (members : List (Key × σ)) : Prop :=
  ∀ number, ∃ e, (fields.get number (.byName members)).result = .error e

theorem Fields.Refuses.map {fields : Fields σ α} {members : List (Key × σ)}
    (h : fields.Refuses members) (f : α → β) : (f <$> fields).Refuses members := by
  intro number
  obtain ⟨e, he⟩ := h number
  refine ⟨e, ?_⟩
  show (fields.get number (.byName members)).result.map f = .error e
  rw [he]
  rfl

theorem both_error_left {γ : Type} (f : α → β → γ) {a : Located α} {e : Nat × ReadError}
    (h : a.result = .error e) (b : Located β) : ∃ e', (Located.both f a b).result = .error e' := by
  unfold Located.both
  rw [h]
  cases b.result with
  | ok _ => exact ⟨_, rfl⟩
  | error _ => exact ⟨_, rfl⟩

theorem Fields.Refuses.seq {fields : Fields σ (α → β)} {members : List (Key × σ)}
    (h : fields.Refuses members) (field : Fields σ α) : (fields <*> field).Refuses members := by
  intro number
  obtain ⟨e, he⟩ := h number
  exact both_error_left _ he _

/-! ## Records -/

variable [Source σ] {embed : Json → σ}

/-- The members of an object in a source that shows values as they are, each with a name
of its own. -/
structure Listed (embed : Json → σ) (members : List (String × Json)) : Prop where
  faithful : Faithful embed
  nodup : (members.map (·.1)).Nodup

/-- Members that are fields are no strays. -/
theorem strays_eq_pure {names : List String} {members : List (String × Json)}
    (h : members.map (·.1) ⊆ names) :
    strays names (shownMembers embed members) .closed = Located.pure () := by
  have hnone : (shownMembers embed members).zipIdx.findSome?
      (fun m => (strayFault names m.1.1 m.1.2).map fun f => (m.2, f)) = none := by
    rw [List.findSome?_eq_none_iff]
    rintro ⟨shown, i⟩ hshown
    obtain ⟨m, hm, rfl⟩ := List.mem_map.mp (List.fst_mem_of_mem_zipIdx hshown)
    have hname : names.contains m.1 = true :=
      List.contains_iff_mem.mpr (h (List.mem_map_of_mem hm))
    show (strayFault names (.quoted (.ok m.1)) (embed m.2)).map _ = none
    rw [strayFault, hname, if_pos rfl]
    rfl
  unfold strays
  rw [hnone]
  rfl

namespace Listed

variable {members : List (String × Json)}

theorem field (h : Listed embed members) {name : String} {j : Json} (hmem : (name, j) ∈ members)
    {read : Reader σ α} {a : α} (hread : read (embed j) = .ok a) (absent : Option α)
    (number : Nat) :
    (Given.field name read absent number (.byName (shownMembers embed members))).result
      = .ok a := by
  obtain ⟨i, hone⟩ := namedFrom_eq_singleton h.nodup hmem 0
  exact field_of_occurrences hone hread absent number

theorem required (h : Listed embed members) (name : String) {j : Json}
    (hmem : (name, j) ∈ members) {read : Reader σ α} {a : α} (hread : read (embed j) = .ok a) :
    (Fields.required name read).Gives (shownMembers embed members) a :=
  h.field hmem hread none

theorem optional (h : Listed embed members) (name : String) {j : Json}
    (hmem : (name, j) ∈ members) {read : Reader σ α} {a : α} (hread : read (embed j) = .ok a)
    (absent : α) : (Fields.optional name read absent).Gives (shownMembers embed members) a :=
  h.field hmem hread (some absent)

theorem optional_absent (_ : Listed embed members) (name : String)
    (hmem : name ∉ members.map (·.1)) (read : Reader σ α) (absent : α) :
    (Fields.optional name read absent).Gives (shownMembers embed members) absent := by
  intro number
  have hnone : occurrences name (shownMembers embed members) = [] := namedFrom_eq_nil hmem 0
  show (Given.field name read (some absent) number _).result = _
  unfold Given.field
  simp only [hnone]
  rfl

/-- A text that may be left out is read as none where it is, and else as what it is. -/
theorem optional_text (h : Listed embed members) (name : String) {o : Option String}
    (hmem : ∀ j, (name, j) ∈ members ↔ ∃ s, o = some s ∧ j = .string s) :
    (Fields.optional name (Reader.nullable Reader.string) none).Gives
      (shownMembers embed members) o := by
  cases o with
  | none =>
    have habsent : name ∉ members.map (·.1) := by
      intro hname
      obtain ⟨m, hm, rfl⟩ := List.mem_map.mp hname
      obtain ⟨s, hs, -⟩ := (hmem m.2).mp hm
      cases hs
    exact h.optional_absent name habsent (Reader.nullable Reader.string) none
  | some s =>
    have hpresent := (hmem (.string s)).mpr ⟨s, rfl, rfl⟩
    exact h.optional name hpresent (h.faithful.readNullable (h.faithful.readString s)) none

theorem refuses_required (_ : Listed embed members) (name : String)
    (hmem : name ∉ members.map (·.1)) (read : Reader σ α) :
    (Fields.required name read).Refuses (shownMembers embed members) := by
  intro number
  have hnone : occurrences name (shownMembers embed members) = [] := namedFrom_eq_nil hmem 0
  show ∃ e, (Given.field name read none number _).result = .error e
  unfold Given.field
  simp only [hnone]
  exact ⟨_, rfl⟩

/-- A record is read from an object that gives its fields and has no other members. -/
theorem record (h : Listed embed members) (name : String) {fields : Fields σ α} {a : α}
    (hgives : fields.Gives (shownMembers embed members) a)
    (hnames : members.map (·.1) ⊆ fields.names) :
    Reader.record name fields (embed (.object members)) = .ok a := by
  unfold Reader.record
  simp only [h.faithful.object, strays_eq_pure hnames]
  unfold Located.both
  rw [hgives 0]
  rfl

/-- A record is not read from an object that gives no value for its fields. -/
theorem record_error (h : Listed embed members) (name : String) {fields : Fields σ α}
    (hrefuses : fields.Refuses (shownMembers embed members)) :
    ∃ e, Reader.record name fields (embed (.object members)) = .error e := by
  obtain ⟨e, he⟩ := hrefuses 0
  obtain ⟨e', he'⟩ := both_error_left (fun a (_ : Unit) => a) he
    (strays fields.names (shownMembers embed members) .closed)
  refine ⟨e'.2, ?_⟩
  unfold Reader.record
  simp only [h.faithful.object]
  unfold Located.forget
  rw [he']

end Listed

/-! ## Tagged forms -/

namespace Faithful

theorem contentMembers_eq (hembed : Faithful embed) {levels : Nat}
    {members : List (String × Json)} (hnames : tagName ∉ members.map (·.1))
    (hshallow : ∀ m ∈ members, m.2.depth ≤ levels) (start : Nat) :
    (contentMembers levels ((shownMembers embed members).zipIdx start)).result = .ok members := by
  induction members generalizing start with
  | nil => rfl
  | cons m rest ih =>
    rw [List.map_cons, List.mem_cons, not_or] at hnames
    obtain ⟨hname, hnames⟩ := hnames
    have hdepth := hshallow m List.mem_cons_self
    have hrest := ih hnames (fun m' hm' => hshallow m' (List.mem_cons_of_mem _ hm')) (start + 1)
    have hmember : contentMember levels (.quoted (.ok m.1)) (embed m.2) = .ok m := by
      unfold contentMember
      rw [hembed.buffer levels m.2 hdepth]
      rfl
    rw [shownMembers_cons, List.zipIdx_cons, contentMembers, isNamed_of_ne (Ne.symm hname),
      if_neg (by decide), hmember]
    show (Located.both List.cons (.pure m)
      (contentMembers levels ((shownMembers embed rest).zipIdx (start + 1)))).result = _
    unfold Located.both
    rw [hrest]
    rfl

/-- A tagged form is read from an object with a known form. -/
theorem tagged (hembed : Faithful embed) (name : String) {variants : Variants α} {form : String}
    {variant : α} (hform : variants.lookup form = some variant) {levels : Nat}
    {members : List (String × Json)} (hnames : tagName ∉ members.map (·.1))
    (hdepth : (Json.tagged form members).depth ≤ levels + 1) :
    Reader.tagged name variants levels (embed (Json.tagged form members))
      = .ok (variant, .object members) := by
  have hvariant : Reader.variant variants (embed (.string form)) = .ok variant := by
    unfold Reader.variant Variants.named
    rw [hembed.string]
    simp only [hform]
  have hone : occurrences tagName (shownMembers embed ((tagName, .string form) :: members))
      = [((.quoted (.ok tagName), embed (.string form)), 0)] := by
    show namedFrom tagName _ 0 = _
    rw [shownMembers_cons, namedFrom_cons, isNamed_self, if_pos rfl, namedFrom_eq_nil hnames]
  have htag := field_of_occurrences hone hvariant none 0
  have hshallow : ∀ m ∈ members, m.2.depth ≤ levels := by
    intro m hm
    have hlt : m.2.depth < (Json.tagged form members).depth := depth_lt_of_mem_tagged hm
    omega
  have hcontent : (contentMembers levels
      (shownMembers embed ((tagName, .string form) :: members)).zipIdx).result = .ok members := by
    rw [shownMembers_cons, List.zipIdx_cons, contentMembers, isNamed_self, if_pos rfl]
    exact hembed.contentMembers_eq hnames hshallow 1
  unfold Reader.tagged Json.tagged
  simp only [hembed.object]
  unfold Located.both
  rw [htag, hcontent]
  rfl

/-- What is read from the members of a known form is read from the tagged form. -/
theorem readTagged (hembed : Faithful embed) (name : String) {variants : Variants β}
    {form : String} {variant : β} (hform : variants.lookup form = some variant) {levels : Nat}
    {members : List (String × Json)} (hnames : tagName ∉ members.map (·.1))
    (hdepth : (Json.tagged form members).depth ≤ levels + 1) {parts : β → Reader Json α} {a : α}
    (hparts : parts variant (.object members) = .ok a) :
    (Reader.tagged name variants levels (embed (Json.tagged form members)) >>= fun p =>
      parts p.1 p.2) = .ok a := by
  rw [hembed.tagged name hform hnames hdepth]
  exact hparts

end Faithful

end SchemaTypes.Json
