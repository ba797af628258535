import SchemaTypes.Codec.Expression
import SchemaTypes.Proofs.Children
import SchemaTypes.Proofs.RoundTrip.Records

/-!
# Expressions are read back

An expression is written as an object with its form and its members (`toJson_eq`). Each
form is read back from its members if the expressions in it are, and so by induction
over the parts every expression is.

> `ofJson_toJson`: from its JSON value an expression is read back, whatever it holds, if
> the value is not nested deeper than the reader goes.
> `plain_toJson`: without doubles, it has nothing but integers of 64 bits for numbers.
-/

namespace SchemaTypes

open Json (Fields Listed Reader faithful_id nestingLimit shownMembers)

theorem Kind.lookup_names (k : Kind) : Kind.names.lookup k.name = some k := by
  cases k <;> rfl

namespace Expression

/-! ## Forms and members -/

theorem toJsonAll_eq_map (es : List Expression) : toJsonAll es = es.map toJson := by
  induction es with
  | nil => rfl
  | cons e es ih => rw [toJsonAll, ih, List.map_cons]

theorem toJsonProperties_eq_map (ps : List Property) :
    toJsonProperties ps = ps.map toJsonProperty := by
  induction ps with
  | nil => rfl
  | cons p ps ih => rw [toJsonProperties, ih, List.map_cons]

/-- The name of a form. -/
def Form.name : Form → String
  | .identifier => "Identifier"
  | .literal => "Literal"
  | .array => "Array"
  | .union => "Union"
  | .object => "Object"
  | .generic => "Generic"
  | .conditional => "ExtendsClause"
  | .infer => "InferClause"
  | .mapped => "MappedType"
  | .moduleReference => "ModuleReference"

theorem lookup_forms (f : Form) : forms.lookup f.name = some f := by
  cases f <;> rfl

/-- The form of an expression. -/
def form : Expression → Form
  | .identifier _ => .identifier
  | .literal _ => .literal
  | .array _ => .array
  | .union _ => .union
  | .object _ => .object
  | .generic _ _ => .generic
  | .conditional _ _ _ _ => .conditional
  | .infer _ => .infer
  | .mapped _ => .mapped
  | .moduleReference _ => .moduleReference

/-- The members that an expression is written with beside its form. -/
def members : Expression → List (String × Json)
  | .identifier id => [("name", .string id.name), ("kind", id.kind.toJson)]
  | .literal value => [("value", value.toJson)]
  | .array element => [("element", element.toJson)]
  | .union variants => [("variants", .array (variants.map toJson))]
  | .object properties => [("properties", .array (properties.map toJsonProperty))]
  | .generic name arguments =>
    [("name", .string name), ("args", .array (arguments.map toJson))]
  | .conditional name test consequent alternate =>
    [("name", .string name), ("test", test.toJson), ("consequent", consequent.toJson),
      ("alternate", alternate.toJson)]
  | .infer name => [("name", .string name)]
  | .mapped value => [("value", value.toJson)]
  | .moduleReference module => [("moduleName", .string module)]

theorem toJson_eq (e : Expression) : e.toJson = .tagged e.form.name e.members := by
  cases e with
  | union variants => rw [toJson, toJsonAll_eq_map]; rfl
  | object properties => rw [toJson, toJsonProperties_eq_map]; rfl
  | generic name arguments => rw [toJson, toJsonAll_eq_map]; rfl
  | _ => rw [toJson]; rfl

/-- No member beside the form is named like it. -/
theorem tagName_not_mem (e : Expression) : Json.tagName ∉ e.members.map (·.1) := by
  cases e <;> simp [members, Json.tagName]

/-! ## Depth -/

theorem depth_lt_of_mem_members {e : Expression} {m : String × Json} (h : m ∈ e.members) :
    m.2.depth < e.toJson.depth := by
  rw [toJson_eq]
  exact Json.depth_lt_of_mem_tagged h

theorem depth_value_lt {p : Property} :
    p.value.toJson.depth < (toJsonProperty p).depth := by
  obtain ⟨key, value, description⟩ := p
  rw [toJsonProperty]
  exact Json.depth_lt_of_mem_object (m := ("value", value.toJson)) (by simp)

/-- An expression is nested deeper than its parts. -/
theorem depth_lt_of_mem_children {e : Expression} {p : Option String × Expression}
    (hp : p ∈ e.children) : p.2.toJson.depth < e.toJson.depth := by
  cases e with
  | array element =>
    rw [List.mem_singleton.mp hp]
    exact depth_lt_of_mem_members (e := .array element) List.mem_cons_self
  | union variants =>
    obtain ⟨v, hv, rfl⟩ := List.mem_map.mp hp
    have hitem := Json.depth_lt_of_mem_array (List.mem_map_of_mem (f := toJson) hv)
    have hmember := depth_lt_of_mem_members (e := .union variants) List.mem_cons_self
    exact Nat.lt_trans hitem hmember
  | object properties =>
    obtain ⟨q, hq, rfl⟩ := List.mem_map.mp hp
    have hitem := Json.depth_lt_of_mem_array (List.mem_map_of_mem (f := toJsonProperty) hq)
    have hmember := depth_lt_of_mem_members (e := .object properties) List.mem_cons_self
    exact Nat.lt_trans (Nat.lt_trans depth_value_lt hitem) hmember
  | generic name arguments =>
    obtain ⟨a, ha, rfl⟩ := List.mem_map.mp hp
    have hitem := Json.depth_lt_of_mem_array (List.mem_map_of_mem (f := toJson) ha)
    have hmember := depth_lt_of_mem_members (e := .generic name arguments)
      (List.mem_cons_of_mem _ List.mem_cons_self)
    exact Nat.lt_trans hitem hmember
  | conditional name test consequent alternate =>
    simp only [children, List.mem_cons, List.not_mem_nil, or_false] at hp
    rcases hp with rfl | rfl | rfl
    · exact depth_lt_of_mem_members (m := ("test", test.toJson)) (by simp [members])
    · exact depth_lt_of_mem_members (m := ("consequent", consequent.toJson)) (by simp [members])
    · exact depth_lt_of_mem_members (m := ("alternate", alternate.toJson)) (by simp [members])
  | mapped value =>
    rw [List.mem_singleton.mp hp]
    exact depth_lt_of_mem_members (e := .mapped value) List.mem_cons_self
  | identifier _ => cases hp
  | literal _ => cases hp
  | infer _ => cases hp
  | moduleReference _ => cases hp

end Expression

/-! ## Doubles -/

theorem Literal.plain_toJson (l : Literal) (h : ∀ x, l ≠ .float x) : l.toJson.Plain := by
  cases l with
  | boolean b => exact .scalar trivial
  | integer n =>
    have hlow := n.le_toInt
    have hhigh := n.toInt_lt
    have hbound : Decimal.twoTo 64 = 2 ^ 64 := rfl
    exact .scalar ⟨hlow, by omega⟩
  | float x => exact absurd rfl (h x)
  | string s => exact .string s

namespace Expression

/-- A double stands as a literal somewhere in the expression. -/
inductive HasFloat : Expression → Prop
  | literal (x : Decimal.Binary64) : HasFloat (.literal (.float x))
  | part {e : Expression} {p : Option String × Expression} (hp : p ∈ e.children)
      (h : HasFloat p.2) : HasFloat e

theorem hasFloat_iff {e : Expression} :
    e.HasFloat ↔ (∃ x, e = .literal (.float x)) ∨ ∃ p ∈ e.children, p.2.HasFloat := by
  constructor
  · intro h
    cases h with
    | literal x => exact .inl ⟨x, rfl⟩
    | part hp h => exact .inr ⟨_, hp, h⟩
  · rintro (⟨x, rfl⟩ | ⟨p, hp, h⟩)
    · exact .literal x
    · exact .part hp h

@[simp] theorem not_hasFloat_identifier (id : Identifier) : ¬(identifier id).HasFloat := by
  rw [hasFloat_iff]
  simp [children]

@[simp] theorem hasFloat_literal {l : Literal} :
    (literal l).HasFloat ↔ ∃ x, l = .float x := by
  rw [hasFloat_iff]
  simp [children]

@[simp] theorem hasFloat_array {e : Expression} : (array e).HasFloat ↔ e.HasFloat := by
  rw [hasFloat_iff]
  simp [children]

@[simp] theorem hasFloat_union {es : List Expression} :
    (union es).HasFloat ↔ ∃ e ∈ es, e.HasFloat := by
  rw [hasFloat_iff]
  simp [children]

@[simp] theorem hasFloat_object {ps : List Property} :
    (object ps).HasFloat ↔ ∃ p ∈ ps, p.value.HasFloat := by
  rw [hasFloat_iff]
  simp [children]

@[simp] theorem hasFloat_generic {name : String} {es : List Expression} :
    (generic name es).HasFloat ↔ ∃ e ∈ es, e.HasFloat := by
  rw [hasFloat_iff]
  simp [children]

@[simp] theorem hasFloat_conditional {name : String} {test consequent alternate : Expression} :
    (conditional name test consequent alternate).HasFloat
      ↔ test.HasFloat ∨ consequent.HasFloat ∨ alternate.HasFloat := by
  rw [hasFloat_iff]
  simp [children]

@[simp] theorem not_hasFloat_infer (name : String) : ¬(infer name).HasFloat := by
  rw [hasFloat_iff]
  simp [children]

@[simp] theorem hasFloat_mapped {e : Expression} : (mapped e).HasFloat ↔ e.HasFloat := by
  rw [hasFloat_iff]
  simp [children]

@[simp] theorem not_hasFloat_moduleReference (module : String) :
    ¬(moduleReference module).HasFloat := by
  rw [hasFloat_iff]
  simp [children]

theorem plain_toJsonProperty {p : Property} (h : p.value.toJson.Plain) :
    (toJsonProperty p).Plain := by
  obtain ⟨key, value, description⟩ := p
  cases description <;> simpa [toJsonProperty, Json.optionalMember] using h

/-- Without doubles, the JSON value has integers of 64 bits for its numbers. -/
theorem plain_toJson (e : Expression) (h : ¬e.HasFloat) : e.toJson.Plain := by
  induction e using induction_on_children with
  | h e ih =>
    have hparts : ∀ p ∈ e.children, p.2.toJson.Plain := fun p hp =>
      ih p hp fun hfloat => h (.part hp hfloat)
    have hmembers : ∀ m ∈ e.members, m.2.Plain := by
      cases e with
      | identifier i => simp [members, Kind.toJson]
      | literal value =>
        have hvalue : value.toJson.Plain := value.plain_toJson fun x hx => h (hx ▸ .literal x)
        simpa [members] using hvalue
      | array element => simpa [members, children] using hparts
      | union variants => simpa [members, children] using hparts
      | object properties =>
        have hproperties : ∀ p ∈ properties, (toJsonProperty p).Plain := fun p hp =>
          plain_toJsonProperty (hparts (some p.key, p.value) (List.mem_map_of_mem hp))
        simpa [members] using hproperties
      | generic name arguments => simpa [members, children] using hparts
      | conditional name test consequent alternate => simpa [members, children] using hparts
      | infer name => simp [members]
      | mapped value => simpa [members, children] using hparts
      | moduleReference module => simp [members]
    rw [toJson_eq, Json.tagged, Json.plain_object]
    simpa using hmembers

end Expression

/-! ## One form at a time -/

theorem Literal.ofJson_toJson (l : Literal) : Literal.ofJson l.toJson = .ok l := by
  cases l with
  | boolean b => rfl
  | integer n =>
    have hlow := Int64.minValue_le_toInt n
    have hhigh := Int64.toInt_le n
    have hfits : ¬(n.toInt < Int64.minValue.toInt ∨ Int64.maxValue.toInt < n.toInt) := by omega
    show (if n.toInt < Int64.minValue.toInt ∨ Int64.maxValue.toInt < n.toInt then _
      else .ok (.integer (Int64.ofInt n.toInt))) = Except.ok (Literal.integer n)
    rw [if_neg hfits, Int64.ofInt_toInt]
  | float x => rfl
  | string s => rfl

theorem Literal.depth_toJson (l : Literal) : l.toJson.depth = 0 := by
  cases l <;> rfl

theorem Literal.read_toJson (l : Literal) :
    Reader.buffered nestingLimit Literal.ofJson l.toJson = .ok l := by
  have hdepth : l.toJson.depth ≤ nestingLimit := by
    rw [l.depth_toJson]
    exact Nat.zero_le _
  rw [← l.ofJson_toJson]
  exact faithful_id.readBuffered hdepth _

/-- The kind is kept, whatever kind the name spells. -/
theorem Identifier.fields_give (i : Identifier) :
    Identifier.fields.Gives (shownMembers id [("name", .string i.name), ("kind", i.kind.toJson)])
      i := by
  have hlisted : Listed id [("name", .string i.name), ("kind", i.kind.toJson)] :=
    ⟨faithful_id, by simp⟩
  have hname := hlisted.required "name" (by simp) (faithful_id.readString i.name)
  have hkind := hlisted.optional "kind" (by simp [Kind.toJson])
    (faithful_id.readNullable (faithful_id.readChoice i.kind.lookup_names)) none
  exact (hname.map _).seq hkind

/-- A description that is left out is read as none, and an empty one as empty. -/
theorem Property.read_toJson {inner : Reader Json Expression} {p : Property}
    (h : inner p.value.toJson = .ok p.value) :
    Reader.record "Property" (Property.fields inner) (Expression.toJsonProperty p) = .ok p := by
  obtain ⟨key, value, description⟩ := p
  have hlisted : Listed id ([("key", .string key), ("value", value.toJson)]
      ++ Json.optionalMember "description" description) :=
    ⟨faithful_id, by cases description <;> simp [Json.optionalMember]⟩
  have hkey := hlisted.required "key" (by simp) (faithful_id.readString key)
  have hvalue := hlisted.required "value" (by simp) h
  have hdescription := hlisted.optional_text "description" (o := description)
    (by cases description <;> simp [Json.optionalMember])
  rw [Expression.toJsonProperty]
  exact hlisted.record "Property" (((hkey.map _).seq hvalue).seq hdescription)
    (by cases description <;> simp [Json.optionalMember, fields])

namespace Expression

theorem listed_members (e : Expression) : Listed id e.members :=
  ⟨faithful_id, by cases e <;> simp [members]⟩

/-- The parts of a form are read back if the expressions in it are. -/
theorem parts_members {inner : Reader Json Expression} {e : Expression}
    (h : ∀ p ∈ e.children, inner p.2.toJson = .ok p.2) :
    parts inner e.form (.object e.members) = .ok e := by
  have hlisted := listed_members e
  cases e with
  | identifier i =>
    exact hlisted.record "IdentifierRepr" (i.fields_give.map _)
      (by simp [members, Identifier.fields])
  | literal value =>
    have hvalue := hlisted.required "value" List.mem_cons_self value.read_toJson
    exact hlisted.record "Literal" ((hvalue.map _).map _) (by simp [members, Literal.fields])
  | array element =>
    have helement := hlisted.required "element" List.mem_cons_self
      (h (none, element) List.mem_cons_self)
    exact hlisted.record "ArrayExpression" (helement.map _) (by simp [members])
  | union variants =>
    have hread : ∀ v ∈ variants, inner v.toJson = .ok v := fun v hv =>
      h (none, v) (List.mem_map_of_mem hv)
    have hvariants := hlisted.required "variants" List.mem_cons_self (faithful_id.readList hread)
    exact hlisted.record "UnionExpression" (hvariants.map _) (by simp [members])
  | object properties =>
    have hread : ∀ p ∈ properties,
        Reader.record "Property" (Property.fields inner) (toJsonProperty p) = .ok p := fun p hp =>
      Property.read_toJson (h (some p.key, p.value) (List.mem_map_of_mem hp))
    have hproperties := hlisted.required "properties" List.mem_cons_self
      (faithful_id.readList hread)
    exact hlisted.record "ObjectExpression" (hproperties.map _) (by simp [members])
  | generic name arguments =>
    have hread : ∀ a ∈ arguments, inner a.toJson = .ok a := fun a ha =>
      h (none, a) (List.mem_map_of_mem ha)
    have hname := hlisted.required "name" List.mem_cons_self (faithful_id.readString name)
    have harguments := hlisted.required "args" (List.mem_cons_of_mem _ List.mem_cons_self)
      (faithful_id.readList hread)
    exact hlisted.record "GenericExpression" ((hname.map _).seq harguments) (by simp [members])
  | conditional name test consequent alternate =>
    have hname := hlisted.required "name" (by simp [members]) (faithful_id.readString name)
    have htest := hlisted.required "test" (by simp [members]) (h (none, test) (by simp [children]))
    have hconsequent := hlisted.required "consequent" (by simp [members])
      (h (none, consequent) (by simp [children]))
    have halternate := hlisted.required "alternate" (by simp [members])
      (h (none, alternate) (by simp [children]))
    exact hlisted.record "ExtendsClause"
      ((((hname.map _).seq htest).seq hconsequent).seq halternate) (by simp [members])
  | infer name =>
    have hname := hlisted.required "name" List.mem_cons_self (faithful_id.readString name)
    exact hlisted.record "InferClause" (hname.map _) (by simp [members])
  | mapped value =>
    have hvalue := hlisted.required "value" List.mem_cons_self (h (none, value) List.mem_cons_self)
    exact hlisted.record "MappedType" (hvalue.map _) (by simp [members])
  | moduleReference module =>
    have hmodule := hlisted.required "moduleName" List.mem_cons_self
      (faithful_id.readString module)
    exact hlisted.record "ModuleReference" (hmodule.map _) (by simp [members])

/-- An expression is read back from its JSON value, if the reader goes deep enough. -/
theorem ofJson_toJson (e : Expression) (levels : Nat) (hdepth : e.toJson.depth ≤ levels) :
    ofJson levels e.toJson = .ok e := by
  induction e using induction_on_children generalizing levels with
  | h e ih =>
    have hpositive : 0 < e.toJson.depth := by
      rw [toJson_eq, Json.tagged, Json.depth]
      omega
    obtain ⟨levels, rfl⟩ : ∃ n, levels = n + 1 := ⟨levels - 1, by omega⟩
    have hparts : ∀ p ∈ e.children, ofJson levels p.2.toJson = .ok p.2 := by
      intro p hp
      have hlt := depth_lt_of_mem_children hp
      exact ih p hp levels (by omega)
    rw [toJson_eq] at hdepth ⊢
    exact faithful_id.readTagged "Expression" (lookup_forms e.form) (tagName_not_mem e) hdepth
      (parts_members hparts)

end Expression

end SchemaTypes
