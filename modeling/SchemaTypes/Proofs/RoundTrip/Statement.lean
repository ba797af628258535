import SchemaTypes.Codec.Statement
import SchemaTypes.Proofs.RoundTrip.Expression

/-!
# Statements are read back

Statements and declarations are tagged like expressions. The body of an alias is not: it
is tried as a template first. That cannot go wrong, since an expression is never written
with parameters (`AliasBody.ofJson_toJson`).

> `Statement.readList_text`: a list of statements without doubles is read back from its
> text as it was, if the text is not nested deeper than a reader goes.
-/

namespace SchemaTypes

open Json (Fields Listed Reader faithful_id faithful_outline nestingLimit)

/-! ## Bodies and declarations -/

theorem Template.read_toJson (t : Template) (hdepth : t.expression.toJson.depth ≤ nestingLimit) :
    Reader.record "Template" (Template.fields (Expression.ofJson nestingLimit))
      (AliasBody.template t).toJson = .ok t := by
  have hlisted : Listed id
      [("params", Json.strings t.params), ("expression", t.expression.toJson)] :=
    ⟨faithful_id, by simp⟩
  have hstrings : Reader.list Reader.string (Json.strings t.params) = .ok t.params :=
    faithful_id.readList fun s _ => faithful_id.readString s
  have hparams := hlisted.required "params" List.mem_cons_self hstrings
  have hexpression := hlisted.required "expression" (by simp)
    (t.expression.ofJson_toJson nestingLimit hdepth)
  exact hlisted.record "Template" ((hparams.map _).seq hexpression) (by simp [Template.fields])

/-- No expression is written with parameters, so none is read as a template. -/
theorem Template.read_expression (e : Expression) :
    ∃ error, Reader.record "Template" (Template.fields (Expression.ofJson nestingLimit)) e.toJson
      = .error error := by
  have hparams : "params" ∉
      ((Json.tagName, Json.string e.form.name) :: e.members).map (·.1) := by
    cases e <;> simp [Expression.members, Json.tagName]
  have hlisted : Listed id ((Json.tagName, .string e.form.name) :: e.members) :=
    ⟨faithful_id, by cases e <;> simp [Expression.members, Json.tagName]⟩
  have hrefuses := hlisted.refuses_required "params" hparams (Reader.list Reader.string)
  rw [Expression.toJson_eq]
  exact hlisted.record_error "Template" ((hrefuses.map _).seq _)

theorem AliasBody.ofJson_toJson (body : AliasBody)
    (hdepth : body.expression.toJson.depth ≤ nestingLimit) :
    AliasBody.ofJson body.toJson = .ok body := by
  cases body with
  | template t =>
    have hread := t.read_toJson hdepth
    unfold AliasBody.ofJson
    simp only [hread]
  | plain e =>
    obtain ⟨error, herror⟩ := Template.read_expression e
    have hread := e.ofJson_toJson nestingLimit hdepth
    unfold AliasBody.ofJson
    simp only [AliasBody.toJson, herror, hread]

theorem AliasBody.depth_expression_le (body : AliasBody) :
    body.expression.toJson.depth ≤ body.toJson.depth := by
  cases body with
  | template t =>
    have hlt : t.expression.toJson.depth < (AliasBody.template t).toJson.depth :=
      Json.depth_lt_of_mem_object (m := ("expression", t.expression.toJson)) (by simp)
    exact Nat.le_of_lt hlt
  | plain e => exact Nat.le_refl _

/-- The properties of an interface are read back from the object that holds them. -/
theorem Property.read_object {ps : List Property}
    (hdepth : (Json.object [("properties", .array (Expression.toJsonProperties ps))]).depth
      ≤ nestingLimit) :
    Reader.record "ObjectExpression" (id <$> Fields.required "properties" Property.listOfJson)
      (.object [("properties", .array (Expression.toJsonProperties ps))]) = .ok ps := by
  have hlisted : Listed id [("properties", .array (Expression.toJsonProperties ps))] :=
    ⟨faithful_id, by simp⟩
  have harray : (Json.array (Expression.toJsonProperties ps)).depth ≤ nestingLimit :=
    Nat.le_of_lt (Nat.lt_of_lt_of_le
      (Json.depth_lt_of_mem_object (m := ("properties", _)) List.mem_cons_self) hdepth)
  have hlist : Property.listOfJson (.array (Expression.toJsonProperties ps)) = .ok ps := by
    rw [Expression.toJsonProperties_eq_map] at harray ⊢
    refine faithful_id.readList fun p hp => Property.read_toJson ?_
    have hproperty := Json.depth_lt_of_mem_array
      (List.mem_map_of_mem (f := Expression.toJsonProperty) hp)
    have hvalue := Expression.depth_value_lt (p := p)
    exact p.value.ofJson_toJson nestingLimit (by omega)
  have hproperties := hlisted.required "properties" List.mem_cons_self hlist
  exact hlisted.record "ObjectExpression" (hproperties.map id) (by simp)

namespace Declaration

/-- The name of a form. -/
def Form.name : Form → String
  | .typeAlias => "AliasDeclaration"
  | .interface => "InterfaceDeclaration"

theorem lookup_forms (f : Form) : forms.lookup f.name = some f := by
  cases f <;> rfl

/-- The form of a declaration. -/
def form : Declaration → Form
  | .typeAlias _ _ => .typeAlias
  | .interface _ _ => .interface

/-- The members that a declaration is written with beside its form. -/
def members : Declaration → List (String × Json)
  | .typeAlias name body => [("name", .string name), ("body", body.toJson)]
  | .interface name ps =>
    [("name", .string name),
      ("body", .object [("properties", .array (Expression.toJsonProperties ps))])]

theorem toJson_eq (d : Declaration) : d.toJson = .tagged d.form.name d.members := by
  cases d <;> rfl

theorem depth_lt_of_mem_members {d : Declaration} {m : String × Json} (h : m ∈ d.members) :
    m.2.depth < d.toJson.depth := by
  rw [toJson_eq]
  exact Json.depth_lt_of_mem_tagged h

theorem parts_members {d : Declaration} (hdepth : d.toJson.depth ≤ nestingLimit) :
    parts d.form (.object d.members) = .ok d := by
  have hlisted : Listed id d.members := ⟨faithful_id, by cases d <;> simp [members]⟩
  cases d with
  | typeAlias name body =>
    have hlt := depth_lt_of_mem_members (d := .typeAlias name body) (m := ("body", body.toJson))
      (by simp [members])
    have hexpression : body.expression.toJson.depth ≤ nestingLimit :=
      Nat.le_trans body.depth_expression_le (Nat.le_trans (Nat.le_of_lt hlt) hdepth)
    have hname := hlisted.required "name" (by simp [members]) (faithful_id.readString name)
    have hbody := hlisted.required "body" (List.mem_cons_of_mem _ List.mem_cons_self)
      (body.ofJson_toJson hexpression)
    exact hlisted.record "AliasDeclaration" ((hname.map _).seq hbody) (by simp [members])
  | interface name ps =>
    have hlt := depth_lt_of_mem_members (d := .interface name ps) (m := ("body", _))
      (List.mem_cons_of_mem _ List.mem_cons_self)
    have hname := hlisted.required "name" (by simp [members]) (faithful_id.readString name)
    have hbody := hlisted.required "body" (List.mem_cons_of_mem _ List.mem_cons_self)
      (Property.read_object (Nat.le_trans (Nat.le_of_lt hlt) hdepth))
    exact hlisted.record "InterfaceDeclaration" ((hname.map _).seq hbody) (by simp [members])

theorem ofJson_toJson (d : Declaration) (hdepth : d.toJson.depth ≤ nestingLimit) :
    ofJson d.toJson = .ok d := by
  have hnames : Json.tagName ∉ d.members.map (·.1) := by
    cases d <;> simp [members, Json.tagName]
  have hshallow : d.toJson.depth ≤ nestingLimit + 1 := Nat.le_succ_of_le hdepth
  have hparts := parts_members hdepth
  rw [toJson_eq] at hshallow ⊢
  exact faithful_id.readTagged "Declaration" (lookup_forms d.form) hnames hshallow hparts

end Declaration

/-! ## Statements -/

/-- A name for an import that is left out is read as none, and an empty one as empty. -/
theorem ImportClause.read_toJson (c : ImportClause) :
    Reader.record "ImportClause" ImportClause.fields c.toJson = .ok c := by
  obtain ⟨name, localName⟩ := c
  have hlisted : Listed id ([("name", .string name)] ++ Json.optionalMember "alias" localName) :=
    ⟨faithful_id, by cases localName <;> simp [Json.optionalMember]⟩
  have hname := hlisted.required "name" (by simp) (faithful_id.readString name)
  have halias := hlisted.optional_text "alias" (o := localName)
    (by cases localName <;> simp [Json.optionalMember])
  exact hlisted.record "ImportClause" ((hname.map _).seq halias)
    (by cases localName <;> simp [Json.optionalMember, fields])

namespace Statement

/-- The name of a form. -/
def Form.name : Form → String
  | .imports => "ImportStatement"
  | .exports => "ExportStatement"

theorem lookup_forms (f : Form) : forms.lookup f.name = some f := by
  cases f <;> rfl

/-- The form of a statement. -/
def form : Statement → Form
  | .imports _ => .imports
  | .exports _ => .exports

/-- The members that a statement is written with beside its form. -/
def members : Statement → List (String × Json)
  | .imports i => i.members
  | .exports d => [("argument", d.toJson)]

theorem toJson_eq (s : Statement) : s.toJson = .tagged s.form.name s.members := by
  cases s <;> rfl

theorem parts_members {s : Statement} (hdepth : s.toJson.depth ≤ nestingLimit) :
    parts s.form (.object s.members) = .ok s := by
  have hlisted : Listed id s.members :=
    ⟨faithful_id, by cases s <;> simp [members, Import.members]⟩
  cases s with
  | imports i =>
    have hmodule := hlisted.required "moduleName" List.mem_cons_self
      (faithful_id.readString i.module)
    have hclauses := hlisted.required "imports" (List.mem_cons_of_mem _ List.mem_cons_self)
      (faithful_id.readList fun c _ => c.read_toJson)
    exact hlisted.record "ImportStatement" ((hmodule.map _).seq hclauses)
      (by simp [members, Import.members])
  | exports d =>
    have hlt : d.toJson.depth < (exports d).toJson.depth :=
      Json.depth_lt_of_mem_tagged (m := ("argument", d.toJson)) List.mem_cons_self
    have hargument := hlisted.required "argument" List.mem_cons_self
      (d.ofJson_toJson (Nat.le_trans (Nat.le_of_lt hlt) hdepth))
    exact hlisted.record "ExportStatement" (hargument.map _) (by simp [members])

/-- A statement is read from its tree in a text, if the reader goes deep enough. -/
theorem reader_toJson (s : Statement) {levels : Nat} (hdepth : s.toJson.depth ≤ levels)
    (hlevels : levels ≤ nestingLimit) : reader levels s.toJson.outline = .ok s := by
  have hnames : Json.tagName ∉ s.members.map (·.1) := by
    cases s <;> simp [members, Import.members, Json.tagName]
  have hshallow : s.toJson.depth ≤ levels - 1 + 1 := by omega
  have hparts := parts_members (Nat.le_trans hdepth hlevels)
  rw [toJson_eq] at hshallow ⊢
  exact faithful_outline.readTagged "Statement" (lookup_forms s.form) hnames hshallow hparts

/-! ## Texts -/

/-- The expressions that the statement holds outside of one another. -/
def expressions : Statement → List Expression
  | .imports _ => []
  | .exports (.typeAlias _ body) => [body.expression]
  | .exports (.interface _ ps) => ps.map (·.value)

/-- A double stands as a literal somewhere in the statement. -/
def HasFloat (s : Statement) : Prop := ∃ e ∈ s.expressions, e.HasFloat

theorem plain_toJson (s : Statement) (h : ¬s.HasFloat) : s.toJson.Plain := by
  have hexpressions : ∀ e ∈ s.expressions, e.toJson.Plain := fun e he =>
    e.plain_toJson fun hfloat => h ⟨e, he, hfloat⟩
  rw [toJson_eq, Json.tagged, Json.plain_object]
  rcases s with ⟨module, clauses⟩ | (⟨name, body⟩ | ⟨name, ps⟩)
  · have hclauses : ∀ c ∈ clauses, c.toJson.Plain := by
      intro c _
      obtain ⟨name, localName⟩ := c
      cases localName <;> simp [ImportClause.toJson, Json.optionalMember]
    simpa [members, Import.members] using hclauses
  · have hbody : body.toJson.Plain := by
      have hexpression : body.expression.toJson.Plain := hexpressions _ List.mem_cons_self
      cases body with
      | template t =>
        have hexpression : t.expression.toJson.Plain := hexpression
        simpa [AliasBody.toJson, Json.strings] using hexpression
      | plain e => exact hexpression
    simpa [members, Declaration.toJson, Json.tagged] using hbody
  · have hproperties : ∀ p ∈ ps, (Expression.toJsonProperty p).Plain := fun p hp =>
      Expression.plain_toJsonProperty (hexpressions _ (List.mem_map_of_mem hp))
    simpa [members, Declaration.toJson, Json.tagged, Expression.toJsonProperties_eq_map]
      using hproperties

/-- Statements without doubles are read back from their text as they were. -/
theorem readList_text (ss : List Statement) (hfloats : ∀ s ∈ ss, ¬s.HasFloat)
    (hdepth : (toJsonList ss).depth ≤ nestingLimit) :
    readList (toJsonList ss).text = .ok ss := by
  have hplain : (toJsonList ss).Plain := by
    have hstatements : ∀ s ∈ ss, s.toJson.Plain := fun s hs => s.plain_toJson (hfloats s hs)
    simpa [toJsonList] using hstatements
  have hread : ∀ s ∈ ss, reader (nestingLimit - 1) s.toJson.outline = .ok s := by
    intro s hs
    have hlt : s.toJson.depth < (toJsonList ss).depth :=
      Json.depth_lt_of_mem_array (List.mem_map_of_mem hs)
    exact s.reader_toJson (by omega) (Nat.sub_le _ _)
  exact Json.read_text hplain (faithful_outline.readList hread)

/-- Every form of a statement and of an expression, with kinds that the names do not
spell and with descriptions and names that are left out or empty. -/
def mixedModule : List Statement :=
  [.imports ⟨"./json", [⟨"JsonValue", none⟩, ⟨"Json", some ""⟩, ⟨"Raw", some "RawJson"⟩]⟩,
    exportAlias "Boxed" (.template ⟨["T"], .conditional "T" (.array (.infer "U"))
      (.generic "Box" [.reference "U"]) (.mapped (.identifier ⟨"Date", .reference⟩))⟩),
    exportAlias "Flag" (.plain (.union [.literal (.boolean true), .literal (.integer (-1)),
      .literal (.string "true"), .literal (.string "\"\n\u0001"), .moduleReference "./json"])),
    exportInterface "Users" [⟨"id", .identifier ⟨"Int64", .string⟩, none⟩,
      ⟨"", .object [⟨"empty", .union [], some ""⟩], some "nested"⟩]]

theorem readList_text_mixedModule :
    (∀ s ∈ mixedModule, ¬s.HasFloat) ∧ (toJsonList mixedModule).depth ≤ nestingLimit
      ∧ readList (toJsonList mixedModule).text = .ok mixedModule := by
  have hfloats : ∀ s ∈ mixedModule, ¬s.HasFloat := by
    simp [mixedModule, exportAlias, exportInterface, HasFloat, expressions, AliasBody.expression,
      Expression.reference]
  have hdepth : (toJsonList mixedModule).depth ≤ nestingLimit := by decide +kernel
  exact ⟨hfloats, hdepth, readList_text mixedModule hfloats hdepth⟩

end Statement

end SchemaTypes
