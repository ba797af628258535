import SchemaTypes.Generation
import SchemaTypes.Proofs.RoundTrip.Records

/-!
# Databases are read back

The description of a database is a record of lists of records, all of whose members are
texts, truth values or texts that may be left out. Each record is written with its members
under their own names and none besides, so it is read back as it was
(`Column.read_toJson`, `Table.read_toJson`), at any nesting of a text.

> `Database.text_faithful`: a database is read back from its text as it was, so that the
> text stands for the database wherever modules are generated.
-/

namespace SchemaTypes

open Json (Fields Listed Reader faithful_outline shownMembers)

/-! ## Columns and tables -/

namespace Column

/-- The members that a column is written with. -/
def members (c : Column) : List (String × Json) :=
  [("name", .string c.name), ("dataType", .string c.dataType),
    ("isNullable", .boolean c.isNullable), ("isArray", .boolean c.isArray),
    ("hasDefault", .boolean c.hasDefault), ("isAutoIncrementing", .boolean c.isAutoIncrementing)]
    ++ Json.optionalMember "comment" c.comment

theorem toJson_eq (c : Column) : c.toJson = .object c.members := rfl

theorem read_toJson (c : Column) :
    Reader.record "ColumnMetadata" fields c.toJson.outline = .ok c := by
  have hlisted : Listed Json.outline c.members :=
    ⟨faithful_outline, by cases h : c.comment <;> simp [members, h, Json.optionalMember]⟩
  have hname := hlisted.required "name" (by simp [members]) (faithful_outline.readString c.name)
  have hdataType := hlisted.required "dataType" (by simp [members])
    (faithful_outline.readString c.dataType)
  have hflag : ∀ (name : String) (b : Bool), (name, .boolean b) ∈ c.members →
      (Fields.optional name Reader.boolean false).Gives (shownMembers Json.outline c.members) b :=
    fun name b hmem => hlisted.optional name hmem (faithful_outline.readBoolean b) false
  have hisNullable := hflag "isNullable" c.isNullable (by simp [members])
  have hisArray := hflag "isArray" c.isArray (by simp [members])
  have hhasDefault := hflag "hasDefault" c.hasDefault (by simp [members])
  have hisAutoIncrementing := hflag "isAutoIncrementing" c.isAutoIncrementing (by simp [members])
  have hcomment := hlisted.optional_text "comment" (o := c.comment)
    (by cases h : c.comment <;> simp [members, h, Json.optionalMember])
  have hgives := ((((((hname.map Column.mk).seq hdataType).seq hisNullable).seq hisArray).seq
    hhasDefault).seq hisAutoIncrementing).seq hcomment
  exact hlisted.record "ColumnMetadata" hgives
    (by cases h : c.comment <;> simp [members, h, Json.optionalMember, fields])

theorem plain_toJson (c : Column) : c.toJson.Plain := by
  have hflag : ∀ b : Bool, (Json.boolean b).Plain := fun _ => .scalar trivial
  rw [toJson_eq, Json.plain_object, members]
  cases c.comment <;> simp [Json.optionalMember, hflag]

end Column

namespace Table

theorem read_toJson (t : Table) :
    Reader.record "TableMetadata" fields t.toJson.outline = .ok t := by
  obtain ⟨schema, name, columns⟩ := t
  have hlisted : Listed Json.outline (Json.optionalMember "schema" schema
      ++ [("name", .string name), ("columns", .array (columns.map Column.toJson))]) :=
    ⟨faithful_outline, by cases schema <;> simp [Json.optionalMember]⟩
  have hschema := hlisted.optional_text "schema" (o := schema)
    (by cases schema <;> simp [Json.optionalMember])
  have hname := hlisted.required "name" (by simp) (faithful_outline.readString name)
  have hcolumns := hlisted.optional "columns" (by simp)
    (faithful_outline.readList fun c (_ : c ∈ columns) => c.read_toJson) []
  exact hlisted.record "TableMetadata" (((hschema.map Table.mk).seq hname).seq hcolumns)
    (by cases schema <;> simp [Json.optionalMember, fields])

theorem plain_toJson (t : Table) : t.toJson.Plain := by
  have hcolumns : ∀ c ∈ t.columns, c.toJson.Plain := fun c _ => c.plain_toJson
  rw [toJson, Json.plain_object]
  cases t.schema <;> simpa [Json.optionalMember] using hcolumns

end Table

/-! ## Databases -/

namespace Database

theorem reader_toJson (d : Database) :
    Reader.record "DatabaseMetadata" fields d.toJson.outline = .ok d := by
  have hlisted : Listed Json.outline [("tables", .array (d.tables.map Table.toJson))] :=
    ⟨faithful_outline, by simp⟩
  have htables := hlisted.optional "tables" List.mem_cons_self
    (faithful_outline.readList fun t (_ : t ∈ d.tables) => t.read_toJson) []
  exact hlisted.record "DatabaseMetadata" (htables.map Database.mk) (by simp [fields])

theorem plain_toJson (d : Database) : d.toJson.Plain := by
  have htables : ∀ t ∈ d.tables, t.toJson.Plain := fun t _ => t.plain_toJson
  rw [toJson, Json.plain_object]
  simpa using htables

theorem read_text (d : Database) : read d.toJson.text = .ok d :=
  Json.read_text d.plain_toJson d.reader_toJson

/-- A database is read back from its text, no other database has that text, not even one
that differs in a schema or comment that is empty instead of left out, and generating from
the text ends as generating from the database does, with a module or with an error. -/
theorem text_faithful (d : Database) :
    read d.toJson.text = .ok d
      ∧ (∀ other : Database, other.toJson.text = d.toJson.text ↔ other = d)
      ∧ ∀ (options : StaticType.Options) (dialect : Dialect),
        generateFromText options dialect d.toJson.text = generate options dialect d := by
  refine ⟨d.read_text, fun other => ⟨fun htext => ?_, fun h => by rw [h]⟩,
    fun options dialect => ?_⟩
  · have hother := other.read_text
    rw [htext, d.read_text] at hother
    exact (Except.ok.inj hother).symm
  · rw [generateFromText, d.read_text]
    rfl

end Database

end SchemaTypes
