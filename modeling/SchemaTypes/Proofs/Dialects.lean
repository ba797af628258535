import SchemaTypes.Dialect
import SchemaTypes.Proofs.Lists

/-!
# The catalogs of the dialects

A dialect is read from its name in any case (`ofName_eq_ok_iff`). The names that are defined
and imported are the same in all dialects, whatever the definitions are
(`isSome_definition?_iff`, `isSome_moduleOf?_iff`). Dialects differ in their scalar types only.
A scalar type is always a name, and

> `resolve_expression`: what a database writes as a type is one of the few scalar types
> in `typeNames`.
-/

namespace SchemaTypes

/-- The types that a scalar of the catalog can have. -/
def Catalog.scalarTypes (c : Catalog) : List Expression :=
  c.defaultScalar :: c.scalars.entries.map (·.2)

theorem Catalog.resolve_mem (c : Catalog) (raw : String) :
    (c.resolve raw).expression ∈ c.scalarTypes := by
  show (c.scalars.find? (ScalarName.parse raw).name).getD c.defaultScalar ∈ _
  cases hfind : c.scalars.find? (ScalarName.parse raw).name with
  | none => exact List.mem_cons_self
  | some e =>
    have hentry := NameMap.find?_eq_some_iff.mp hfind
    exact List.mem_cons_of_mem _ (List.mem_map_of_mem hentry)

namespace Dialect

/-! ## Names of dialects -/

theorem mem_all (d : Dialect) : d ∈ all := by
  cases d <;> decide

/-- A dialect is read from its name in any case, and from nothing else. -/
theorem ofName_eq_ok_iff {name : String} {d : Dialect} :
    ofName name = .ok d ↔ Text.sameIgnoringCase d.name name := by
  have hdistinct : ∀ d ∈ all, ∀ d' ∈ all,
      d.name.toList.map Char.toLower = d'.name.toList.map Char.toLower → d = d' := by decide
  rw [ofName]
  split
  · next d' hfind =>
    have hfound := List.find?_some hfind
    rw [Except.ok.injEq]
    constructor
    · rintro rfl
      exact hfound
    · intro h
      rw [Text.sameIgnoringCase, beq_iff_eq] at h hfound
      exact hdistinct d' (mem_all d') d (mem_all d) (hfound.trans h.symm)
  · next hnone =>
    constructor
    · intro h
      cases h
    · intro h
      exact absurd h (List.find?_eq_none.mp hnone d (mem_all d))

/-- Where no dialect has the name, that is what is said. -/
theorem ofName_eq_error_iff {name message : String} :
    ofName name = .error message
      ↔ (∀ d : Dialect, Text.sameIgnoringCase d.name name = false)
        ∧ message = unknownMessage name := by
  rw [ofName]
  split
  · next d' hfind =>
    have hfound := List.find?_some hfind
    refine ⟨fun h => (by cases h), fun h => ?_⟩
    rw [h.1 d'] at hfound
    cases hfound
  · next hnone =>
    rw [Except.error.injEq, eq_comm]
    refine ⟨fun h => ⟨fun d => ?_, h⟩, And.right⟩
    exact Bool.eq_false_iff.mpr (List.find?_eq_none.mp hnone d (mem_all d))

variable {d : Dialect} {c : Catalog}

theorem catalog_eq (hc : d.catalog = .ok c) : ∃ definitions, Definitions.all = .ok definitions
    ∧ c = {
      defaultSchema := "default"
      defaultScalar := .named "string"
      scalars := .ofList (d.scalars.map fun entry => (entry.1, .named entry.2))
      definitions := .ofList definitions
      imports := .ofList imports } := by
  obtain ⟨definitions, hdefinitions⟩ : ∃ definitions, Definitions.all = .ok definitions := ⟨_, rfl⟩
  rw [catalog, hdefinitions] at hc
  exact ⟨definitions, hdefinitions, (Except.ok.inj hc).symm⟩

theorem defaultSchema_eq (hc : d.catalog = .ok c) : c.defaultSchema = "default" := by
  obtain ⟨definitions, _, rfl⟩ := catalog_eq hc
  rfl

theorem defaultScalar_eq (hc : d.catalog = .ok c) : c.defaultScalar = .named "string" := by
  obtain ⟨definitions, _, rfl⟩ := catalog_eq hc
  rfl

/-! ## Entries

What is listed for a dialect ascends already, so the entries of its catalog are as they are
listed. -/

theorem entries_scalars (hc : d.catalog = .ok c) :
    c.scalars.entries = d.scalars.map fun entry => (entry.1, .named entry.2) := by
  obtain ⟨definitions, _, rfl⟩ := catalog_eq hc
  exact NameMap.entries_ofList (by cases d <;> decide)

theorem entries_definitions (hc : d.catalog = .ok c) :
    Definitions.all = .ok c.definitions.entries := by
  have hascending : ∃ definitions, Definitions.all = .ok definitions
      ∧ NameMap.Ascending definitions := ⟨_, rfl, by decide⟩
  obtain ⟨_, hall, rfl⟩ := catalog_eq hc
  obtain ⟨definitions, hdefinitions, hascending⟩ := hascending
  rw [hdefinitions] at hall
  obtain rfl := Except.ok.inj hall
  rw [hdefinitions, NameMap.entries_ofList hascending]

theorem entries_imports (hc : d.catalog = .ok c) : c.imports.entries = imports := by
  obtain ⟨definitions, _, rfl⟩ := catalog_eq hc
  exact NameMap.entries_ofList (by decide)

/-! ## Scalar types -/

/-- The name of the scalar type that a database writes like this. -/
def typeName (d : Dialect) (raw : String) : String :=
  (d.scalars.lookup (ScalarName.parse raw).name).getD "string"

/-- The names of scalar types. -/
def typeNames : List String :=
  ["Buffer", "Date", "Decimal", "Geometry", "Json", "JsonArray", "number", "string"]

theorem typeName_mem (d : Dialect) (raw : String) : d.typeName raw ∈ typeNames := by
  have hscalars : ∀ d : Dialect, ∀ entry ∈ d.scalars, entry.2 ∈ typeNames := by
    intro d
    cases d <;> decide
  rw [typeName]
  cases hlookup : d.scalars.lookup (ScalarName.parse raw).name with
  | none => decide
  | some name =>
    obtain ⟨before, after, hsplit, _⟩ := List.lookup_eq_some_iff.mp hlookup
    refine hscalars d ((ScalarName.parse raw).name, name) ?_
    rw [hsplit]
    exact List.mem_append_right before List.mem_cons_self

theorem resolve_expression (hc : d.catalog = .ok c) (raw : String) :
    (c.resolve raw).expression = .named (d.typeName raw) := by
  show (c.scalars.entries.lookup (ScalarName.parse raw).name).getD c.defaultScalar = _
  rw [entries_scalars hc, defaultScalar_eq hc, lookup_map_snd, typeName]
  cases d.scalars.lookup (ScalarName.parse raw).name <;> rfl

/-! ## Definitions and imports -/

/-- The names that the dialects define. -/
def definitionNames : List String :=
  ["Decimal", "Generated", "Geometry", "Json", "JsonArray", "JsonObject", "JsonPrimitive",
    "JsonValue", "LineString", "Point", "Polygon"]

theorem isSome_moduleOf?_iff (hc : d.catalog = .ok c) {name : String} :
    (c.moduleOf? name).isSome ↔ name ∈ imports.map (·.1) := by
  rw [← entries_imports hc]
  exact NameMap.isSome_find?_iff

theorem isSome_definition?_iff (hc : d.catalog = .ok c) {name : String} :
    (c.definition? name).isSome ↔ name ∈ definitionNames := by
  obtain ⟨definitions, hdefinitions, hnames⟩ : ∃ definitions, Definitions.all = .ok definitions
      ∧ definitions.map (·.1) = definitionNames := ⟨_, rfl, rfl⟩
  rw [entries_definitions hc] at hdefinitions
  rw [← hnames, ← Except.ok.inj hdefinitions]
  exact NameMap.isSome_find?_iff

/-- The name `DB` is free in every dialect. -/
theorem catalog_db (hc : d.catalog = .ok c) :
    c.moduleOf? "DB" = none ∧ c.definition? "DB" = none := by
  rw [← Option.not_isSome_iff_eq_none, ← Option.not_isSome_iff_eq_none,
    isSome_moduleOf?_iff hc, isSome_definition?_iff hc]
  decide

end Dialect

end SchemaTypes
