import SchemaTypes.Generation
import SchemaTypes.Proofs.Assembled
import SchemaTypes.Proofs.Dialects
import SchemaTypes.Proofs.WellFormed

/-!
# Every database has a module, or a clash of names

Names of tables and columns, raw types, flags and comments can be anything. What is
assembled from them is well-formed all the same, as long as the catalog is
(`assembled_wellFormed`), and the catalogs of the dialects are (`Dialect.exists_catalog`).
So there is a single reason for which no module is generated:

> `generate_ok_or_clash`: a module is generated, or the interface of some table has the
> name of a definition or import that is needed.
-/

namespace SchemaTypes

/-- No builder refuses what the shared definitions are made of. -/
theorem Definitions.exists_all :
    ∃ definitions, all = .ok definitions ∧ ∀ entry ∈ definitions, entry.2.WellFormed :=
  ⟨_, rfl, by decide⟩

/-! ## Catalogs -/

/-- Every type that a catalog gives is well-formed. -/
structure Catalog.WellFormed (c : Catalog) : Prop where
  defaultScalar : c.defaultScalar.WellFormed
  scalars : ∀ entry ∈ c.scalars.entries, entry.2.WellFormed
  definitions : ∀ entry ∈ c.definitions.entries, entry.2.WellFormed

theorem Catalog.WellFormed.resolve {c : Catalog} (h : c.WellFormed) (raw : String) :
    (c.resolve raw).expression.WellFormed := by
  rcases List.mem_cons.mp (c.resolve_mem raw) with hdefault | hlisted
  · rw [hdefault]
    exact h.defaultScalar
  · obtain ⟨entry, hentry, hexpression⟩ := List.mem_map.mp hlisted
    rw [← hexpression]
    exact h.scalars entry hentry

theorem Dialect.exists_catalog (d : Dialect) : ∃ c, d.catalog = .ok c ∧ c.WellFormed := by
  obtain ⟨definitions, hall, hwell⟩ := Definitions.exists_all
  obtain ⟨c, hcatalog⟩ : ∃ c, d.catalog = .ok c := ⟨_, by rw [Dialect.catalog, hall]; rfl⟩
  have hdefinitions : definitions = c.definitions.entries :=
    Except.ok.inj (hall.symm.trans (entries_definitions hcatalog))
  refine ⟨c, hcatalog, ?_, ?_, hdefinitions ▸ hwell⟩
  · rw [defaultScalar_eq hcatalog]
    exact Expression.wellFormed_named "string"
  · intro entry hentry
    rw [entries_scalars hcatalog] at hentry
    obtain ⟨scalar, _, rfl⟩ := List.mem_map.mp hentry
    exact Expression.wellFormed_named scalar.2

/-! ## Assembled statements -/

namespace Assembly

theorem columnExpression_wellFormed {c : Catalog} (h : c.WellFormed) (column : Column) :
    (columnExpression c column).WellFormed := by
  have hscalar := h.resolve column.dataType
  have hvalue := Expression.wellFormed_ite
    (column.isArray || (c.resolve column.dataType).isArray)
    (Expression.wellFormed_array.mpr hscalar) hscalar
  have hgeneric : ∀ e : Expression, e.WellFormed →
      (Expression.generic "Generated" [e]).WellFormed := by
    intro e he
    exact Expression.wellFormed_generic.mpr
      ⟨List.cons_ne_nil _ _, List.forall_mem_singleton.mpr he⟩
  have hgenerated := Expression.wellFormed_ite
    (column.hasDefault || column.isAutoIncrementing) (hgeneric _ hvalue) hvalue
  exact Expression.wellFormed_ite (column.isNullable || (c.resolve column.dataType).isNullable)
    (Expression.wellFormed_nullable hgenerated) hgenerated

theorem assembled_wellFormed {c : Catalog} (h : c.WellFormed) (database : Database) :
    ∀ s ∈ assembled c database, s.WellFormed := by
  intro s hs
  rw [assembled, List.mem_append, List.mem_append, List.mem_append] at hs
  rcases hs with ((himport | halias) | hinterface) | hdatabase
  · -- a module is there because of a name that is imported from it
    obtain ⟨module, hmodule, rfl⟩ := List.mem_map.mp himport
    obtain ⟨name, hname, hfrom⟩ := mem_modulesOf.mp hmodule
    have hmem := List.mem_map_of_mem (f := fun name => ImportClause.mk name none)
      (mem_namesFrom.mpr ⟨hname, hfrom⟩)
    exact List.ne_nil_of_mem hmem
  · obtain ⟨name, _, hbody⟩ := List.mem_filterMap.mp halias
    obtain ⟨body, hfind, rfl⟩ := Option.map_eq_some_iff.mp hbody
    exact h.definitions _ (NameMap.find?_eq_some_iff.mp hfind)
  · obtain ⟨t, _, rfl⟩ := List.mem_map.mp hinterface
    refine Expression.wellFormed_object.mpr fun p hp => ?_
    obtain ⟨column, _, rfl⟩ := List.mem_map.mp hp
    exact columnExpression_wellFormed h column
  · unfold databaseInterface at hdatabase
    split at hdatabase
    · cases hdatabase
    · rw [List.mem_singleton.mp hdatabase]
      refine Expression.wellFormed_object.mpr fun p hp => ?_
      obtain ⟨t, _, rfl⟩ := List.mem_map.mp hp
      exact Expression.wellFormed_reference _

end Assembly

open Assembly

/-- **A module or a clash.** Whatever the tables and their columns are like, a module is
generated, or it is refused because the interface of one of the tables has a name that is
needed for something else; no other error can come up. -/
theorem generate_ok_or_clash (options : StaticType.Options) (d : Dialect) (database : Database) :
    ∃ c, d.catalog = .ok c
      ∧ ((∃ text, generate options d database = .ok text)
        ∨ ∃ t ∈ database.tables, generate options d database
            = .error (.build (.declarationClash (interfaceName c t)))) := by
  obtain ⟨c, hcatalog, hwell⟩ := d.exists_catalog
  refine ⟨c, hcatalog, ?_⟩
  rw [generate, hcatalog]
  show (∃ text, (do
        let statements ← (assemble c database).mapError GenerateError.build
        (Module.text options statements).mapError .render) = .ok text)
    ∨ ∃ t ∈ database.tables, (do
        let statements ← (assemble c database).mapError GenerateError.build
        (Module.text options statements).mapError .render)
          = .error (.build (.declarationClash (interfaceName c t)))
  rw [assemble_eq]
  cases hclash : clash? c database with
  | some t =>
    have ht := List.mem_of_find?_eq_some hclash
    exact .inr ⟨t, (ordered_perm c _).mem_iff.mp ht, rfl⟩
  | none =>
    obtain ⟨text, htext⟩ :=
      Module.text_ok_of_wellFormed options (assembled_wellFormed hwell database)
    refine .inl ⟨text, ?_⟩
    show (Module.text options (assembled c database)).mapError GenerateError.render = _
    rw [htext]
    rfl

end SchemaTypes
