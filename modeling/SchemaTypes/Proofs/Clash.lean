import SchemaTypes.Proofs.Declared
import SchemaTypes.Proofs.TableOrder

/-!
# When a database is refused

A table gets an interface, and the interface gets a name that may already be taken: by a
definition that the columns of some table need, or by a name that they import. Such a
database is refused, and no other.

> `assemble_clash_exact`: a database is refused exactly if the interface of one of its
> tables has a required name, for the first of these tables; and what is assembled never
> declares an interface and an alias, an interface and an import, or an alias and an
> import by one name.

The check is made before `z` is imported for the validators. No interface can have that
name: interface names open with a capital or with `_` (`interfaceName_ne_of_isLower`).
-/

namespace SchemaTypes.Assembly

/-- The columns of the tables require the name: they need it, directly or through
definitions, and a module has it as an import or, failing that, as an alias. -/
def Required (c : Catalog) (database : Database) (name : String) : Prop :=
  Needed c (ColumnRefersTo c database) name
    ∧ ((c.moduleOf? name).isSome ∨ c.moduleOf? name = none ∧ (c.definition? name).isSome)

/-- The table has a required name, and no table with one comes before it. -/
structure FirstClash (c : Catalog) (database : Database) (t : Table) : Prop where
  mem : t ∈ database.tables
  required : Required c database (interfaceName c t)
  first : ∀ u ∈ database.tables, Required c database (interfaceName c u) →
    (compareTables c t u).isLE

theorem contains_neededNames_iff {c : Catalog} {database : Database} {name : String} :
    (neededNames c database).contains name ↔ Required c database name := by
  have hexact := neededNames_exact c database
  rw [Needs.contains, Bool.or_eq_true, List.contains_iff_mem, List.contains_iff_mem,
    hexact.mem_definitions, hexact.mem_imports, Required]
  constructor
  · intro h
    rcases h with ⟨hneeded, hdefinition⟩ | ⟨hneeded, himport⟩
    · exact ⟨hneeded, .inr hdefinition⟩
    · exact ⟨hneeded, .inl himport⟩
  · intro h
    obtain ⟨hneeded, himport | hdefinition⟩ := h
    · exact .inr ⟨hneeded, himport⟩
    · exact .inl ⟨hneeded, hdefinition⟩

/-- The clash that is reported is the first one. -/
theorem firstClash_of_clash? {c : Catalog} {database : Database} {t : Table}
    (h : clash? c database = some t) : FirstClash c database t := by
  have hperm := ordered_perm c database.tables
  obtain ⟨hname, before, after, hsplit, hbefore⟩ := List.find?_eq_some_iff_append.mp h
  refine ⟨?_, contains_neededNames_iff.mp hname, fun u hu hrequired => ?_⟩
  · rw [← hperm.mem_iff, hsplit]
    exact List.mem_append_right before List.mem_cons_self
  · -- `u` has a required name, so it is not among those that were passed over
    rw [← hperm.mem_iff, hsplit] at hu
    have hrest : u ∈ t :: after := by
      rcases List.mem_append.mp hu with hu | hu
      · have hfree := hbefore u hu
        rw [contains_neededNames_iff.mpr hrequired] at hfree
        cases hfree
      · exact hu
    have hsorted := ordered_pairwise c database.tables
    rw [hsplit] at hsorted
    have htail := List.pairwise_cons.mp (List.pairwise_append.mp hsorted).2.1
    rcases List.mem_cons.mp hrest with rfl | hafter
    · exact Std.ReflCmp.isLE_rfl
    · exact htail.1 u hafter

theorem clash?_ne_none_of_required {c : Catalog} {database : Database} {t : Table}
    (ht : t ∈ database.tables) (hrequired : Required c database (interfaceName c t)) :
    ∃ u, clash? c database = some u := by
  cases hclash : clash? c database with
  | some u => exact ⟨u, rfl⟩
  | none =>
    have hfree := List.find?_eq_none.mp hclash t ((ordered_perm c _).mem_iff.mpr ht)
    exact absurd (contains_neededNames_iff.mpr hrequired) hfree

/-- Tables that are both first have the same schema and name, and so the same interface
name. -/
theorem FirstClash.interfaceName_eq {c : Catalog} {database : Database} {t u : Table}
    (ht : FirstClash c database t) (hu : FirstClash c database u) :
    interfaceName c t = interfaceName c u := by
  have htu := ht.first u hu.mem hu.required
  have hut := hu.first t ht.mem ht.required
  obtain ⟨hschema, hname⟩ := compareTables_eq_eq_iff.mp (Std.OrientedCmp.isLE_antisymm htu hut)
  exact interfaceName_congr hschema hname

theorem assemble_eq_error_iff {c : Catalog} {database : Database} {e : BuildError} :
    assemble c database = .error e ↔
      ∃ t, FirstClash c database t ∧ e = .declarationClash (interfaceName c t) := by
  rw [assemble_eq]
  constructor
  · intro h
    cases hclash : clash? c database with
    | none =>
      rw [hclash] at h
      cases h
    | some t =>
      rw [hclash] at h
      exact ⟨t, firstClash_of_clash? hclash, (Except.error.inj h).symm⟩
  · intro h
    obtain ⟨t, ht, rfl⟩ := h
    obtain ⟨u, hclash⟩ := clash?_ne_none_of_required ht.mem ht.required
    have hname := (firstClash_of_clash? hclash).interfaceName_eq ht
    rw [hclash, ← hname]

theorem assemble_fails_iff {c : Catalog} {database : Database} :
    (∃ e, assemble c database = .error e) ↔
      ∃ t ∈ database.tables, Required c database (interfaceName c t) := by
  constructor
  · intro h
    obtain ⟨e, h⟩ := h
    obtain ⟨t, ht, _⟩ := assemble_eq_error_iff.mp h
    exact ⟨t, ht.mem, ht.required⟩
  · intro h
    obtain ⟨t, ht, hrequired⟩ := h
    obtain ⟨u, hclash⟩ := clash?_ne_none_of_required ht hrequired
    exact ⟨_, assemble_eq_error_iff.mpr ⟨u, firstClash_of_clash? hclash, rfl⟩⟩

theorem mem_aliasNames {c : Catalog} {database : Database} {name : String} :
    name ∈ (exportedAliases (assembled c database)).map (·.1) ↔
      name ∈ (neededNames c database).definitions := by
  rw [List.mem_map]
  constructor
  · intro h
    obtain ⟨⟨other, body⟩, hpair, rfl⟩ := h
    exact (mem_exportedAliases.mp hpair).1
  · intro h
    obtain ⟨_, _, hdefined⟩ := ((neededNames_exact c database).mem_definitions name).mp h
    obtain ⟨body, hbody⟩ := Option.isSome_iff_exists.mp hdefined
    exact ⟨(name, body), mem_exportedAliases.mpr ⟨h, hbody⟩, rfl⟩

/-- **The clash check is exact.** A database is refused exactly if the interface of some
table has a required name, and the error names the first such table. What is assembled
has no name twice among interfaces, aliases and imports, and the imports that this is
said of include `z`. -/
theorem assemble_clash_exact (c : Catalog) (database : Database) :
    ((∃ e, assemble c database = .error e) ↔
      ∃ t ∈ database.tables, Required c database (interfaceName c t))
    ∧ (∀ e, assemble c database = .error e ↔
      ∃ t, FirstClash c database t ∧ e = .declarationClash (interfaceName c t))
    ∧ ∀ statements, assemble c database = .ok statements →
      (∀ t ∈ database.tables,
        interfaceName c t ∉ (exportedAliases statements).map (·.1)
          ∧ interfaceName c t ∉ importedBindings statements)
      ∧ (∀ name ∈ (exportedAliases statements).map (·.1), name ∉ importedBindings statements)
      ∧ (database.tables ≠ [] → (c.moduleOf? "z").isSome → "z" ∈ importedBindings statements) := by
  refine ⟨assemble_fails_iff, fun _ => assemble_eq_error_iff, fun statements h => ?_⟩
  obtain ⟨hclash, rfl⟩ := assemble_eq_ok_iff.mp h
  refine ⟨fun t ht => ⟨fun halias => ?_, interfaceName_not_mem_importedBindings hclash ht⟩,
    fun name hname => ?_, fun htables himport => ?_⟩
  · exact (clash?_eq_none_iff.mp hclash t ht).1 (mem_aliasNames.mp halias)
  · exact not_mem_importedBindings_of_definition (mem_aliasNames.mp hname)
  · exact mem_importedBindings.mpr ⟨mem_boundNames.mpr (.inr ⟨rfl, htables⟩), himport⟩

/-- A table of trees and a table that is called like something trees are made of. -/
def orchardDatabase : Database where
  tables := [{ name := "tree", columns := [{ name := "oak", dataType := "tree" }] },
    { name := "forest" }]

theorem required_of_oak {database : Database} {t : Table} (ht : t ∈ database.tables)
    (hoak : { name := "oak", dataType := "tree" } ∈ t.columns) :
    Required circularCatalog database "Tree" ∧ Required circularCatalog database "Forest" := by
  have hreferences : (columnExpression circularCatalog
      { name := "oak", dataType := "tree" }).references = ["Tree"] := by cbv
  have hcolumn : ColumnRefersTo circularCatalog database "Tree" := by
    refine ⟨t, ht, _, hoak, _, columnProperty_eq_ok _ _, ?_⟩
    show "Tree" ∈ (columnExpression circularCatalog _).references
    rw [hreferences]
    exact List.mem_singleton.mpr rfl
  exact ⟨⟨.root hcolumn, .inr ⟨rfl, rfl⟩⟩,
    ⟨.body (.root hcolumn) rfl rfl (List.mem_singleton.mpr rfl) List.not_mem_nil,
      .inr ⟨rfl, rfl⟩⟩⟩

/-- Both tables of the orchard clash, and the one that comes first is named; the park has
no such table. -/
theorem assemble_clash_exact_orchard_park :
    assemble circularCatalog orchardDatabase = .error (.declarationClash "Forest")
      ∧ ∃ statements, assemble circularCatalog parkDatabase = .ok statements
        ∧ "Park" ∉ (exportedAliases statements).map (·.1)
        ∧ "Park" ∉ importedBindings statements
        ∧ "z" ∈ importedBindings statements := by
  have hforest : interfaceName circularCatalog { name := "forest" } = "Forest" := by
    rw [interfaceName_of_no_schema _ rfl]
    decide
  have hpark : interfaceName circularCatalog
      { name := "park", columns := [{ name := "oak", dataType := "tree" }] } = "Park" := by
    rw [interfaceName_of_no_schema _ rfl]
    decide
  constructor
  · obtain ⟨_, herror, _⟩ := assemble_clash_exact circularCatalog orchardDatabase
    refine (herror _).mpr ⟨{ name := "forest" }, ⟨?_, ?_, ?_⟩, by rw [hforest]⟩
    · exact List.mem_cons_of_mem _ (List.mem_singleton.mpr rfl)
    · rw [hforest]
      exact (required_of_oak List.mem_cons_self (List.mem_singleton.mpr rfl)).2
    · intro u hu _
      rcases List.mem_cons.mp hu with rfl | hu
      · decide
      · rw [List.mem_singleton.mp hu]
        decide
  · have hok : assemble circularCatalog parkDatabase
        = .ok (assembled circularCatalog parkDatabase) :=
      assemble_eq_ok_iff.mpr ⟨by cbv, rfl⟩
    obtain ⟨hinterfaces, _, hz⟩ :=
      (assemble_clash_exact circularCatalog parkDatabase).2.2 _ hok
    have hfree := hinterfaces _ (List.mem_singleton.mpr rfl)
    rw [hpark] at hfree
    exact ⟨_, hok, hfree.1, hfree.2, hz (List.cons_ne_nil _ _) rfl⟩

end SchemaTypes.Assembly
