import SchemaTypes.Proofs.Clash
import SchemaTypes.Proofs.Layout

/-!
# A database with more tables

A new table adds its own interface to a module, and whatever its columns need. Everything
else stays, so that modules that are generated one after the other can be compared:

> `assemble_insert`: with one table more, wherever it is put, every alias and every import
> is still there, and the interfaces of the other tables and their properties in `DB` come
> in the same order; and a database that was refused before is refused still.

For aliases and imports this is so because more roots need no less (`Needed.mono`), and for
interfaces because of how tables are sorted (`mergeSort_sublist`). An interface says nothing
about any table but its own.
-/

namespace SchemaTypes.Assembly

variable {c : Catalog} {database database' : Database}

/-! ## What the columns need -/

theorem columnRefersTo_mono (h : database.tables ⊆ database'.tables) (name : String)
    (hname : ColumnRefersTo c database name) : ColumnRefersTo c database' name := by
  obtain ⟨t, ht, hcolumn⟩ := hname
  exact ⟨t, h ht, hcolumn⟩

theorem required_mono (h : database.tables ⊆ database'.tables) {name : String}
    (hname : Required c database name) : Required c database' name :=
  ⟨hname.1.mono (columnRefersTo_mono h), hname.2⟩

theorem assemble_fails_mono (h : database.tables ⊆ database'.tables)
    (hfails : ∃ e, assemble c database = .error e) : ∃ e, assemble c database' = .error e := by
  obtain ⟨t, ht, hrequired⟩ := assemble_fails_iff.mp hfails
  exact assemble_fails_iff.mpr ⟨t, h ht, required_mono h hrequired⟩

/-! ## Aliases and imports -/

theorem exportedAliases_mono (h : database.tables ⊆ database'.tables) {name : String}
    {body : AliasBody} (halias : (name, body) ∈ exportedAliases (assembled c database)) :
    (name, body) ∈ exportedAliases (assembled c database') := by
  rw [mem_exportedAliases_iff_needed] at halias ⊢
  exact ⟨halias.1.mono (columnRefersTo_mono h), halias.2⟩

theorem importedClauses_mono (h : database.tables ⊆ database'.tables) {module : String}
    {clause : ImportClause}
    (hclause : (module, clause) ∈ importedClauses (assembled c database)) :
    (module, clause) ∈ importedClauses (assembled c database') := by
  rw [mem_importedClauses] at hclause ⊢
  obtain ⟨hlocal, hbound, hmodule⟩ := hclause
  refine ⟨hlocal, (mem_boundNames_of_moduleOf? hmodule).mpr ?_, hmodule⟩
  rcases (mem_boundNames_of_moduleOf? hmodule).mp hbound with hneeded | ⟨hz, htables⟩
  · exact .inl (hneeded.mono (columnRefersTo_mono h))
  · -- there was a table before, and so there is one now
    refine .inr ⟨hz, fun hnil => ?_⟩
    rw [hnil] at h
    exact htables (List.subset_nil.mp h)

/-! ## Interfaces -/

theorem ordered_sublist (c : Catalog) {tables tables' : List Table}
    (h : tables.Sublist tables') : (ordered c tables).Sublist (ordered c tables') :=
  mergeSort_sublist (compareTables c) h

theorem tableInterfaces_sublist (h : database.tables.Sublist database'.tables) :
    (tableInterfaces (assembled c database)).Sublist
      (tableInterfaces (assembled c database')) := by
  rw [tableInterfaces_assembled, tableInterfaces_assembled]
  exact (ordered_sublist c h).map _

theorem databaseProperties_sublist (h : database.tables.Sublist database'.tables) :
    (databaseProperties (assembled c database)).Sublist
      (databaseProperties (assembled c database')) := by
  rw [databaseProperties_assembled, databaseProperties_assembled]
  exact (ordered_sublist c h).map _

/-- **A new table changes nothing else.** If a database is assembled with the table and
without it, what the smaller module declares and imports is in the larger one too, and its
interfaces and the properties of `DB` come in the same order; if it is refused without the
table, it is refused with it. -/
theorem assemble_insert (c : Catalog) (before after : List Table) (t : Table) :
    (∀ statements statements', assemble c ⟨before ++ after⟩ = .ok statements →
      assemble c ⟨before ++ t :: after⟩ = .ok statements' →
      (∀ name body, (name, body) ∈ exportedAliases statements →
        (name, body) ∈ exportedAliases statements')
      ∧ (∀ module clause, (module, clause) ∈ importedClauses statements →
        (module, clause) ∈ importedClauses statements')
      ∧ (tableInterfaces statements).Sublist (tableInterfaces statements')
      ∧ (databaseProperties statements).Sublist (databaseProperties statements'))
    ∧ ((∃ e, assemble c ⟨before ++ after⟩ = .error e) →
      ∃ e, assemble c ⟨before ++ t :: after⟩ = .error e) := by
  have hsublist : (before ++ after).Sublist (before ++ t :: after) :=
    (List.sublist_cons_self t after).append_left before
  constructor
  · intro statements statements' h h'
    obtain ⟨_, rfl⟩ := assemble_eq_ok_iff.mp h
    obtain ⟨_, rfl⟩ := assemble_eq_ok_iff.mp h'
    exact ⟨fun _ _ => exportedAliases_mono hsublist.subset,
      fun _ _ => importedClauses_mono hsublist.subset,
      tableInterfaces_sublist hsublist, databaseProperties_sublist hsublist⟩
  · exact assemble_fails_mono hsublist.subset

/-- A table of trees. -/
def treeTable (name : String) : Table where
  name := name
  columns := [{ name := "oak", dataType := "tree" }]

/-- A grove leaves everything that the park needs in its place; and it does not help a table
that has the name of something needed. -/
theorem assemble_insert_grove :
    (∃ statements statements',
      assemble circularCatalog ⟨[treeTable "park"]⟩ = .ok statements
      ∧ assemble circularCatalog ⟨[treeTable "grove", treeTable "park"]⟩ = .ok statements'
      ∧ ("Forest", .plain (.array (.reference "Tree"))) ∈ exportedAliases statements'
      ∧ (tableInterfaces statements).Sublist (tableInterfaces statements'))
    ∧ ∃ e, assemble circularCatalog ⟨[treeTable "tree", treeTable "grove"]⟩ = .error e := by
  obtain ⟨hgrows, _⟩ := assemble_insert circularCatalog [] [treeTable "park"] (treeTable "grove")
  obtain ⟨_, hrefused⟩ := assemble_insert circularCatalog [treeTable "tree"] [] (treeTable "grove")
  constructor
  · have hpark : assemble circularCatalog ⟨[treeTable "park"]⟩
        = .ok (assembled circularCatalog ⟨[treeTable "park"]⟩) :=
      assemble_eq_ok_iff.mpr ⟨clash?_eq_none_of_unknown (by decide), rfl⟩
    have hboth : assemble circularCatalog ⟨[treeTable "grove", treeTable "park"]⟩
        = .ok (assembled circularCatalog ⟨[treeTable "grove", treeTable "park"]⟩) :=
      assemble_eq_ok_iff.mpr ⟨clash?_eq_none_of_unknown (by decide), rfl⟩
    obtain ⟨haliases, _, hinterfaces, _⟩ := hgrows _ _ hpark hboth
    have hforest : Required circularCatalog ⟨[treeTable "park"]⟩ "Forest" :=
      (required_of_oak List.mem_cons_self List.mem_cons_self).2
    exact ⟨_, _, hpark, hboth,
      haliases _ _ (mem_exportedAliases_iff_needed.mpr ⟨hforest.1, rfl, rfl⟩), hinterfaces⟩
  · refine hrefused (assemble_fails_iff.mpr ⟨treeTable "tree", List.mem_singleton.mpr rfl, ?_⟩)
    have hname : interfaceName circularCatalog (treeTable "tree") = "Tree" := by decide
    rw [hname]
    exact (required_of_oak List.mem_cons_self List.mem_cons_self).1

end SchemaTypes.Assembly
