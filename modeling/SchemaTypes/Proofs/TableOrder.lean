import SchemaTypes.Assembly
import SchemaTypes.Proofs.Lists

/-!
# The order of tables

Tables are put in order by their schema and then by their name, and a table without a
schema stands where it would with the default one. So two tables have the same place in
the order exactly if they are in the same schema and have the same name
(`compareTables_eq_eq_iff`), and such tables get the same interface name.
-/

namespace SchemaTypes.Assembly

instance (c : Catalog) : Std.TransCmp (compareTables c) :=
  inferInstanceAs (Std.TransCmp (compareLex (compareOn (schemaOf c)) (compareOn Table.name)))

theorem compareTables_eq_eq_iff {c : Catalog} {a b : Table} :
    compareTables c a b = .eq ↔ schemaOf c a = schemaOf c b ∧ a.name = b.name := by
  rw [compareTables, Ordering.then_eq_eq, Std.LawfulEqCmp.compare_eq_iff_eq,
    Std.LawfulEqCmp.compare_eq_iff_eq]

theorem interfaceName_congr {c : Catalog} {a b : Table} (hschema : schemaOf c a = schemaOf c b)
    (hname : a.name = b.name) : interfaceName c a = interfaceName c b := by
  rw [interfaceName, interfaceName, hschema, hname]

theorem ordered_pairwise (c : Catalog) (tables : List Table) :
    (ordered c tables).Pairwise fun a b => (compareTables c a b).isLE :=
  pairwise_mergeSort_cmp (compareTables c) tables

end SchemaTypes.Assembly
