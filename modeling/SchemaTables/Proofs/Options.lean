import SchemaTables.Options
import SchemaTables.Proofs.Ordered

/-!
Synthetic tables are found by name, and the names are known exactly.
-/

namespace SchemaTables.Options

set_option autoImplicit false

variable {o : Options} {t : SyntheticTable} {name : String}

theorem mem_of_synthetic? (h : o.synthetic? name = some t) : t ∈ o.syntheticTables ∧ t.name = name :=
  ⟨List.mem_reverse.mp (List.mem_of_find?_eq_some h), by simpa using List.find?_some h⟩

theorem mem_syntheticNames_iff : name ∈ o.syntheticNames ↔ ∃ t ∈ o.syntheticTables, t.name = name := by
  rw [syntheticNames, Ordered.mem_ofList_iff, List.mem_map]

theorem notMem_syntheticNames (h : o.synthetic? name = none) : name ∉ o.syntheticNames := by
  rw [mem_syntheticNames_iff]
  rintro ⟨t, ht, hname⟩
  have hne := List.find?_eq_none.mp h t (List.mem_reverse.mpr ht)
  simp [hname] at hne

end SchemaTables.Options
