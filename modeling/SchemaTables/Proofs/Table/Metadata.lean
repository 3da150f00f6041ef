import SchemaTables.Proofs.Path.Comparison
import SchemaTables.Table.Metadata

/-!
Addresses do not see how a path is spelled, and every schema file of a synthetic table has a document,
written after the first table with that file.
-/

namespace SchemaTables

set_option autoImplicit false

theorem Options.remoteUrl_congr {o : Options} {p q : Path} (h : p.Same q) :
    o.remoteUrl p = o.remoteUrl q := by
  unfold Options.remoteUrl Path.relativeUrl Path.normalParts
  rw [show p.components = q.components from h]

/-- A table is kept when it is the first of the list with its file and no earlier table had the file. -/
theorem mem_firstOfFiles_iff {seen : List String} {l : List SyntheticTable} {t : SyntheticTable} :
    t ∈ firstOfFiles seen l ↔
      t.schemaFile ∉ seen ∧ l.find? (·.schemaFile == t.schemaFile) = some t := by
  induction l generalizing seen with
  | nil => simp [firstOfFiles]
  | cons u l ih =>
    unfold firstOfFiles
    by_cases hfile : u.schemaFile = t.schemaFile
    · by_cases hseen : t.schemaFile ∈ seen
      · simp [hfile, hseen, ih]
      · simp [hfile, hseen, ih, eq_comm]
    · have hne : t ≠ u := fun heq => hfile (heq ▸ rfl)
      by_cases hseen : u.schemaFile ∈ seen
      · simp [hseen, ih, hfile]
      · simp [hseen, ih, hfile, hne, Ne.symm hfile]

theorem Options.mem_syntheticSchemas_iff {o : Options} {p : Path} {d : TableSchema} :
    (p, d) ∈ o.syntheticSchemas ↔ ∃ t, o.syntheticTables.find? (·.schemaFile == t.schemaFile) = some t ∧
      p = o.remoteFile t.schemaFile ∧ d = t.tableSchema o.rowNamespace := by
  simp [syntheticSchemas, mem_firstOfFiles_iff, eq_comm]

/-- The first table with the schema file of a synthetic table. -/
theorem Options.exists_first_of_file {o : Options} {t : SyntheticTable} (h : t ∈ o.syntheticTables) :
    ∃ first, o.syntheticTables.find? (·.schemaFile == t.schemaFile) = some first ∧
      first.schemaFile = t.schemaFile ∧
      (o.remoteFile t.schemaFile, first.tableSchema o.rowNamespace) ∈ o.syntheticSchemas := by
  cases hfind : o.syntheticTables.find? (·.schemaFile == t.schemaFile) with
  | none => simpa using List.find?_eq_none.mp hfind t h
  | some first =>
    have hfile : first.schemaFile = t.schemaFile := by simpa using List.find?_some hfind
    refine ⟨first, rfl, hfile, mem_syntheticSchemas_iff.mpr ⟨first, ?_, ?_, rfl⟩⟩
    · rw [hfile, hfind]
    · rw [hfile]

end SchemaTables
