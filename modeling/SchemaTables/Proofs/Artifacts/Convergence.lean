import SchemaTables.Proofs.Artifacts.Metadata
import SchemaTables.Proofs.Dependency.Convergence

/-!
The limit on passes never rejects a graph that it has room for, and each pass more doubles the number of
tables that there is room for.
-/

namespace SchemaTables

set_option autoImplicit false

open DependencyGraph

variable {o : Options} {s : Schema} {tables : List CompiledTable} {limit : Nat}

/-- Only the classes that were compiled are registered. -/
theorem length_tables_directDependencies_le (tables : List CompiledTable) :
    (directDependencies tables).tables.length ≤ tables.length := by
  rw [directDependencies_eq]
  have hg := wellFormed_ofEntries (tables.flatMap CompiledTable.entries)
  have hsub : (ofEntries (tables.flatMap CompiledTable.entries)).tables.map Prod.fst ⊆
      tables.map fun t => t.className := by
    intro cls hcls
    obtain ⟨⟨cls, own⟩, hmem, rfl⟩ := List.mem_map.mp hcls
    rcases table?_foldl_record (hg.table?_eq_some_iff.mpr hmem) with hempty | hregister
    · cases hempty
    · obtain ⟨t, ht, hentry⟩ := List.mem_flatMap.mp hregister
      exact List.mem_map.mpr ⟨t, ht, (CompiledTable.cls_of_mem_entries hentry).symm⟩
  simpa using hg.tables.nodup.length_le_of_subset hsub

/-- A compilation that is cut off has compiled all tables and not settled within the limit. -/
theorem exists_diverged_of_compile (h : compile o s = .error (.divergence limit)) :
    ∃ v tables, View.ofSchema s = .ok v ∧
      List.Forall₂ (fun c t => Job.compileTable ⟨v, o⟩ c = .ok t) v.tableClasses tables ∧
      ((directDependencies tables).close o.passLimit).1 = .diverged := by
  unfold compile at h
  split at h
  · cases h
  · simp only [Except.bind_eq_error_iff, Except.mapError_eq_error_iff, Except.mapError_eq_ok_iff,
      Except.mapM_eq_ok_iff, reduceCtorEq, and_false, exists_false, false_or] at h
    obtain ⟨v, hview, _, _, tables, htables, h⟩ := h
    refine ⟨v, tables, hview, htables, ?_⟩
    split at h
    · rename_i graph hclosed
      rw [hclosed]
    · simp [Except.bind_eq_error_iff, Except.mapError_eq_error_iff, pure, Except.pure] at h

/-- A graph with `n` registered tables settles within every positive limit `L` with `n + 1 ≤ 2 ^ (L - 1)`,
however its classes lead to each other, and so no compilation with such a limit is cut off. -/
theorem settles_within_limit :
    (∀ (steps : List Step) (limit : Nat), 1 ≤ limit →
      (ofSteps steps).tables.length + 1 ≤ 2 ^ (limit - 1) →
      ∃ passes ≤ limit, ((ofSteps steps).close limit).1 = .settled passes) ∧
    (∀ (o : Options) (s : Schema) (v : View), View.ofSchema s = .ok v → 1 ≤ o.passLimit →
      v.tableClasses.length + 1 ≤ 2 ^ (o.passLimit - 1) →
      ∀ limit, compile o s ≠ .error (.divergence limit)) := by
  constructor
  · intro steps limit hlimit hroom
    exact (within_ofSteps steps).wellFormed.exists_settled hlimit hroom
  · intro o s v hv hlimit hroom limit h
    obtain ⟨v', tables, hv', htables, hdiverged⟩ := exists_diverged_of_compile h
    cases hv.symm.trans hv'
    have hcount : (directDependencies tables).tables.length ≤ v.tableClasses.length := by
      rw [htables.length_eq]
      exact length_tables_directDependencies_le tables
    have hg : (directDependencies tables).WellFormed := by
      rw [directDependencies_eq]
      exact wellFormed_ofEntries _
    obtain ⟨passes, _, hsettled⟩ := hg.exists_settled hlimit (by omega)
    rw [hdiverged] at hsettled
    cases hsettled

/-- Three classes that need each other in a circle, the last of which is told when the graph was closed in
vain. -/
def circleSteps : List Step :=
  [.tell (.register "A" ⟨"A.csv"⟩), .tell (.register "B" ⟨"B.csv"⟩), .tell (.register "C" ⟨"C.csv"⟩),
    .tell (.add "A" ⟨"C.csv"⟩), .tell (.add "B" ⟨"./A.csv"⟩), .close 1, .tell (.add "C" ⟨"B.csv/"⟩)]

theorem settles_within_limit_circle :
    (ofSteps circleSteps).tables.length + 1 ≤ 2 ^ (3 - 1) ∧
      (∃ passes ≤ 3, ((ofSteps circleSteps).close 3).1 = .settled passes) ∧
      ∀ limit, compile { libraryOptions with passLimit := 3 } librarySchema ≠ .error (.divergence limit) :=
  ⟨by decide, settles_within_limit.1 circleSteps 3 (by decide) (by decide),
    settles_within_limit.2 _ _ _ rfl (by decide) (by decide)⟩

end SchemaTables
