import SchemaTables.Proofs.Dependency.Graph

/-!
What a graph holds of a class depends on nothing but what it was told of this class, in the order in which
it was told. So it does not see in which order the classes are spoken of.
-/

namespace SchemaTables.DependencyGraph

set_option autoImplicit false

variable {g g' : DependencyGraph} {cls : String} {e : Entry} {entries entries' : List Entry}

theorem WellFormed.ext (hg : g.WellFormed) (hg' : g'.WellFormed) (ht : ∀ cls, g.table? cls = g'.table? cls)
    (hd : ∀ cls, g.dependencies? cls = g'.dependencies? cls) : g = g' := by
  have htables : g.tables = g'.tables := Ordered.eq_of_lookup_eq hg.tables hg'.tables ht
  have hdependencies : g.dependencies = g'.dependencies :=
    Ordered.eq_of_lookup_eq hg.dependencies hg'.dependencies hd
  cases g
  cases g'
  exact congr (congrArg DependencyGraph.mk htables) hdependencies

/-- The graphs hold the same of the class. -/
structure AgreeOn (g g' : DependencyGraph) (cls : String) : Prop where
  table? : g.table? cls = g'.table? cls
  dependencies? : g.dependencies? cls = g'.dependencies? cls

namespace AgreeOn

theorem record (h : AgreeOn g g' cls) (e : Entry) : AgreeOn (g.record e) (g'.record e) cls := by
  have hadd : ∀ other p, (g.add other p).dependencies? cls = (g'.add other p).dependencies? cls := by
    intro other p
    rw [dependencies?_add, dependencies?_add]
    split
    · rename_i heq
      rw [← heq, h.dependencies?]
    · exact h.dependencies?
  cases e with
  | add other p => exact ⟨h.table?, hadd other p⟩
  | register other p =>
    refine ⟨?_, hadd other p⟩
    change (g.register other p).table? cls = (g'.register other p).table? cls
    rw [table?_register, table?_register, h.table?]

theorem record_of_ne (h : AgreeOn g g' cls) (hne : e.cls ≠ cls) : AgreeOn (g.record e) g' cls := by
  have hadd : ∀ other p, other ≠ cls → (g.add other p).dependencies? cls = g'.dependencies? cls := by
    intro other p hother
    rw [dependencies?_add, if_neg hother.symm, h.dependencies?]
  cases e with
  | add other p => exact ⟨h.table?, hadd other p hne⟩
  | register other p =>
    have hother : cls ≠ other := Ne.symm hne
    refine ⟨?_, hadd other p hne⟩
    change (g.register other p).table? cls = g'.table? cls
    rw [table?_register, if_neg hother, h.table?]

theorem foldl_record_filter (h : AgreeOn g g' cls) (entries : List Entry) :
    AgreeOn (entries.foldl DependencyGraph.record g)
      ((entries.filter (·.cls == cls)).foldl DependencyGraph.record g') cls := by
  induction entries generalizing g g' with
  | nil => exact h
  | cons e entries ih =>
    rw [List.foldl_cons]
    by_cases hcls : e.cls = cls
    · rw [List.filter_cons_of_pos (by simpa using hcls), List.foldl_cons]
      exact ih (h.record e)
    · rw [List.filter_cons_of_neg (by simpa using hcls)]
      exact ih (h.record_of_ne hcls)

end AgreeOn

/-- Graphs that were told the same of each class are the same. -/
theorem ofEntries_eq_of_filter_eq
    (h : ∀ cls, entries.filter (·.cls == cls) = entries'.filter (·.cls == cls)) :
    ofEntries entries = ofEntries entries' := by
  have hagree : ∀ cls, AgreeOn (ofEntries entries) (ofEntries entries') cls := by
    intro cls
    have hempty : AgreeOn empty empty cls := ⟨rfl, rfl⟩
    have hleft := hempty.foldl_record_filter entries
    have hright := hempty.foldl_record_filter entries'
    rw [h cls] at hleft
    exact ⟨hleft.table?.trans hright.table?.symm, hleft.dependencies?.trans hright.dependencies?.symm⟩
  exact (wellFormed_ofEntries entries).ext (wellFormed_ofEntries entries')
    (fun cls => (hagree cls).table?) (fun cls => (hagree cls).dependencies?)

end SchemaTables.DependencyGraph
