import SchemaTables.Dependency.Graph
import SchemaTables.Proofs.Path.Comparison

/-!
What a dependency graph says, apart from how it is stored: which tables a class lists, which class owns
a table, and which tables a class needs once the lists of the owners are followed. A graph that was made
by recording entries one after the other keeps its classes in order.
-/

namespace SchemaTables.DependencyGraph

open Std

set_option autoImplicit false

/-- The set of the class holds the table, in whatever spelling. -/
def Lists (g : DependencyGraph) (cls : String) (p : Path) : Prop :=
  ∃ set, g.dependencies? cls = some set ∧ set.contains p = true

/-- The class is the one with the greatest name among those registered with the table. -/
structure Owns (g : DependencyGraph) (cls : String) (p : Path) : Prop where
  registered : ∃ own, g.table? cls = some own ∧ own.Same p
  greatest : ∀ other own, g.table? other = some own → own.Same p → ¬ cls < other

/-- The least set that holds what the class lists and, with a table that a class owns, all that the
owner lists. A table that nobody owns leads nowhere. -/
inductive Needs (g : DependencyGraph) (cls : String) : Path → Prop where
  | listed {p : Path} : g.Lists cls p → Needs g cls p
  | ofOwner {p q : Path} {owner : String} :
      Needs g cls p → g.Owns owner p → g.Lists owner q → Needs g cls q

/-- One thing that a graph is told. -/
inductive Entry where
  | register (cls : String) (table : Path)
  | add (cls : String) (table : Path)
deriving DecidableEq, Repr

/-- The class that is spoken of. -/
def Entry.cls : Entry → String
  | .register cls _ => cls
  | .add cls _ => cls

def Entry.table : Entry → Path
  | .register _ table => table
  | .add _ table => table

def record (g : DependencyGraph) : Entry → DependencyGraph
  | .register cls table => g.register cls table
  | .add cls table => g.add cls table

/-- The graph that was told the entries in this order. -/
def ofEntries (entries : List Entry) : DependencyGraph := entries.foldl record .empty

/-- Both maps are in order of their classes. -/
structure WellFormed (g : DependencyGraph) : Prop where
  tables : Ordered.Increasing compare (g.tables.map Prod.fst)
  dependencies : Ordered.Increasing compare (g.dependencies.map Prod.fst)

variable {g : DependencyGraph} {cls other : String} {p q : Path}

theorem mem_keys_iff : cls ∈ g.dependencies.map Prod.fst ↔ ∃ set, g.dependencies? cls = some set := by
  rw [← Option.isSome_iff_exists, dependencies?, List.lookup_isSome_iff]
  simp [List.mem_map]

theorem Lists.mem_keys (h : g.Lists cls p) : cls ∈ g.dependencies.map Prod.fst := by
  obtain ⟨set, hset, _⟩ := h
  exact mem_keys_iff.mpr ⟨set, hset⟩

theorem lists_iff_of_dependencies? {set : PathSet} (h : g.dependencies? cls = some set) :
    g.Lists cls p ↔ set.contains p = true := by
  simp [Lists, h]

theorem Needs.trans {owner : String} (hp : g.Needs cls p) (ho : g.Owns owner p)
    (hq : g.Needs owner q) : g.Needs cls q := by
  induction hq with
  | listed hq => exact .ofOwner hp ho hq
  | ofOwner _ ho' hq ih => exact .ofOwner ih ho' hq

/-- The two conditions of `Needs` hold of no smaller set. -/
theorem Needs.least {S : Path → Prop} (listed : ∀ p, g.Lists cls p → S p)
    (ofOwner : ∀ p q owner, S p → g.Owns owner p → g.Lists owner q → S q) (h : g.Needs cls p) :
    S p := by
  induction h with
  | listed hp => exact listed _ hp
  | ofOwner _ ho hq ih => exact ofOwner _ _ _ ih ho hq

section Building

theorem wellFormed_empty : WellFormed .empty := ⟨List.Pairwise.nil, List.Pairwise.nil⟩

theorem WellFormed.add (hg : g.WellFormed) : (g.add cls p).WellFormed :=
  ⟨hg.tables, Ordered.increasing_put hg.dependencies⟩

theorem WellFormed.register (hg : g.WellFormed) : (g.register cls p).WellFormed :=
  ⟨Ordered.increasing_put hg.tables, Ordered.increasing_put hg.dependencies⟩

theorem wellFormed_ofEntries (entries : List Entry) : (ofEntries entries).WellFormed := by
  unfold ofEntries
  generalize hstart : empty = start
  have hg : start.WellFormed := hstart ▸ wellFormed_empty
  clear hstart
  induction entries generalizing start with
  | nil => exact hg
  | cons e entries ih =>
    apply ih
    cases e with
    | register cls table => exact hg.register
    | add cls table => exact hg.add

theorem table?_register :
    (g.register cls p).table? other = if other = cls then some p else g.table? other :=
  Ordered.lookup_put

theorem dependencies?_add :
    (g.add cls p).dependencies? other =
      if other = cls then some (((g.dependencies? cls).getD []).insert p) else g.dependencies? other :=
  Ordered.lookup_put

theorem lists_add_iff :
    (g.add cls p).Lists other q ↔ (other = cls ∧ q.Same p) ∨ g.Lists other q := by
  simp only [Lists, dependencies?_add]
  by_cases h : other = cls
  · subst other
    cases hset : g.dependencies? cls with
    | none => simp [PathSet.contains_insert_iff]
    | some set => simp [PathSet.contains_insert_iff]
  · simp [h]

theorem lists_register_iff :
    (g.register cls p).Lists other q ↔ (other = cls ∧ q.Same p) ∨ g.Lists other q :=
  lists_add_iff

theorem lists_foldl_record_iff {entries : List Entry} :
    (entries.foldl record g).Lists cls p ↔
      g.Lists cls p ∨ ∃ e ∈ entries, cls = e.cls ∧ p.Same e.table := by
  induction entries generalizing g with
  | nil => simp
  | cons e entries ih =>
    have hrecord : (g.record e).Lists cls p ↔ (cls = e.cls ∧ p.Same e.table) ∨ g.Lists cls p := by
      cases e with
      | register cls table => exact lists_register_iff
      | add cls table => exact lists_add_iff
    simp only [List.foldl_cons, ih, hrecord, List.mem_cons, exists_eq_or_imp]
    exact or_assoc.trans or_left_comm

/-- A class lists exactly what it was told. -/
theorem lists_ofEntries_iff {entries : List Entry} :
    (ofEntries entries).Lists cls p ↔ ∃ e ∈ entries, cls = e.cls ∧ p.Same e.table := by
  have hempty : ¬ empty.Lists cls p := fun ⟨_, hset, _⟩ => nomatch hset
  rw [ofEntries, lists_foldl_record_iff]
  simp [hempty]

theorem table?_foldl_record {entries : List Entry} (h : (entries.foldl record g).table? cls = some p) :
    g.table? cls = some p ∨ .register cls p ∈ entries := by
  induction entries generalizing g with
  | nil => exact Or.inl h
  | cons e entries ih =>
    rcases ih h with hrecord | hmem
    · cases e with
      | add other table => exact Or.inl hrecord
      | register other table =>
        rw [record, table?_register] at hrecord
        split at hrecord
        · rename_i heq
          cases heq
          cases hrecord
          exact Or.inr List.mem_cons_self
        · exact Or.inl hrecord
    · exact Or.inr (List.mem_cons_of_mem e hmem)

theorem isSome_table?_foldl_record {entries : List Entry}
    (h : (g.table? cls).isSome = true ∨ ∃ table, .register cls table ∈ entries) :
    ((entries.foldl record g).table? cls).isSome = true := by
  induction entries generalizing g with
  | nil => simpa using h
  | cons e entries ih =>
    apply ih
    rcases h with hsome | ⟨table, hmem⟩
    · refine Or.inl ?_
      cases e with
      | add other table => exact hsome
      | register other table =>
        rw [record, table?_register]
        split
        · rfl
        · exact hsome
    · rcases List.mem_cons.mp hmem with rfl | hmem
      · exact Or.inl (by simp [record, table?_register])
      · exact Or.inr ⟨table, hmem⟩

/-- A class that is registered with one table has that table. -/
theorem table?_ofEntries_iff {entries : List Entry}
    (h : ∀ p q, .register cls p ∈ entries → .register cls q ∈ entries → p = q) :
    (ofEntries entries).table? cls = some p ↔ .register cls p ∈ entries := by
  constructor
  · intro htable
    rcases table?_foldl_record htable with hempty | hmem
    · cases hempty
    · exact hmem
  · intro hmem
    obtain ⟨q, hq⟩ := Option.isSome_iff_exists.mp
      (isSome_table?_foldl_record (g := empty) (Or.inr ⟨p, hmem⟩))
    rcases table?_foldl_record hq with hempty | hmem'
    · cases hempty
    · rw [ofEntries, hq, h q p hmem' hmem]

end Building

section Owners

theorem owner?_congr (h : p.Same q) : g.owner? p = g.owner? q := by
  have hsame : ∀ own : Path, own.compare p = own.compare q := by
    intro own
    exact TransCmp.congr_right (Path.compare_eq_iff.mpr h)
  simp only [owner?, hsame]

theorem Owns.unique (h : g.Owns cls p) (h' : g.Owns other p) : cls = other := by
  obtain ⟨own, hown, hsame⟩ := h.registered
  obtain ⟨own', hown', hsame'⟩ := h'.registered
  have hle := String.not_lt.mp (h.greatest other own' hown' hsame')
  have hge := String.not_lt.mp (h'.greatest cls own hown hsame)
  exact String.le_antisymm hge hle

theorem WellFormed.table?_eq_some_iff (hg : g.WellFormed) {own : Path} :
    g.table? cls = some own ↔ (cls, own) ∈ g.tables :=
  Ordered.lookup_eq_some_iff_mem hg.tables

/-- The search from the end of the map finds the owner: what stands before it in the map has a smaller
name, and what stands after it is another table. -/
theorem WellFormed.owns_of_owner? (hg : g.WellFormed) (h : g.owner? p = some cls) :
    g.Owns cls p := by
  obtain ⟨⟨cls, own⟩, hfind, rfl⟩ := Option.map_eq_some_iff.mp h
  obtain ⟨hsame, after, before, hsplit, hafter⟩ := List.find?_eq_some_iff_append.mp hfind
  have hsame : own.Same p := Path.compare_eq_iff.mp (by simpa using hsame)
  have hmem : (cls, own) ∈ g.tables := by
    rw [← List.mem_reverse, hsplit]
    exact List.mem_append_right after List.mem_cons_self
  refine ⟨⟨own, hg.table?_eq_some_iff.mpr hmem, hsame⟩, ?_⟩
  intro other own' hother hsame' hlt
  have hmem' : (other, own') ∈ after ++ (cls, own) :: before := by
    rw [← hsplit, List.mem_reverse]
    exact hg.table?_eq_some_iff.mp hother
  rcases List.mem_append.mp hmem' with hbeyond | hrest
  · have hne := hafter (other, own') hbeyond
    simp [Path.compare_eq_iff.mpr hsame'] at hne
  · rcases List.mem_cons.mp hrest with heq | hbelow
    · cases heq
      exact String.lt_irrefl cls hlt
    · have hsorted : (after ++ (cls, own) :: before).Pairwise fun a b => compare b.1 a.1 = .lt := by
        rw [← hsplit, List.pairwise_reverse]
        exact List.pairwise_map.mp hg.tables
      have hbelow := (List.pairwise_cons.mp (List.pairwise_append.mp hsorted).2.1).1 _ hbelow
      exact String.lt_asymm hlt (compareOfLessAndEq_eq_lt.mp hbelow)

theorem WellFormed.owner?_eq_some_iff (hg : g.WellFormed) :
    g.owner? p = some cls ↔ g.Owns cls p := by
  constructor
  · exact hg.owns_of_owner?
  · intro h
    obtain ⟨own, hown, hsame⟩ := h.registered
    cases hfind : g.owner? p with
    | some other => rw [(hg.owns_of_owner? hfind).unique h]
    | none =>
      have hnone := List.find?_eq_none.mp (Option.map_eq_none_iff.mp hfind) (cls, own)
        (List.mem_reverse.mpr (hg.table?_eq_some_iff.mp hown))
      simp [Path.compare_eq_iff.mpr hsame] at hnone

end Owners

end SchemaTables.DependencyGraph
