import SchemaTables.Proofs.Dependency.Graph

/-!
Closing a dependency graph. Passes change sets while later classes of the same pass read them, so the
invariant speaks of any moment: a class lists no less than at the start and no more than it needs. A
pass that adds nothing has seen one graph all along, and that graph is closed.
-/

namespace SchemaTables.DependencyGraph

open Std

set_option autoImplicit false

variable {g g' : DependencyGraph} {cls other : String} {p q : Path}

theorem contains_ofOwners_iff (hg : g.WellFormed) {set : PathSet} :
    (g.ofOwners set).contains q = true ↔
      ∃ p owner, set.contains p = true ∧ g.Owns owner p ∧ g.Lists owner q := by
  have hfold : ∀ (l found : PathSet),
      (l.foldl (fun found table =>
        found.union (((g.owner? table).bind g.dependencies?).getD [])) found).contains q = true ↔
      found.contains q = true ∨ ∃ p ∈ l, ∃ owner, g.Owns owner p ∧ g.Lists owner q := by
    intro l
    induction l with
    | nil => simp
    | cons p l ih =>
      intro found
      have hhead : PathSet.contains (((g.owner? p).bind g.dependencies?).getD []) q = true ↔
          ∃ owner, g.Owns owner p ∧ g.Lists owner q := by
        simp only [← hg.owner?_eq_some_iff]
        cases hp : g.owner? p with
        | none => simp
        | some owner => cases hset : g.dependencies? owner <;> simp [Lists, hset]
      rw [List.foldl_cons, ih, PathSet.contains_union_iff, hhead]
      simp [or_assoc]
  rw [ofOwners, hfold]
  simp only [PathSet.contains_nil, Bool.false_eq_true, false_or]
  constructor
  · rintro ⟨p, hp, owner, ho, hq⟩
    exact ⟨p, owner, PathSet.contains_of_mem hp, ho, hq⟩
  · rintro ⟨p, owner, hp, ho, hq⟩
    obtain ⟨p', hp', hsame⟩ := PathSet.contains_iff.mp hp
    refine ⟨p', hp', owner, ?_, hq⟩
    rw [← hg.owner?_eq_some_iff, ← owner?_congr hsame]
    exact hg.owner?_eq_some_iff.mpr ho

/-- What a class does not list although the owner of a table that it lists does. -/
theorem contains_unmet_iff (hg : g.WellFormed) :
    (g.unmet cls).contains q = true ↔
      (∃ p owner, g.Lists cls p ∧ g.Owns owner p ∧ g.Lists owner q) ∧ ¬ g.Lists cls q := by
  unfold unmet
  cases hset : g.dependencies? cls with
  | none => simp [Lists, hset]
  | some set =>
    simp only [lists_iff_of_dependencies? hset, ← contains_ofOwners_iff hg]
    simp only [PathSet.contains_iff (s := List.filter _ _), List.mem_filter, Bool.not_eq_true']
    constructor
    · rintro ⟨q', ⟨hmem, hnot⟩, hsame⟩
      rw [PathSet.contains_congr hsame, PathSet.contains_congr hsame, hnot]
      exact ⟨PathSet.contains_of_mem hmem, Bool.false_ne_true⟩
    · rintro ⟨hin, hnot⟩
      obtain ⟨q', hmem, hsame⟩ := PathSet.contains_iff.mp hin
      rw [PathSet.contains_congr hsame, Bool.not_eq_true] at hnot
      exact ⟨q', ⟨hmem, hnot⟩, hsame⟩

theorem dependencies?_closeClass :
    (g.closeClass cls).dependencies? other =
      if other = cls then some (((g.dependencies? cls).getD []).union (g.unmet cls))
      else g.dependencies? other :=
  Ordered.lookup_put

theorem lists_closeClass_iff :
    (g.closeClass cls).Lists other q ↔
      g.Lists other q ∨ (other = cls ∧ (g.unmet cls).contains q = true) := by
  simp only [Lists, dependencies?_closeClass]
  by_cases h : other = cls
  · subst other
    cases hset : g.dependencies? cls with
    | none => simp [PathSet.contains_union_iff]
    | some set => simp [PathSet.contains_union_iff]
  · simp [h]

/-- What visiting the classes of `g` keeps: nothing is registered or forgotten, and every set lies
between what it was and what the class needs. -/
structure Grown (g g' : DependencyGraph) : Prop where
  tables : g'.tables = g.tables
  keys : g'.dependencies.map Prod.fst = g.dependencies.map Prod.fst
  kept : ∀ {cls p}, g.Lists cls p → g'.Lists cls p
  needed : ∀ {cls p}, g'.Lists cls p → g.Needs cls p

namespace Grown

theorem refl (g : DependencyGraph) : Grown g g := ⟨rfl, rfl, id, .listed⟩

theorem wellFormed (h : Grown g g') (hg : g.WellFormed) : g'.WellFormed :=
  ⟨h.tables ▸ hg.tables, h.keys ▸ hg.dependencies⟩

theorem owns_iff (h : Grown g g') : g'.Owns cls p ↔ g.Owns cls p := by
  have htable : g'.table? = g.table? := by
    funext c
    rw [table?, table?, h.tables]
  constructor
  · rintro ⟨hreg, hgreat⟩
    rw [htable] at hreg hgreat
    exact ⟨hreg, hgreat⟩
  · rintro ⟨hreg, hgreat⟩
    rw [← htable] at hreg hgreat
    exact ⟨hreg, hgreat⟩

theorem closeClass (h : Grown g g') (hg : g.WellFormed) (hcls : cls ∈ g.dependencies.map Prod.fst) :
    Grown g (g'.closeClass cls) where
  tables := h.tables
  keys := by
    rw [← h.keys] at hcls ⊢
    exact Ordered.keys_put_of_mem (h.wellFormed hg).dependencies hcls
  kept := fun hp => lists_closeClass_iff.mpr (Or.inl (h.kept hp))
  needed := by
    intro other q hq
    rcases lists_closeClass_iff.mp hq with hq | ⟨rfl, hq⟩
    · exact h.needed hq
    · obtain ⟨⟨p, owner, hp, ho, hq⟩, _⟩ := (contains_unmet_iff (h.wellFormed hg)).mp hq
      exact (h.needed hp).trans (h.owns_iff.mp ho) (h.needed hq)

end Grown

/-- What a pass does at one class; the flag tells whether anything was added so far. -/
def visit (r : Bool × DependencyGraph) (cls : String) : Bool × DependencyGraph :=
  if (r.2.unmet cls).isEmpty then r else (true, r.2.closeClass cls)

theorem pass_eq_foldl (g : DependencyGraph) :
    g.pass = (g.dependencies.map Prod.fst).foldl visit (false, g) := rfl

theorem grown_visit {b : Bool} (h : Grown g g') (hg : g.WellFormed)
    (hcls : cls ∈ g.dependencies.map Prod.fst) : Grown g (visit (b, g') cls).2 := by
  unfold visit
  split
  · exact h
  · exact h.closeClass hg hcls

theorem grown_foldl_visit {b : Bool} {l : List String} (h : Grown g g') (hg : g.WellFormed)
    (hl : ∀ cls ∈ l, cls ∈ g.dependencies.map Prod.fst) : Grown g (l.foldl visit (b, g')).2 := by
  induction l generalizing b g' with
  | nil => exact h
  | cons cls l ih =>
    exact ih (grown_visit h hg (hl cls List.mem_cons_self))
      (fun c hc => hl c (List.mem_cons_of_mem cls hc))

theorem Grown.pass (h : Grown g g') (hg : g.WellFormed) : Grown g g'.pass.2 := by
  rw [pass_eq_foldl]
  exact grown_foldl_visit h hg fun cls hcls => h.keys ▸ hcls

theorem fst_foldl_visit_of_true (l : List String) : (l.foldl visit (true, g)).1 = true := by
  induction l generalizing g with
  | nil => rfl
  | cons cls l ih =>
    rw [List.foldl_cons, visit]
    split
    · exact ih
    · exact ih

/-- Visits that add nothing have all seen the graph that they started with. -/
theorem unmet_of_foldl_visit {l : List String} (h : (l.foldl visit (false, g)).1 = false) :
    (l.foldl visit (false, g)).2 = g ∧ ∀ cls ∈ l, g.unmet cls = [] := by
  induction l with
  | nil => simp
  | cons cls l ih =>
    rw [List.foldl_cons] at h ⊢
    by_cases hempty : (g.unmet cls).isEmpty = true
    · have hvisit : visit (false, g) cls = (false, g) := if_pos hempty
      rw [hvisit] at h ⊢
      obtain ⟨hsame, hrest⟩ := ih h
      refine ⟨hsame, ?_⟩
      intro c hc
      rcases List.mem_cons.mp hc with rfl | hc
      · exact List.isEmpty_iff.mp hempty
      · exact hrest c hc
    · have hvisit : visit (false, g) cls = (true, g.closeClass cls) := if_neg hempty
      rw [hvisit, fst_foldl_visit_of_true] at h
      cases h

/-- No class lacks anything that the owners of its tables list. -/
def Closed (g : DependencyGraph) : Prop :=
  ∀ cls owner p q, g.Lists cls p → g.Owns owner p → g.Lists owner q → g.Lists cls q

theorem closed_of_pass (hg : g.WellFormed) (h : g.pass.1 = false) : g.pass.2 = g ∧ g.Closed := by
  rw [pass_eq_foldl] at h ⊢
  obtain ⟨hsame, hunmet⟩ := unmet_of_foldl_visit h
  refine ⟨hsame, ?_⟩
  intro cls owner p q hp ho hq
  have hempty := hunmet cls hp.mem_keys
  refine Classical.byContradiction fun hnot => ?_
  have hin := (contains_unmet_iff hg).mpr ⟨⟨p, owner, hp, ho, hq⟩, hnot⟩
  simp [hempty] at hin

theorem Grown.lists_of_needs (h : Grown g g') (hclosed : g'.Closed) (hp : g.Needs cls p) :
    g'.Lists cls p := by
  apply hp.least
  · exact fun p hp => h.kept hp
  · exact fun p q owner hp ho hq => hclosed cls owner p q hp (h.owns_iff.mpr ho) (h.kept hq)

/-- Any number of passes stays between the graph and its needs; a run that settles has reached them. -/
theorem grown_closeFrom (h : Grown g g') (hg : g.WellFormed) (done left : Nat) :
    Grown g (closeFrom done left g').2 ∧
      (∀ passes, (closeFrom done left g').1 = .settled passes → (closeFrom done left g').2.Closed) := by
  induction left generalizing done g' with
  | zero => exact ⟨h, fun _ hrun => nomatch hrun⟩
  | succ left ih =>
    have hpass := h.pass hg
    have hclosed := closed_of_pass (h.wellFormed hg)
    unfold closeFrom
    split
    · rename_i g'' heq
      rw [heq] at hpass
      exact ih hpass (done + 1)
    · rename_i g'' heq
      rw [heq] at hpass hclosed
      obtain ⟨hsame, hclosed⟩ := hclosed rfl
      exact ⟨hpass, fun _ _ => hsame ▸ hclosed⟩

theorem grown_close (hg : g.WellFormed) (limit : Nat) : Grown g (g.close limit).2 :=
  (grown_closeFrom (.refl g) hg 0 limit).1

theorem lists_close_iff (hg : g.WellFormed) {limit passes : Nat}
    (h : (g.close limit).1 = .settled passes) :
    (g.close limit).2.Lists cls p ↔ g.Needs cls p := by
  obtain ⟨hgrown, hclosed⟩ := grown_closeFrom (.refl g) hg 0 limit
  exact ⟨hgrown.needed, hgrown.lists_of_needs (hclosed passes h)⟩

/-- A run that settles leaves every class with exactly what it needs; a run that diverges stops
somewhere on the way. Either way the same classes and tables are there as before. -/
theorem close_ofEntries (entries : List Entry) (limit : Nat) {outcome : Closure}
    {closed : DependencyGraph} (h : (ofEntries entries).close limit = (outcome, closed)) :
    closed.tables = (ofEntries entries).tables ∧
    closed.dependencies.map Prod.fst = (ofEntries entries).dependencies.map Prod.fst ∧
    ∀ cls set, (ofEntries entries).dependencies? cls = some set →
      ∃ set', closed.dependencies? cls = some set' ∧
        (∀ p, set.contains p = true → set'.contains p = true) ∧
        (∀ p, set'.contains p = true → (ofEntries entries).Needs cls p) ∧
        (∀ passes, outcome = .settled passes →
          ∀ p, set'.contains p = true ↔ (ofEntries entries).Needs cls p) := by
  have hg := wellFormed_ofEntries entries
  have hgrown := grown_close hg limit
  have hsettled : ∀ passes cls p, ((ofEntries entries).close limit).1 = .settled passes →
      (((ofEntries entries).close limit).2.Lists cls p ↔ (ofEntries entries).Needs cls p) :=
    fun _ _ _ hpasses => lists_close_iff hg hpasses
  rw [h] at hgrown hsettled
  refine ⟨hgrown.tables, hgrown.keys, ?_⟩
  intro cls set hset
  have hkey : cls ∈ closed.dependencies.map Prod.fst := hgrown.keys ▸ mem_keys_iff.mpr ⟨set, hset⟩
  obtain ⟨set', hset'⟩ := mem_keys_iff.mp hkey
  refine ⟨set', hset', ?_, ?_, ?_⟩
  · intro p hp
    exact (lists_iff_of_dependencies? hset').mp (hgrown.kept ((lists_iff_of_dependencies? hset).mpr hp))
  · intro p hp
    exact hgrown.needed ((lists_iff_of_dependencies? hset').mpr hp)
  · intro passes hpasses p
    rw [← lists_iff_of_dependencies? hset']
    exact hsettled passes cls p hpasses

/-- Two classes that need each other, each by another spelling of its table, and a table that nobody
owns. -/
def mutualNeeds : List Entry :=
  [.register "A" ⟨"t/A.csv"⟩, .register "B" ⟨"t/B.csv"⟩, .add "A" ⟨"t//B.csv"⟩, .add "B" ⟨"t/A.csv/"⟩,
    .add "B" ⟨"ids.csv"⟩]

theorem close_mutualNeeds :
    ((ofEntries mutualNeeds).close 2).1 = .settled 2 ∧
      ¬ (ofEntries mutualNeeds).Needs "A" ⟨"./ids.csv"⟩ ∧
      (ofEntries mutualNeeds).Needs "A" ⟨"ids.csv"⟩ := by
  obtain ⟨_, _, hsets⟩ := close_ofEntries mutualNeeds 2 rfl
  obtain ⟨set', hset', _, _, hiff⟩ := hsets "A" [⟨"t/A.csv"⟩, ⟨"t//B.csv"⟩] (by decide)
  have hrun : some [⟨"ids.csv"⟩, ⟨"t/A.csv"⟩, ⟨"t//B.csv"⟩] = some set' :=
    Eq.trans (by decide) hset'
  obtain rfl := Option.some.inj hrun
  refine ⟨by decide, ?_, ?_⟩
  · rw [← hiff 2 (by decide)]
    decide
  · rw [← hiff 2 (by decide)]
    decide

end SchemaTables.DependencyGraph
