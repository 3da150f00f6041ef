import SchemaTables.Proofs.Dependency.Closure

/-!
Graphs that grow and are closed in turn. Whatever is closed in between, and however early a run is cut
off, a graph lists at any moment at least what it was told so far and at most what all entries entail.
So where the entries leave no doubt who owns a table, a run that settles ends where it would have ended
without the runs before it, whatever the order of the entries.

This module does not bound the number of passes that a run needs.
-/

namespace SchemaTables.DependencyGraph

set_option autoImplicit false

/-- A graph is told an entry, or is closed in at most so many passes. -/
inductive Step where
  | tell (e : Entry)
  | close (limit : Nat)
deriving DecidableEq, Repr

def Step.entry? : Step → Option Entry
  | tell e => some e
  | close _ => none

def take (g : DependencyGraph) : Step → DependencyGraph
  | .tell e => g.record e
  | .close limit => (g.close limit).2

def ofSteps (steps : List Step) : DependencyGraph := steps.foldl take .empty

/-- The entries among the steps. -/
def told (steps : List Step) : List Entry := steps.filterMap Step.entry?

/-- The classes that are registered, each with its table. -/
def registrations (entries : List Entry) : List (String × Path) :=
  entries.filterMap fun
    | .register cls table => some (cls, table)
    | .add _ _ => none

/-- No class is registered with two tables, and no table with two classes. -/
def Unambiguous (entries : List Entry) : Prop :=
  ∀ r ∈ registrations entries, ∀ r' ∈ registrations entries, r.1 = r'.1 ↔ r.2.Same r'.2

instance (entries : List Entry) : Decidable (Unambiguous entries) :=
  inferInstanceAs (Decidable (∀ _ ∈ _, _))

/-- What a class needs according to the entries, in whatever order they are told. -/
inductive Entails (entries : List Entry) (cls : String) : Path → Prop where
  | told {e : Entry} {p : Path} : e ∈ entries → e.cls = cls → p.Same e.table → Entails entries cls p
  | ofOwner {e : Entry} {p q own : Path} :
      Entails entries cls p → .register e.cls own ∈ entries → own.Same p → e ∈ entries →
      q.Same e.table → Entails entries cls q

variable {g : DependencyGraph} {cls other : String} {p q : Path} {e : Entry} {entries all : List Entry}
  {steps : List Step}

theorem mem_registrations_iff : (cls, p) ∈ registrations entries ↔ .register cls p ∈ entries := by
  simp only [registrations, List.mem_filterMap]
  constructor
  · rintro ⟨e, he, h⟩
    cases e with
    | register c t =>
      cases h
      exact he
    | add c t => cases h
  · intro h
    exact ⟨_, h, rfl⟩

theorem Unambiguous.same_iff (h : Unambiguous entries) (hp : .register cls p ∈ entries)
    (hq : .register other q ∈ entries) : cls = other ↔ p.Same q :=
  h _ (mem_registrations_iff.mpr hp) _ (mem_registrations_iff.mpr hq)

theorem Unambiguous.subset (h : Unambiguous all) (hall : entries ⊆ all) : Unambiguous entries := by
  rintro ⟨cls, p⟩ hp ⟨other, q⟩ hq
  exact h.same_iff (hall (mem_registrations_iff.mp hp)) (hall (mem_registrations_iff.mp hq))

namespace Entails

theorem mono (h : Entails entries cls p) (hall : entries ⊆ all) : Entails all cls p := by
  induction h with
  | told he hcls hsame => exact .told (hall he) hcls hsame
  | ofOwner _ hown hsame he hq ih => exact .ofOwner ih (hall hown) hsame (hall he) hq

theorem trans {own : Path} (hp : Entails entries cls p) (hown : .register other own ∈ entries)
    (hsame : own.Same p) (hq : Entails entries other q) : Entails entries cls q := by
  induction hq with
  | told he hcls hq =>
    subst hcls
    exact .ofOwner hp hown hsame he hq
  | ofOwner _ hown' hsame' he hq ih => exact .ofOwner ih hown' hsame' he hq

end Entails

/-- The graph was told some of the entries: it lists no less than these, and no more than all of the
entries entail. -/
structure Within (entries all : List Entry) (g : DependencyGraph) : Prop where
  wellFormed : g.WellFormed
  tables : g.tables = (ofEntries entries).tables
  keys : ∀ cls, cls ∈ g.dependencies.map Prod.fst ↔ ∃ e ∈ entries, e.cls = cls
  kept : ∀ e ∈ entries, ∀ p, p.Same e.table → g.Lists e.cls p
  entailed : ∀ cls p, g.Lists cls p → Entails all cls p

theorem within_empty (all : List Entry) : Within [] all .empty where
  wellFormed := wellFormed_empty
  tables := rfl
  keys := by simp [empty]
  kept := by simp
  entailed := fun _ _ ⟨_, hset, _⟩ => nomatch hset

theorem tables_record_congr {g' : DependencyGraph} (h : g.tables = g'.tables) (e : Entry) :
    (g.record e).tables = (g'.record e).tables := by
  cases e with
  | add cls table => exact h
  | register cls table => exact congrArg (Ordered.put compare cls table) h

theorem mem_keys_record_iff :
    cls ∈ (g.record e).dependencies.map Prod.fst ↔ cls = e.cls ∨ cls ∈ g.dependencies.map Prod.fst := by
  have hadd : ∀ c t, cls ∈ (g.add c t).dependencies.map Prod.fst ↔
      cls = c ∨ cls ∈ g.dependencies.map Prod.fst := by
    intro c t
    simp only [mem_keys_iff, dependencies?_add]
    by_cases heq : cls = c
    · simp [heq]
    · simp [heq]
  cases e with
  | add c t => exact hadd c t
  | register c t => exact hadd c t

theorem lists_record_iff : (g.record e).Lists cls p ↔ (cls = e.cls ∧ p.Same e.table) ∨ g.Lists cls p := by
  cases e with
  | add c t => exact lists_add_iff
  | register c t => exact lists_register_iff

namespace Within

theorem registered_of_owns (h : Within entries all g) (ho : g.Owns cls p) :
    ∃ own, .register cls own ∈ entries ∧ own.Same p := by
  obtain ⟨own, hown, hsame⟩ := ho.registered
  rw [table?, h.tables] at hown
  rcases table?_foldl_record hown with hempty | hmem
  · cases hempty
  · exact ⟨own, hmem, hsame⟩

theorem entails_of_needs (h : Within entries all g) (hall : entries ⊆ all) (hp : g.Needs cls p) :
    Entails all cls p := by
  induction hp with
  | listed hp => exact h.entailed _ _ hp
  | ofOwner _ ho hq ih =>
    obtain ⟨own, hown, hsame⟩ := h.registered_of_owns ho
    exact ih.trans (hall hown) hsame (h.entailed _ _ hq)

theorem record (h : Within entries all g) (he : e ∈ all) : Within (entries ++ [e]) all (g.record e) where
  wellFormed := by
    cases e with
    | add cls table => exact h.wellFormed.add
    | register cls table => exact h.wellFormed.register
  tables := by
    rw [ofEntries, List.foldl_append]
    exact tables_record_congr h.tables e
  keys := by
    intro cls
    rw [mem_keys_record_iff, h.keys]
    simp only [List.mem_append, List.mem_singleton, or_and_right, exists_or, exists_eq_left]
    rw [or_comm, eq_comm]
  kept := by
    intro e' he' p hp
    apply lists_record_iff.mpr
    rcases List.mem_append.mp he' with he' | he'
    · exact Or.inr (h.kept e' he' p hp)
    · cases List.mem_singleton.mp he'
      exact Or.inl ⟨rfl, hp⟩
  entailed := by
    intro cls p hp
    rcases lists_record_iff.mp hp with ⟨rfl, hsame⟩ | hp
    · exact .told he rfl hsame
    · exact h.entailed cls p hp

/-- Closing keeps the bounds even when it is cut off, since each pass only adds what is needed. -/
theorem close (h : Within entries all g) (hall : entries ⊆ all) (limit : Nat) :
    Within entries all (g.close limit).2 := by
  have hgrown := grown_close h.wellFormed limit
  refine ⟨hgrown.wellFormed h.wellFormed, hgrown.tables.trans h.tables, ?_, ?_, ?_⟩
  · intro cls
    rw [hgrown.keys, h.keys]
  · intro e he p hp
    exact hgrown.kept (h.kept e he p hp)
  · intro cls p hp
    exact h.entails_of_needs hall (hgrown.needed hp)

end Within

theorem within_foldl_take (h : Within entries all g) (hall : entries ++ told steps ⊆ all) :
    Within (entries ++ told steps) all (steps.foldl take g) := by
  induction steps generalizing entries g with
  | nil => simpa [told] using h
  | cons step steps ih =>
    cases step with
    | tell e =>
      have htold : entries ++ told (.tell e :: steps) = (entries ++ [e]) ++ told steps := by
        simp [told, Step.entry?]
      rw [htold] at hall ⊢
      have he : e ∈ all := hall (by simp)
      exact ih (h.record he) hall
    | close limit =>
      have htold : told (.close limit :: steps) = told steps := rfl
      rw [htold] at hall ⊢
      have hbefore : entries ⊆ all := fun _ he => hall (List.mem_append_left _ he)
      exact ih (h.close hbefore limit) hall

theorem within_ofSteps (steps : List Step) : Within (told steps) (told steps) (ofSteps steps) :=
  within_foldl_take (within_empty (told steps)) (List.Subset.refl _)

theorem Within.owns_iff (h : Within entries all g) (hone : Unambiguous entries) :
    g.Owns cls p ↔ ∃ own, .register cls own ∈ entries ∧ own.Same p := by
  constructor
  · exact h.registered_of_owns
  · rintro ⟨own, hown, hsame⟩
    have htable : g.table? = (ofEntries entries).table? := by
      funext c
      rw [table?, table?, h.tables]
    obtain ⟨own', hown'⟩ := Option.isSome_iff_exists.mp
      (isSome_table?_foldl_record (Or.inr ⟨own, hown⟩))
    have hmem : ∀ {c q}, (ofEntries entries).table? c = some q → .register c q ∈ entries := by
      intro c q hq
      refine (table?_foldl_record hq).resolve_left ?_
      intro hempty
      cases hempty
    refine ⟨⟨own', htable ▸ hown', ((hone.same_iff (hmem hown') hown).mp rfl).trans hsame⟩, ?_⟩
    intro other q hother hq
    rw [htable] at hother
    rw [(hone.same_iff (hmem hother) hown).mpr (hq.trans hsame.symm)]
    exact String.lt_irrefl cls

theorem Within.needs_iff (h : Within entries entries g) (hone : Unambiguous entries) :
    g.Needs cls p ↔ Entails entries cls p := by
  constructor
  · exact h.entails_of_needs (List.Subset.refl entries)
  · intro hp
    induction hp with
    | told he hcls hsame => exact .listed (hcls ▸ h.kept _ he _ hsame)
    | ofOwner _ hown hsame he hq ih =>
      exact .ofOwner ih ((h.owns_iff hone).mpr ⟨_, hown, hsame⟩) (h.kept _ he _ hq)

theorem told_map_tell (entries : List Entry) : told (entries.map .tell) = entries := by
  simp [told, List.filterMap_map, Function.comp_def, Step.entry?]

theorem ofSteps_map_tell (entries : List Entry) : ofSteps (entries.map .tell) = ofEntries entries := by
  rw [ofSteps, ofEntries, List.foldl_map]
  rfl

section Settled
variable {limit passes : Nat} {closed : DependencyGraph}

/-- A run that settles leaves every class with what the entries entail. -/
theorem lists_close_ofSteps_iff (hone : Unambiguous (told steps))
    (h : (ofSteps steps).close limit = (.settled passes, closed)) :
    closed.Lists cls p ↔ Entails (told steps) cls p := by
  have hwithin := within_ofSteps steps
  have hlists : ((ofSteps steps).close limit).2.Lists cls p ↔ (ofSteps steps).Needs cls p :=
    lists_close_iff hwithin.wellFormed (congrArg Prod.fst h)
  rw [h] at hlists
  rw [hlists]
  exact hwithin.needs_iff hone

theorem isSome_dependencies?_close_ofSteps (h : ((ofSteps steps).close limit).2 = closed) :
    (closed.dependencies? cls).isSome ↔ ∃ e ∈ told steps, e.cls = cls := by
  have hwithin := (within_ofSteps steps).close (List.Subset.refl _) limit
  rw [h] at hwithin
  rw [← hwithin.keys, mem_keys_iff, Option.isSome_iff_exists]

theorem unmet_of_closed (hg : g.WellFormed) (h : g.Closed) (cls : String) : g.unmet cls = [] := by
  apply List.eq_nil_iff_forall_not_mem.mpr
  intro q hq
  obtain ⟨⟨p, owner, hp, ho, hlist⟩, hnot⟩ := (contains_unmet_iff hg).mp (PathSet.contains_of_mem hq)
  exact hnot (h cls owner p q hp ho hlist)

theorem pass_of_closed (hg : g.WellFormed) (h : g.Closed) : g.pass = (false, g) := by
  have hvisit : ∀ l : List String, l.foldl visit (false, g) = (false, g) := by
    intro l
    induction l with
    | nil => rfl
    | cons cls l ih =>
      have hstay : visit (false, g) cls = (false, g) := by
        apply if_pos
        simp [unmet_of_closed hg h]
      rw [List.foldl_cons, hstay, ih]
  rw [pass_eq_foldl]
  exact hvisit _

theorem close_of_settled (hg : g.WellFormed) (h : g.close limit = (.settled passes, closed)) {n : Nat}
    (hn : 0 < n) : closed.close n = (.settled 1, closed) := by
  obtain ⟨hgrown, hclosed⟩ := grown_closeFrom (.refl g) hg 0 limit
  have hrun : closeFrom 0 limit g = (.settled passes, closed) := h
  rw [hrun] at hgrown hclosed
  have hpass := pass_of_closed (hgrown.wellFormed hg) (hclosed passes rfl)
  obtain ⟨m, rfl⟩ := Nat.exists_eq_succ_of_ne_zero (Nat.ne_of_gt hn)
  rw [close, closeFrom, hpass]

end Settled

/-- How a run ends that goes on after so many passes. -/
def Closure.after (done : Nat) : Closure → Closure
  | settled passes => .settled (done + passes)
  | diverged => .diverged

theorem closeFrom_eq (done left : Nat) (g : DependencyGraph) :
    closeFrom done left g = ((g.close left).1.after done, (g.close left).2) := by
  have hshift : ∀ start, closeFrom (done + start) left g =
      ((closeFrom start left g).1.after done, (closeFrom start left g).2) := by
    induction left generalizing g with
    | zero =>
      intro start
      rfl
    | succ left ih =>
      intro start
      unfold closeFrom
      split
      · exact ih _ (start + 1)
      · rfl
  exact hshift 0

theorem closeFrom_add {done a : Nat} (b : Nat) (h : (closeFrom done a g).1 = .diverged) :
    closeFrom done (a + b) g = closeFrom (done + a) b (closeFrom done a g).2 := by
  induction a generalizing done g with
  | zero =>
    rw [Nat.zero_add]
    rfl
  | succ a ih =>
    rw [Nat.add_right_comm]
    rw [closeFrom] at h
    rw [closeFrom, closeFrom]
    rcases hpass : g.pass with ⟨changed, g'⟩
    rw [hpass] at h
    cases changed with
    | false => cases h
    | true =>
      have hrest := ih h
      rw [Nat.add_assoc, Nat.add_comm 1 a] at hrest
      exact hrest

/-- A run that was cut off and is taken up again ends like one run with all the passes. -/
theorem close_add {a : Nat} (b : Nat) (h : (g.close a).1 = .diverged) :
    g.close (a + b) = (((g.close a).2.close b).1.after a, ((g.close a).2.close b).2) := by
  have hrun := closeFrom_add b h
  rw [Nat.zero_add] at hrun
  rw [close, hrun]
  exact closeFrom_eq a b (g.close a).2

/-- A graph that was closed now and then, however early each run was cut off, ends up with the lists of
the graph that is told the same entries in any order and is closed once. Closing it once more adds
nothing in one pass, and a run that was cut off can be taken up again. -/
theorem close_ofSteps {limit limit' passes passes' : Nat} {closed batch : DependencyGraph}
    (hone : Unambiguous (told steps)) (hperm : entries.Perm (told steps))
    (h : (ofSteps steps).close limit = (.settled passes, closed))
    (hbatch : (ofEntries entries).close limit' = (.settled passes', batch)) :
    (∀ cls, ((closed.dependencies? cls).isSome ↔ (batch.dependencies? cls).isSome) ∧
      ∀ p, closed.Lists cls p ↔ batch.Lists cls p) ∧
    (∀ n, 0 < n → closed.close n = (.settled 1, closed)) ∧
    (∀ a b, ((ofSteps steps).close a).1 = .diverged →
      (ofSteps steps).close (a + b) = ((((ofSteps steps).close a).2.close b).1.after a,
        (((ofSteps steps).close a).2.close b).2)) := by
  have htold : told (entries.map .tell) = entries := told_map_tell entries
  rw [← ofSteps_map_tell] at hbatch
  have hone' : Unambiguous (told (entries.map .tell)) := by
    rw [htold]
    exact hone.subset hperm.subset
  refine ⟨?_, ?_, ?_⟩
  · intro cls
    constructor
    · rw [isSome_dependencies?_close_ofSteps (congrArg Prod.snd h),
        isSome_dependencies?_close_ofSteps (congrArg Prod.snd hbatch), htold]
      simp only [hperm.mem_iff]
    · intro p
      rw [lists_close_ofSteps_iff hone h, lists_close_ofSteps_iff hone' hbatch, htold]
      constructor
      · intro hp
        exact hp.mono hperm.symm.subset
      · intro hp
        exact hp.mono hperm.subset
  · intro n hn
    exact close_of_settled (within_ofSteps steps).wellFormed h hn
  · intro a b hdiverged
    exact close_add b hdiverged

/-- A chain of tables, the last link of which comes after a run that was cut off. -/
def chainSteps : List Step :=
  [.tell (.register "A" ⟨"A.csv"⟩), .tell (.register "B" ⟨"B.csv"⟩), .tell (.register "C" ⟨"C.csv"⟩),
    .tell (.add "A" ⟨"B.csv"⟩), .tell (.add "B" ⟨"./C.csv"⟩), .tell (.add "B" ⟨"C.csv/"⟩), .close 1,
    .tell (.add "C" ⟨"D.csv"⟩), .close 0]

theorem close_ofSteps_chain : ∃ closed, (ofSteps chainSteps).close 2 = (.settled 2, closed) ∧
    closed.Lists "A" ⟨"D.csv//"⟩ := by
  obtain ⟨closed, hclosed⟩ : ∃ closed, (ofSteps chainSteps).close 2 = (.settled 2, closed) := ⟨_, rfl⟩
  obtain ⟨batch, hbatch⟩ : ∃ batch, (ofEntries (told chainSteps).reverse).close 4 = (.settled 3, batch) :=
    ⟨_, rfl⟩
  have hsame := (close_ofSteps (by decide) (List.reverse_perm _) hclosed hbatch).1 "A"
  refine ⟨closed, hclosed, (hsame.2 _).mpr ?_⟩
  cases hbatch
  exact ⟨_, rfl, by decide⟩

/-- A run that may not take a single pass is cut off, even where everything is closed already. -/
theorem close_zero_of_settled : ∃ steps closed, Unambiguous (told steps) ∧
    (ofSteps steps).close 1 = (.settled 1, closed) ∧ (closed.close 0).1 ≠ .settled 1 :=
  ⟨[.tell (.register "A" ⟨"A.csv"⟩)], _, by decide, rfl, by decide⟩

end SchemaTables.DependencyGraph
