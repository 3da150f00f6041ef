import Mathlib.Algebra.Ring.Nat
import SchemaTables.Proofs.Dependency.Incremental

/-!
How many passes a graph may need. What a class needs it needs through a chain of owners, and a chain that
meets one owner twice can be cut short. A pass joins what a class lists to what the owner of it lists, so
each pass doubles the length of the chains that are known, and once they are as long as there are owners
the next pass adds nothing. Visits see what earlier visits of the pass added, which can only help.

This module does not say that so many passes are ever used up.
-/

namespace SchemaTables.DependencyGraph

set_option autoImplicit false

/-- The class needs the table through the owners, of which the one that is followed last comes first. -/
inductive NeedsVia (g : DependencyGraph) (cls : String) : List String → Path → Prop where
  | listed {p : Path} : g.Lists cls p → NeedsVia g cls [] p
  | ofOwner {p q : Path} {owner : String} {owners : List String} :
      NeedsVia g cls owners p → g.Owns owner p → g.Lists owner q → NeedsVia g cls (owner :: owners) q

variable {g g' : DependencyGraph} {cls owner : String} {owners before after : List String} {p q : Path}

theorem Owns.mem_tables (h : g.Owns cls p) : cls ∈ g.tables.map Prod.fst := by
  obtain ⟨own, hown, _⟩ := h.registered
  have hsome : (g.tables.lookup cls).isSome := Option.isSome_iff_exists.mpr ⟨own, hown⟩
  obtain ⟨entry, hmem, heq⟩ := List.lookup_isSome_iff.mp hsome
  exact List.mem_map.mpr ⟨entry, hmem, (eq_of_beq heq).symm⟩

namespace NeedsVia

theorem mem_tables (h : g.NeedsVia cls owners p) : ∀ owner ∈ owners, owner ∈ g.tables.map Prod.fst := by
  induction h with
  | listed _ => simp
  | ofOwner _ ho _ ih =>
    intro other hother
    rcases List.mem_cons.mp hother with rfl | hother
    · exact ho.mem_tables
    · exact ih other hother

/-- A chain breaks at each of its owners: the class needs a table of the owner through those before it,
and the owner needs the rest through those after it. -/
theorem split (h : g.NeedsVia cls (after ++ owner :: before) p) :
    ∃ q, g.NeedsVia cls before q ∧ g.Owns owner q ∧ g.NeedsVia owner after p := by
  induction after generalizing p with
  | nil =>
    cases h with
    | ofOwner hbefore ho hlist => exact ⟨_, hbefore, ho, .listed hlist⟩
  | cons last after ih =>
    cases h with
    | ofOwner hrest ho hlist =>
      obtain ⟨q, hbefore, howner, hafter⟩ := ih hrest
      exact ⟨q, hbefore, howner, .ofOwner hafter ho hlist⟩

end NeedsVia

/-- What a class needs it needs through owners that are pairwise different. -/
theorem Needs.exists_via (h : g.Needs cls p) : ∃ owners, owners.Nodup ∧ g.NeedsVia cls owners p := by
  induction h with
  | listed hp => exact ⟨[], List.nodup_nil, .listed hp⟩
  | @ofOwner p q owner _ ho hq ih =>
    obtain ⟨owners, hnodup, hvia⟩ := ih
    by_cases hmem : owner ∈ owners
    · -- the owner was followed before, and what came in between is left out
      obtain ⟨after, before, rfl⟩ := List.append_of_mem hmem
      obtain ⟨r, hbefore, ho', _⟩ := hvia.split
      exact ⟨owner :: before, (List.nodup_append.mp hnodup).2.1, .ofOwner hbefore ho' hq⟩
    · exact ⟨owner :: owners, List.nodup_cons.mpr ⟨hmem, hnodup⟩, .ofOwner hvia ho hq⟩

theorem Needs.exists_short_via (h : g.Needs cls p) :
    ∃ owners, owners.length ≤ g.tables.length ∧ g.NeedsVia cls owners p := by
  obtain ⟨owners, hnodup, hvia⟩ := h.exists_via
  refine ⟨owners, ?_, hvia⟩
  have hle : owners.length ≤ (g.tables.map Prod.fst).length := hnodup.length_le_of_subset hvia.mem_tables
  rwa [List.length_map] at hle

/-- A visit gives the class what the owner of one of its tables lists. -/
theorem lists_visit {b : Bool} (hg : g.WellFormed) (hp : g.Lists cls p) (ho : g.Owns owner p)
    (hq : g.Lists owner q) : (visit (b, g) cls).2.Lists cls q := by
  by_cases hlisted : g.Lists cls q
  · exact (grown_visit (.refl g) hg hp.mem_keys).kept hlisted
  · have hunmet : (g.unmet cls).contains q = true :=
      (contains_unmet_iff hg).mpr ⟨⟨p, owner, hp, ho, hq⟩, hlisted⟩
    have hne : (g.unmet cls).isEmpty = false := by
      rw [Bool.eq_false_iff]
      intro hempty
      rw [List.isEmpty_iff.mp hempty] at hunmet
      cases hunmet
    have hvisit : visit (b, g) cls = (true, g.closeClass cls) := if_neg (by simp [hne])
    rw [hvisit]
    exact lists_closeClass_iff.mpr (Or.inr ⟨rfl, hunmet⟩)

/-- So does a pass, whatever the visits before and after that of the class do. -/
theorem lists_pass (hg : g.WellFormed) (hp : g.Lists cls p) (ho : g.Owns owner p) (hq : g.Lists owner q) :
    g.pass.2.Lists cls q := by
  obtain ⟨before, after, hkeys⟩ := List.append_of_mem hp.mem_keys
  have hearlier : ∀ c ∈ before, c ∈ g.dependencies.map Prod.fst := by
    intro c hc
    rw [hkeys]
    exact List.mem_append_left _ hc
  have hlater : ∀ c ∈ after, c ∈ g.dependencies.map Prod.fst := by
    intro c hc
    rw [hkeys]
    exact List.mem_append_right before (List.mem_cons_of_mem cls hc)
  rw [pass_eq_foldl, hkeys, List.foldl_append, List.foldl_cons]
  have hfirst : Grown g (before.foldl visit (false, g)).2 := grown_foldl_visit (.refl g) hg hearlier
  generalize before.foldl visit (false, g) = r at hfirst ⊢
  obtain ⟨b, middle⟩ := r
  have hvisit : (visit (b, middle) cls).2.Lists cls q :=
    lists_visit (hfirst.wellFormed hg) (hfirst.kept hp) (hfirst.owns_iff.mpr ho) (hfirst.kept hq)
  have hvisited : Grown g (visit (b, middle) cls).2 := grown_visit hfirst hg hp.mem_keys
  generalize visit (b, middle) cls = r at hvisit hvisited ⊢
  obtain ⟨b', middle'⟩ := r
  have hrest : Grown middle' (after.foldl visit (b', middle')).2 :=
    grown_foldl_visit (.refl middle') (hvisited.wellFormed hg) fun c hc => hvisited.keys ▸ hlater c hc
  exact hrest.kept hvisit

/-- The second graph lists what the first one needs through fewer than `n` owners. -/
def Knows (g g' : DependencyGraph) (n : Nat) : Prop :=
  ∀ cls owners p, g.NeedsVia cls owners p → owners.length < n → g'.Lists cls p

theorem Grown.knows_one (h : Grown g g') : Knows g g' 1 := by
  intro cls owners p hvia hshort
  obtain rfl := List.length_eq_zero_iff.mp (Nat.lt_one_iff.mp hshort)
  cases hvia with
  | listed hp => exact h.kept hp

/-- A pass doubles the length of the chains that are known. -/
theorem Knows.pass {n : Nat} (h : Knows g g' n) (hgrown : Grown g g') (hg : g.WellFormed) (hn : 0 < n) :
    Knows g g'.pass.2 (2 * n) := by
  have hwell := hgrown.wellFormed hg
  intro cls owners p hvia hshort
  by_cases hknown : owners.length < n
  · exact ((Grown.refl g').pass hwell).kept (h cls owners p hvia hknown)
  · -- the chain is broken so that less than `n` owners are left on both sides
    have hfront : (owners.take (owners.length - n)).length < n := by
      rw [List.length_take]
      omega
    have hback : (owners.drop (owners.length - n)).length = n := by
      rw [List.length_drop]
      omega
    rcases hdrop : owners.drop (owners.length - n) with _ | ⟨owner, before⟩
    · rw [hdrop] at hback
      simp only [List.length_nil] at hback
      omega
    · rw [hdrop, List.length_cons] at hback
      rw [← List.take_append_drop (owners.length - n) owners, hdrop] at hvia
      obtain ⟨q, hbefore, ho, hafter⟩ := hvia.split
      exact lists_pass hwell (h cls before q hbefore (by omega)) (hgrown.owns_iff.mpr ho)
        (h owner _ p hafter hfront)

theorem Knows.closed {n : Nat} (h : Knows g g' n) (hgrown : Grown g g') (hn : g.tables.length < n) :
    g'.Closed := by
  intro cls owner p q hp ho hq
  have hneeds : g.Needs cls q :=
    (hgrown.needed hp).trans (hgrown.owns_iff.mp ho) (hgrown.needed hq)
  obtain ⟨owners, hshort, hvia⟩ := hneeds.exists_short_via
  exact h cls owners q hvia (Nat.lt_of_le_of_lt hshort hn)

/-- A run settles when the passes that are left, but for the last, double the known chains often enough. -/
theorem exists_closeFrom_settled (hg : g.WellFormed) (done : Nat) {t left : Nat} (hgrown : Grown g g')
    (h : Knows g g' (2 ^ t)) (hroom : g.tables.length < 2 ^ (t + left)) :
    ∃ passes ≤ done + (left + 1), (closeFrom done (left + 1) g').1 = .settled passes := by
  induction left generalizing t done g' with
  | zero =>
    have hpass := pass_of_closed (hgrown.wellFormed hg) (h.closed hgrown hroom)
    exact ⟨done + 1, Nat.le_refl _, by rw [closeFrom, hpass]⟩
  | succ left ih =>
    have hgrown' := hgrown.pass hg
    have hknows := h.pass hgrown hg (Nat.two_pow_pos t)
    rw [← Nat.pow_succ'] at hknows
    rw [closeFrom]
    rcases hpass : g'.pass with ⟨changed, g''⟩
    cases changed with
    | false => exact ⟨done + 1, by omega, rfl⟩
    | true =>
      rw [hpass] at hgrown' hknows
      rw [← Nat.add_assoc, Nat.add_right_comm] at hroom
      obtain ⟨passes, hle, hrun⟩ := ih (done + 1) hgrown' hknows hroom
      exact ⟨passes, by omega, hrun⟩

theorem WellFormed.exists_settled (hg : g.WellFormed) {limit : Nat} (hlimit : 1 ≤ limit)
    (hroom : g.tables.length + 1 ≤ 2 ^ (limit - 1)) :
    ∃ passes ≤ limit, (g.close limit).1 = .settled passes := by
  obtain ⟨left, rfl⟩ := Nat.exists_eq_add_of_le' hlimit
  have hroom' : g.tables.length < 2 ^ (0 + left) := by
    rw [Nat.zero_add]
    exact hroom
  have hrun := exists_closeFrom_settled hg 0 (.refl g) (Grown.refl g).knows_one hroom'
  rwa [Nat.zero_add] at hrun

end SchemaTables.DependencyGraph
