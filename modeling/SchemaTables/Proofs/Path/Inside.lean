import SchemaTables.Path.Relative
import SchemaTables.Proofs.Files.Walk
import SchemaTables.Proofs.Path.Join

/-!
Paths that stay inside the directory they are relative to: wherever they have come, they have not gone up more
often than down. From any directory such a path leads to a place below it, and the lexical check for paths that
escape refuses exactly the others. What is added at the end of the last name makes no difference.
-/

namespace SchemaTables

set_option autoImplicit false

namespace Component

/-- A component that goes down into a directory. -/
def isName : Component → Bool
  | name _ => true
  | _ => false

end Component

namespace Path

variable {p q dir : Path} {cs ds : List Component} {c : Component} {depth : Nat} {s t : List Char}

/-- From `depth` names down, the components never go up further than that. -/
def Stays (depth : Nat) (cs : List Component) : Prop :=
  ∀ ps, ps <+: cs → ps.count .parent ≤ depth + ps.countP Component.isName

/-- The path is relative, and at no point of it are there more parent steps than names before. -/
structure Inside (p : Path) : Prop where
  relative : p.isAbsolute = false
  stays : ∀ cs, cs <+: p.components → cs.count .parent ≤ cs.countP Component.isName

instance (p : Path) : Decidable p.Inside :=
  decidable_of_iff (p.isAbsolute = false ∧
      ∀ cs ∈ p.components.inits, cs.count .parent ≤ cs.countP Component.isName) (by
    simp only [List.mem_inits]
    exact ⟨fun h => ⟨h.1, h.2⟩, fun h => ⟨h.relative, h.stays⟩⟩)

namespace Stays

theorem mono {depth' : Nat} (h : Stays depth cs) (hle : depth ≤ depth') : Stays depth' cs := by
  intro ps hps
  have hcount := h ps hps
  omega

theorem of_prefix (h : Stays depth cs) (hds : ds <+: cs) : Stays depth ds := fun ps hps => h ps (hps.trans hds)

theorem nil : Stays depth [] := by
  intro ps hps
  rw [List.prefix_nil.mp hps]
  exact Nat.zero_le _

theorem cons_iff : Stays depth (c :: cs) ↔
    ∀ ps, ps <+: cs → (c :: ps).count .parent ≤ depth + (c :: ps).countP Component.isName := by
  constructor
  · intro h ps hps
    exact h _ ((List.prefix_cons_inj c).mpr hps)
  · intro h ps hps
    rcases List.prefix_cons_iff.mp hps with rfl | ⟨rest, rfl, hrest⟩
    · exact Nat.zero_le _
    · exact h rest hrest

theorem name_iff {n : String} : Stays depth (.name n :: cs) ↔ Stays (depth + 1) cs := by
  rw [cons_iff]
  refine forall₂_congr fun ps _ => ?_
  have hne : Component.name n ≠ .parent := nofun
  rw [List.count_cons_of_ne hne, List.countP_cons_of_pos (by rfl)]
  omega

theorem parent_iff : Stays depth (.parent :: cs) ↔ ∃ rest, depth = rest + 1 ∧ Stays rest cs := by
  have hcount : ∀ ps : List Component, (Component.parent :: ps).count .parent = ps.count .parent + 1 := fun ps => by
    rw [List.count_cons_self]
  have hnames : ∀ ps : List Component,
      (Component.parent :: ps).countP Component.isName = ps.countP Component.isName := fun ps =>
    List.countP_cons_of_neg (by decide)
  simp only [cons_iff, hcount, hnames]
  constructor
  · intro h
    have hfirst := h [] (List.nil_prefix)
    simp only [List.count_nil, List.countP_nil] at hfirst
    refine ⟨depth - 1, by omega, fun ps hps => ?_⟩
    have hps := h ps hps
    omega
  · rintro ⟨rest, rfl, h⟩ ps hps
    have hps := h ps hps
    omega

theorem still_iff (hc : c.move? = none) : Stays depth (c :: cs) ↔ Stays depth cs := by
  rw [cons_iff]
  refine forall₂_congr fun ps _ => ?_
  cases c with
  | root | current => rw [List.count_cons_of_ne (by decide), List.countP_cons_of_neg (by decide)]
  | parent | name n => cases hc

theorem append (h : Stays depth cs) (h' : Stays 0 ds) : Stays depth (cs ++ ds) := by
  induction cs generalizing depth with
  | nil => exact h'.mono (Nat.zero_le _)
  | cons c cs ih =>
    cases c with
    | root | current =>
      rw [List.cons_append, still_iff rfl]
      exact ih ((still_iff rfl).mp h)
    | parent =>
      obtain ⟨rest, rfl, hrest⟩ := parent_iff.mp h
      exact parent_iff.mpr ⟨rest, rfl, ih hrest⟩
    | name n => exact name_iff.mpr (ih (name_iff.mp h))

theorem concat_name_iff {n : String} : Stays depth (cs ++ [.name n]) ↔ Stays depth cs :=
  ⟨fun h => h.of_prefix (List.prefix_append _ _), fun h => h.append (name_iff.mpr nil)⟩

theorem lead_append_iff : Stays depth (lead s ++ cs) ↔ Stays depth cs := by
  unfold lead
  split_ifs
  · exact still_iff rfl
  · exact still_iff rfl
  · rfl

end Stays

theorem inside_iff : p.Inside ↔ p.isAbsolute = false ∧ Stays 0 p.components := by
  have hstays : Stays 0 p.components ↔ ∀ cs, cs <+: p.components → cs.count .parent ≤ cs.countP Component.isName := by
    simp only [Stays, Nat.zero_add]
  rw [hstays]
  exact ⟨fun h => ⟨h.relative, h.stays⟩, fun h => ⟨h.1, h.2⟩⟩

theorem stays_components_iff : Stays 0 p.components ↔ Stays 0 (body p.chars) := by
  rw [components_eq, Stays.lead_append_iff]

theorem inside_of_plain {n : String} (h : (Component.name n).Plain) : (⟨n⟩ : Path).Inside := by
  refine inside_iff.mpr ⟨isAbsolute_of_plain h, ?_⟩
  rw [components_of_plain h]
  exact Stays.name_iff.mpr Stays.nil

/-- Inside a directory that is inside. -/
theorem Inside.join (hdir : dir.Inside) (hp : p.Inside) : (dir.join p).Inside := by
  by_cases hempty : dir.text = ""
  · have heq : dir = ⟨""⟩ := congrArg Path.mk hempty
    rwa [heq, empty_join]
  · refine inside_iff.mpr ⟨(isAbsolute_join hempty hp.relative).trans hdir.relative, ?_⟩
    rw [components_join hempty hp.relative]
    exact (inside_iff.mp hdir).2.append (stays_components_iff.mp (inside_iff.mp hp).2)

/-- Where a path leads that stays inside, it has not left the directory. -/
theorem Stays.foldl_walk {names : List String} (h : Stays names.length cs)
    (hplain : ∀ n, .name n ∈ cs → (Component.name n).Plain) (l : Location) :
    ∃ names', (cs.filterMap Component.move?).foldl Store.walk (l ++ names) = l ++ names' := by
  induction cs generalizing names with
  | nil => exact ⟨names, rfl⟩
  | cons c cs ih =>
    have hrest : ∀ n, .name n ∈ cs → (Component.name n).Plain := fun n hn => hplain n (List.mem_cons_of_mem c hn)
    cases c with
    | root | current => exact ih ((still_iff rfl).mp h) hrest
    | parent =>
      obtain ⟨depth, hdepth, h⟩ := parent_iff.mp h
      have hne : names ≠ [] := List.ne_nil_of_length_eq_add_one hdepth
      have hup : Store.walk (l ++ names) ".." = l ++ names.dropLast := List.dropLast_append_of_ne_nil hne
      have hmoves : (Component.parent :: cs).filterMap Component.move? = ".." :: cs.filterMap Component.move? := rfl
      rw [hmoves, List.foldl_cons, hup]
      refine ih ?_ hrest
      rwa [List.length_dropLast, hdepth]
    | name n =>
      obtain ⟨_, hdot, hup, _⟩ := hplain n List.mem_cons_self
      have hmoves : (Component.name n :: cs).filterMap Component.move? = n :: cs.filterMap Component.move? := rfl
      rw [hmoves, List.foldl_cons, Store.walk_name _ hdot hup, List.append_assoc]
      refine ih ?_ hrest
      rw [List.length_append]
      exact name_iff.mp h

/-- What lies inside a directory is found below it. -/
theorem Inside.prefix_destination (h : p.Inside) (s : Store) (dir : Path) :
    s.destination dir <+: s.destination (dir.join p) := by
  have hstays : Stays ([] : List String).length p.components := (inside_iff.mp h).2
  obtain ⟨names, hnames⟩ := hstays.foldl_walk (fun _ => plain_of_name_mem) (s.destination dir)
  rw [Store.destination_join s dir h.relative, ← Store.foldl_walk_filter, Store.filter_parts]
  rw [List.append_nil] at hnames
  exact ⟨names, hnames.symm⟩

section Normal
variable {names : List String}

/-- Components leave names on top of parent steps, and as many more of these as they go up beyond the names that were
there before. -/
theorem exists_foldl_normalStep (hnames : ∀ t ∈ names, (Component.name t).Plain)
    (hplain : ∀ t, .name t ∈ cs → (Component.name t).Plain) (n : Nat) :
    ∃ k names', cs.foldl normalStep (names ++ List.replicate n "..") = names' ++ List.replicate (n + k) ".." ∧
      (∀ t ∈ names', (Component.name t).Plain) ∧ ∀ depth, Stays (names.length + depth) cs ↔ k ≤ depth := by
  induction cs generalizing names n with
  | nil => exact ⟨0, names, rfl, hnames, fun depth => iff_of_true Stays.nil (Nat.zero_le depth)⟩
  | cons c cs ih =>
    have hrest : ∀ t, .name t ∈ cs → (Component.name t).Plain := fun t ht => hplain t (List.mem_cons_of_mem c ht)
    cases c with
    | root | current =>
      obtain ⟨k, names', hfold, hnames', hstays⟩ := ih hnames hrest n
      exact ⟨k, names', hfold, hnames', fun depth => (Stays.still_iff rfl).trans (hstays depth)⟩
    | name t =>
      have hmore : ∀ u ∈ t :: names, (Component.name u).Plain :=
        List.forall_mem_cons.mpr ⟨hplain t List.mem_cons_self, hnames⟩
      obtain ⟨k, names', hfold, hnames', hstays⟩ := ih hmore hrest n
      refine ⟨k, names', hfold, hnames', fun depth => ?_⟩
      rw [Stays.name_iff, ← hstays depth, List.length_cons, Nat.add_right_comm]
    | parent =>
      cases names with
      | nil =>
        -- there is no name to take back, so one more parent step stays
        have hstep : normalStep (List.replicate n "..") .parent = List.replicate (n + 1) ".." := by cases n <;> rfl
        obtain ⟨k, names', hfold, hnames', hstays⟩ := ih hnames hrest (n + 1)
        refine ⟨k + 1, names', ?_, hnames', fun depth => ?_⟩
        · have hcount : n + (k + 1) = n + 1 + k := by omega
          rw [List.foldl_cons, List.nil_append, hstep, hcount]
          exact hfold
        · simp only [List.length_nil, Nat.zero_add] at hstays ⊢
          rw [Stays.parent_iff]
          constructor
          · rintro ⟨rest, rfl, h⟩
            exact Nat.succ_le_succ ((hstays rest).mp h)
          · intro h
            exact ⟨depth - 1, by omega, (hstays (depth - 1)).mpr (by omega)⟩
      | cons last rest =>
        obtain ⟨hlast, hothers⟩ := List.forall_mem_cons.mp hnames
        have hstep : normalStep (last :: rest ++ List.replicate n "..") .parent = rest ++ List.replicate n ".." :=
          if_neg hlast.2.2.1
        obtain ⟨k, names', hfold, hnames', hstays⟩ := ih hothers hrest n
        refine ⟨k, names', ?_, hnames', fun depth => ?_⟩
        · rw [List.foldl_cons, hstep, hfold]
        · rw [← hstays depth, Stays.parent_iff, List.length_cons]
          constructor
          · rintro ⟨below, hbelow, h⟩
            have hdepth : rest.length + depth = below := by omega
            rwa [hdepth]
          · exact fun h => ⟨rest.length + depth, by omega, h⟩

/-- A lexical normal form is as many parent steps as the path goes up, and names after them. -/
theorem exists_normalParts (p : Path) : ∃ n names, p.normalParts = List.replicate n ".." ++ names ∧
    (∀ t ∈ names, (Component.name t).Plain) ∧ ∀ depth, Stays depth p.components ↔ n ≤ depth := by
  have hnone : ∀ t ∈ ([] : List String), (Component.name t).Plain := nofun
  obtain ⟨n, names, hfold, hnames, hstays⟩ := exists_foldl_normalStep hnone (fun t => plain_of_name_mem) 0
  have hstack : p.components.foldl normalStep [] = names ++ List.replicate n ".." := by simpa using hfold
  refine ⟨n, names.reverse, ?_, fun t ht => hnames t (List.mem_reverse.mp ht), fun depth => ?_⟩
  · rw [normalParts, hstack, List.reverse_append, List.reverse_replicate]
  · simpa using hstays depth

end Normal

/-- The lexical check refuses exactly the paths that do not stay inside. -/
theorem escapesRoot_eq_false_iff : p.escapesRoot = false ↔ p.Inside := by
  obtain ⟨n, names, hparts, hnames, hstays⟩ := exists_normalParts p
  have hhead : p.normalParts.head? ≠ some ".." ↔ Stays 0 p.components := by
    rw [hstays, hparts]
    cases n with
    | zero =>
      refine iff_of_true ?_ (Nat.le_refl 0)
      intro hup
      exact (hnames ".." (List.mem_of_head? hup)).2.2.1 rfl
    | succ n => exact iff_of_false (fun h => h rfl) (Nat.not_succ_le_zero n)
  rw [escapesRoot, Bool.or_eq_false_iff, beq_eq_false_iff_ne, hhead, inside_iff]

/-- What stands at the end of the last name leads a path neither out nor in. -/
theorem inside_append_congr (t : String) {ending ending' : String} (hlong : 2 < ending.toList.length)
    (hlong' : 2 < ending'.toList.length) (hslash : '/' ∉ ending.toList) (hslash' : '/' ∉ ending'.toList) :
    (⟨t ++ ending⟩ : Path).Inside ↔ (⟨t ++ ending'⟩ : Path).Inside := by
  obtain ⟨front, last, hbody⟩ := exists_body_append t.toList
  have hstays : ∀ e : String, 2 < e.toList.length → '/' ∉ e.toList →
      ((⟨t ++ e⟩ : Path).Inside ↔ (⟨t⟩ : Path).isAbsolute = false ∧ Stays 0 front) := by
    intro e hlong hslash
    have hchars : (⟨t ++ e⟩ : Path).chars = t.toList ++ e.toList := String.toList_append
    rw [inside_iff, stays_components_iff, isAbsolute_append hslash, hchars, hbody e.toList hlong hslash, Stays.concat_name_iff]
  rw [hstays ending hlong hslash, hstays ending' hlong' hslash']

end Path

end SchemaTables
