import Mathlib.Data.List.Induction
import Mathlib.Data.List.Infix
import SchemaTables.Proofs.Files.Store
import SchemaTables.Proofs.Path.Components

/-!
The way of a path through a store: the locations that it passes when it is followed part by part, whatever
is there. The parent of a path passes no others. In a sound store, where all that there is lies in a
directory, a path passes only locations above its destination and those that it leaves again through
`..`; it is grounded when the latter are directories.
-/

namespace SchemaTables

set_option autoImplicit false

namespace Store

theorem filter_parts_pieces (pieces : List (List Char)) :
    ((pieces.filter (!·.isEmpty)).map String.ofList).filter (· ≠ ".") =
      (pieces.filterMap Component.ofPiece?).filterMap Component.move? := by
  induction pieces with
  | nil => rfl
  | cons piece pieces ih =>
    have hdot : String.ofList piece = "." ↔ piece = ['.'] := by
      rw [← String.toList_inj, String.toList_ofList]
      rfl
    by_cases hnil : piece = []
    · subst hnil
      exact ih
    · rw [List.filter_cons_of_pos (by simpa using hnil), List.map_cons, List.filterMap_cons]
      by_cases hcurrent : piece = ['.']
      · rw [List.filter_cons_of_neg (by simpa using hdot.mpr hcurrent), ih, Component.ofPiece?,
          if_pos (Or.inr hcurrent)]
      · have hpiece : (Component.ofPiece? piece).bind Component.move? = some (String.ofList piece) := by
          rw [Component.ofPiece?, if_neg (not_or.mpr ⟨hnil, hcurrent⟩)]
          split
          · rename_i hup
            rw [hup]
            rfl
          · rfl
        obtain ⟨c, hc, hmove⟩ := Option.bind_eq_some_iff.mp hpiece
        rw [List.filter_cons_of_pos (by simpa [hdot] using hcurrent), ih, hc, List.filterMap_cons, hmove]

/-- A path is followed as its components say, apart from parts that stay where they are. -/
theorem filter_parts (p : Path) : (parts p).filter (· ≠ ".") = p.components.filterMap Component.move? := by
  unfold parts
  rw [filter_parts_pieces]
  unfold Path.components
  split
  · rename_i hnil
    exact absurd hnil (Text.splitAt_ne_nil _ _)
  · rename_i first rest hsplit
    rw [hsplit]
    simp only
    split
    · rename_i habs
      obtain ⟨_, hfirst⟩ := Path.splitAt_of_isAbsolute habs
      rw [hsplit] at hfirst
      rw [(List.cons.inj hfirst).1]
      rfl
    · split
      · rename_i hdot
        rw [hdot]
        rfl
      · cases hfirst : Component.ofPiece? first with
        | none => rw [List.filterMap_cons, hfirst]; rfl
        | some c => rw [List.filterMap_cons, hfirst]; rfl

variable {s s' : Store} {p q : Path} {l l' : Location} {i : Item} {ps qs : List String} {part : String}

theorem foldl_walk_filter : (ps.filter (· ≠ ".")).foldl walk l = ps.foldl walk l := by
  induction ps generalizing l with
  | nil => rfl
  | cons part ps ih =>
    by_cases hdot : part = "."
    · rw [List.filter_cons_of_neg (by simpa using hdot), List.foldl_cons, ih, walk, if_pos hdot]
    · rw [List.filter_cons_of_pos (by simpa using hdot), List.foldl_cons, List.foldl_cons, ih]

/-- A path leads where the moves of its components lead. -/
theorem destination_eq_moves (s : Store) (p : Path) :
    s.destination p = (p.components.filterMap Component.move?).foldl walk (s.start p) := by
  rw [← filter_parts, foldl_walk_filter, destination]

/-- The path passes the location when it is followed, whether anything is there or not. -/
def Passes (s : Store) (p : Path) (l : Location) : Prop := ∃ ps, ps <+: parts p ∧ ps.foldl walk (s.start p) = l

instance (s : Store) (p : Path) (l : Location) : Decidable (s.Passes p l) :=
  decidable_of_iff (∃ ps ∈ (parts p).inits, ps.foldl walk (s.start p) = l) (by
    simp only [List.mem_inits]
    rfl)

theorem passes_destination (s : Store) (p : Path) : s.Passes p (s.destination p) :=
  ⟨parts p, List.prefix_refl _, rfl⟩

/-- A path passes what the moves of its components lead to. -/
theorem passes_iff : s.Passes p l ↔
    ∃ ps, ps <+: p.components.filterMap Component.move? ∧ ps.foldl walk (s.start p) = l := by
  rw [← filter_parts]
  constructor
  · rintro ⟨ps, hps, hl⟩
    exact ⟨ps.filter (· ≠ "."), hps.filter _, by rw [foldl_walk_filter, hl]⟩
  · rintro ⟨ps, hps, hl⟩
    obtain ⟨qs, hqs, rfl⟩ := List.prefix_filter_iff.mp hps
    exact ⟨qs, hqs, by rw [← hl, foldl_walk_filter]⟩

theorem start_parent? (h : p.parent? = some q) : s.start q = s.start p := by
  rw [start, start, Path.isAbsolute_parent? h]

theorem passes_of_parent? (h : p.parent? = some q) (hl : s.Passes q l) : s.Passes p l := by
  obtain ⟨ps, hps, hl⟩ := passes_iff.mp hl
  rw [Path.components_parent? h] at hps
  refine passes_iff.mpr ⟨ps, hps.trans ?_, start_parent? h ▸ hl⟩
  exact (List.dropLast_prefix _).filterMap _

/-- A way that ends elsewhere than below its start has left the start through `..`. -/
theorem prefix_foldl_walk_or : (ps : List String) → (l : Location) →
    l <+: ps.foldl walk l ∨ ∃ qs, qs ++ [".."] <+: ps ∧ qs.foldl walk l = l
  | [], l => Or.inl (List.prefix_refl l)
  | part :: ps, l => by
    by_cases hup : part = ".."
    · exact Or.inr ⟨[], by simp [hup], rfl⟩
    · by_cases hdot : part = "."
      · have hwalk : walk l part = l := by rw [walk, if_pos hdot]
        rcases prefix_foldl_walk_or ps l with h | ⟨qs, hqs, hl⟩
        · exact Or.inl (by rwa [List.foldl_cons, hwalk])
        · exact Or.inr ⟨part :: qs, by simpa using hqs, by rw [List.foldl_cons, hwalk, hl]⟩
      · have hwalk : walk l part = l ++ [part] := by rw [walk, if_neg hdot, if_neg hup]
        rcases prefix_foldl_walk_or ps (l ++ [part]) with h | ⟨qs, ⟨rest, hrest⟩, hl⟩
        · left
          rw [List.foldl_cons, hwalk]
          exact (List.prefix_append l [part]).trans h
        · -- the way is back at its start and goes on from there
          have hlt : rest.length < (part :: ps).length := by
            simp [← hrest]
            omega
          have hback : ∀ ts, (part :: (qs ++ [".."] ++ ts)).foldl walk l = ts.foldl walk l := by
            intro ts
            rw [List.foldl_cons, hwalk, List.foldl_append, List.foldl_append, hl]
            simp [walk]
          rcases prefix_foldl_walk_or rest l with h | ⟨qs', hqs', hl'⟩
          · exact Or.inl (by rwa [← hrest, hback])
          · refine Or.inr ⟨part :: (qs ++ [".."] ++ qs'), ?_, by rw [hback, hl']⟩
            rw [← hrest, List.cons_append, List.append_assoc, List.prefix_cons_inj]
            exact (List.prefix_append_right_inj _).mpr hqs'
termination_by ps => ps.length

/-- Every directory that the path leaves through `..` is there. -/
def Grounded (s : Store) (p : Path) : Prop :=
  ∀ qs, qs ++ [".."] <+: parts p → s.item? (qs.foldl walk (s.start p)) = some .directory

instance (s : Store) (p : Path) : Decidable (s.Grounded p) :=
  decidable_of_iff (∀ qs ∈ (parts p).inits, qs ++ [".."] ∈ (parts p).inits →
      s.item? (qs.foldl walk (s.start p)) = some .directory) (by
    simp only [List.mem_inits]
    exact ⟨fun h qs hqs => h qs ((List.prefix_append qs [".."]).trans hqs) hqs, fun h qs _ hqs => h qs hqs⟩)

/-- Between two points of its way a grounded path goes down, or comes back to a directory. -/
theorem Grounded.prefix_or (hp : s.Grounded p) (hps : ps <+: parts p) (hqs : qs <+: ps) :
    qs.foldl walk (s.start p) <+: ps.foldl walk (s.start p) ∨
      s.item? (qs.foldl walk (s.start p)) = some .directory := by
  obtain ⟨rest, rfl⟩ := hqs
  rw [List.foldl_append]
  apply (prefix_foldl_walk_or rest (qs.foldl walk (s.start p))).imp_right
  rintro ⟨ts, hts, hback⟩
  have hleft := hp (qs ++ ts) (by
    rw [List.append_assoc]
    exact ((List.prefix_append_right_inj qs).mpr hts).trans hps)
  rwa [List.foldl_append, hback] at hleft

theorem Grounded.passes (h : s.Grounded p) (hl : s.Passes p l) :
    l <+: s.destination p ∨ s.item? l = some .directory := by
  obtain ⟨ps, hps, rfl⟩ := hl
  exact h.prefix_or (List.prefix_refl _) hps

/-- What following a path takes: a directory at each step, and something with the name that comes next. -/
theorem foldlM_follow_eq_ok_iff : ps.foldlM s.follow l = .ok l' ↔ l' = ps.foldl walk l ∧
    ∀ qs part, qs ++ [part] <+: ps → s.item? (qs.foldl walk l) = some .directory ∧
      (part ≠ "." → part ≠ ".." → part.utf8ByteSize ≤ maxName ∧
        (s.item? (qs.foldl walk l ++ [part])).isSome) := by
  induction ps generalizing l with
  | nil =>
    rw [List.foldlM_nil]
    constructor
    · intro h
      cases h
      exact ⟨rfl, by simp⟩
    · rintro ⟨rfl, _⟩
      rfl
  | cons part ps ih =>
    rw [List.foldlM_cons, Except.bind_eq_ok_iff]
    constructor
    · rintro ⟨m, hm, h⟩
      obtain ⟨hdir, rfl, hplain⟩ := follow_eq_ok_iff.mp hm
      obtain ⟨hl', hrest⟩ := ih.mp h
      refine ⟨hl', ?_⟩
      intro qs next hbegins
      cases qs with
      | nil =>
        obtain ⟨rfl, _⟩ := List.cons_prefix_cons.mp hbegins
        exact ⟨hdir, hplain⟩
      | cons first qs =>
        obtain ⟨rfl, htail⟩ := List.cons_prefix_cons.mp hbegins
        exact hrest qs next htail
    · rintro ⟨hl', hall⟩
      obtain ⟨hdir, hplain⟩ := hall [] part (by simp)
      refine ⟨walk l part, follow_eq_ok_iff.mpr ⟨hdir, rfl, hplain⟩, ih.mpr ⟨hl', ?_⟩⟩
      intro qs next hbegins
      exact hall (part :: qs) next (by simpa using hbegins)

/-- All that there is lies in a directory, and so do the paths that are not absolute. -/
structure Sound (s : Store) : Prop where
  here : s.item? s.here = some .directory
  parent : ∀ {l name}, (s.item? (l ++ [name])).isSome → s.item? l = some .directory

theorem isSome_item?_iff (hne : l ≠ []) : (s.item? l).isSome ↔ ∃ i, (l, i) ∈ s.items := by
  rw [item?, if_neg hne]
  induction s.items with
  | nil => simp
  | cons e items ih =>
    obtain ⟨m, i⟩ := e
    rw [List.lookup_cons]
    by_cases heq : l = m
    · subst heq
      simp
    · rw [beq_false_of_ne heq]
      simp only [ih, List.mem_cons, Prod.mk.injEq, heq, false_and, false_or]

theorem sound_iff : s.Sound ↔ s.item? s.here = some .directory ∧
    ∀ e ∈ s.items, e.1 ≠ [] → s.item? e.1.dropLast = some .directory := by
  constructor
  · intro h
    refine ⟨h.here, ?_⟩
    rintro ⟨l, i⟩ hmem hne
    have hthere := (isSome_item?_iff hne).mpr ⟨i, hmem⟩
    obtain ⟨m, name, rfl⟩ := (List.eq_nil_or_concat' l).resolve_left hne
    rw [List.dropLast_concat]
    exact h.parent hthere
  · rintro ⟨hhere, hitems⟩
    refine ⟨hhere, ?_⟩
    intro l name hthere
    obtain ⟨i, hmem⟩ := (isSome_item?_iff (by simp)).mp hthere
    have hdir := hitems (l ++ [name], i) hmem (by simp)
    rwa [List.dropLast_concat] at hdir

instance (s : Store) : Decidable s.Sound := decidable_of_iff _ sound_iff.symm

namespace Sound

theorem above (h : s.Sound) (hl : (s.item? l).isSome) (hbegins : l' <+: l) (hne : l' ≠ l) :
    s.item? l' = some .directory := by
  obtain ⟨rest, rfl⟩ := hbegins
  induction rest using List.reverseRecOn with
  | nil => simp at hne
  | append_singleton rest name ih =>
    rw [← List.append_assoc] at hl
    have hparent := h.parent hl
    by_cases hnil : rest = []
    · rwa [hnil, List.append_nil] at hparent
    · exact ih (by simp [hparent]) (by simpa using hnil)

/-- A grounded path with something at its end passes nothing but directories before. -/
theorem directory_of_passes (h : s.Sound) (hp : s.Grounded p) (hend : (s.item? (s.destination p)).isSome)
    (hl : s.Passes p l) (hne : l ≠ s.destination p) : s.item? l = some .directory := by
  rcases hp.passes hl with hbegins | hdir
  · exact h.above hend hbegins hne
  · exact hdir

end Sound

end Store
end SchemaTables
