import SchemaTables.Proofs.Files.Agreement

/-!
The ways of grounded paths. A path that is written from components is followed component by component, and
its parent comes as far as it does but for its last part. A grounded way to a directory can be followed,
so what lies in a directory has a place there.
-/

namespace SchemaTables

set_option autoImplicit false

namespace Component

/-- The part of a path that is written for the component; the root takes none. -/
def part? : Component → Option String
  | root => none
  | current => some "."
  | parent => some ".."
  | name n => some n

theorem part?_eq_text {c : Component} (h : c ≠ root) : c.part? = some c.text := by
  cases c with
  | root => exact absurd rfl h
  | current | parent | name n => rfl

theorem Plain.ne_root {c : Component} (h : c.Plain) : c ≠ root := by
  rintro rfl
  exact h

end Component

namespace Store

variable {s s' m : Store} {p q : Path} {l : Location} {ps qs init : List String} {last : String}
  {cs : List Component} {c : Component} {content : Bytes}

theorem parts_texts (h : ∀ c ∈ cs, c.Plain ∨ c = .current) :
    (((cs.map Component.text).map String.toList).filter (!·.isEmpty)).map String.ofList =
      cs.filterMap Component.part? := by
  induction cs with
  | nil => rfl
  | cons c cs ih =>
    rw [List.forall_mem_cons] at h
    have hne : c.text.toList ≠ [] ∧ c ≠ .root := by
      rcases h.1 with hplain | rfl
      · exact ⟨fun hnil => Component.text_ne_empty hplain (String.toList_eq_nil_iff.mp hnil), hplain.ne_root⟩
      · exact ⟨by decide, by decide⟩
    rw [List.map_cons, List.map_cons, List.filter_cons_of_pos (by simpa using hne.1), List.map_cons, ih h.2,
      List.filterMap_cons, Component.part?_eq_text hne.2, String.ofList_toList]

/-- What is written from components is followed component by component. -/
theorem parts_ofComponents (h : Path.Proper cs) : parts (Path.ofComponents cs) = cs.filterMap Component.part? := by
  cases cs with
  | nil => rfl
  | cons first rest =>
    by_cases hroot : first = .root
    · subst hroot
      rw [parts, Path.splitAt_ofComponents_root]
      cases rest with
      | nil => rfl
      | cons c rest =>
        rw [Path.splitAt_ofPlain (List.cons_ne_nil c rest) fun d hd => Or.inl (h.2 d hd)]
        exact parts_texts fun d hd => Or.inl (h.2 d hd)
    · have hhead : (first :: rest).head? ≠ some .root := fun heq => hroot (Option.some.inj heq)
      have hall := h.plain_or_current hroot
      rw [Path.ofComponents_eq hhead, parts, Path.chars, Path.splitAt_ofPlain (List.cons_ne_nil first rest) hall]
      exact parts_texts hall

theorem exists_prefix_of_filter {P : String → Bool} (h : qs ++ [last] <+: ps.filter P) :
    ∃ ts, ts ++ [last] <+: ps ∧ ts.filter P = qs := by
  obtain ⟨rest, hrest⟩ := h
  rw [List.append_assoc, List.singleton_append] at hrest
  obtain ⟨front, back, rfl, hfront, hback⟩ := List.filter_eq_append_iff.mp hrest.symm
  obtain ⟨skipped, tail, rfl, hskipped, _, _⟩ := List.filter_eq_cons_iff.mp hback
  refine ⟨front ++ skipped, ⟨tail, by simp⟩, ?_⟩
  rw [List.filter_append, hfront, List.filter_eq_nil_iff.mpr hskipped, List.append_nil]

/-- Parts that stay where they are are left through no `..`. -/
theorem grounded_iff : s.Grounded p ↔ ∀ qs, qs ++ [".."] <+: (parts p).filter (· ≠ ".") →
    s.item? (qs.foldl walk (s.start p)) = some .directory := by
  constructor
  · intro h qs hqs
    obtain ⟨ts, hts, rfl⟩ := exists_prefix_of_filter hqs
    rw [foldl_walk_filter]
    exact h ts hts
  · intro h qs hqs
    rw [← foldl_walk_filter]
    exact h _ (by simpa using hqs.filter (· ≠ "."))

theorem Grounded.parent (hp : s.Grounded p) (hq : p.parent? = some q) : s.Grounded q := by
  rw [grounded_iff] at hp ⊢
  intro qs hqs
  rw [start_parent? hq]
  apply hp
  rw [filter_parts, Path.components_parent? hq] at hqs
  rw [filter_parts]
  exact hqs.trans ((List.dropLast_prefix _).filterMap _)

theorem Short.parent (hshort : Short p) (hq : p.parent? = some q) : Short q := by
  intro part hpart
  by_cases hdot : part = "."
  · rw [hdot]
    decide
  · have hmem : part ∈ (parts q).filter (· ≠ ".") := List.mem_filter.mpr ⟨hpart, by simpa using hdot⟩
    apply hshort
    rw [filter_parts, Path.components_parent? hq] at hmem
    have hwhole := ((List.dropLast_prefix p.components).filterMap Component.move?).subset hmem
    rw [← filter_parts] at hwhole
    exact (List.mem_filter.mp hwhole).1

/-- A grounded way to a directory can be followed. -/
theorem Sound.follow_of_directory (h : s.Sound) (hp : s.Grounded p) (hshort : Short p) (hps : ps <+: parts p)
    (hdir : s.item? (ps.foldl walk (s.start p)) = some .directory) :
    ps.foldlM s.follow (s.start p) = .ok (ps.foldl walk (s.start p)) := by
  have hall : ∀ ts, ts <+: ps → s.item? (ts.foldl walk (s.start p)) = some .directory := by
    intro ts hts
    rcases hp.prefix_or hps hts with habove | hback
    · by_cases heq : ts.foldl walk (s.start p) = ps.foldl walk (s.start p)
      · rw [heq, hdir]
      · exact h.above (by rw [hdir]; rfl) habove heq
    · exact hback
  apply foldlM_follow_eq_ok_iff.mpr
  refine ⟨rfl, ?_⟩
  intro ts part hts
  refine ⟨hall ts ((List.prefix_append ts [part]).trans hts), ?_⟩
  intro hdot hup
  have hthere := hall (ts ++ [part]) hts
  rw [foldl_walk_concat _ hdot hup] at hthere
  refine ⟨hshort part (hps.mem (hts.mem (by simp))), ?_⟩
  rw [hthere]
  rfl

theorem Sound.locate_directory (h : s.Sound) (hp : s.Grounded p) (hshort : Short p) (hcheck : checkPath p = .ok ())
    (hdir : s.item? (s.destination p) = some .directory) : s.locate p = .ok (s.destination p, .directory) := by
  have hway := h.follow_of_directory hp hshort (List.prefix_refl _) hdir
  exact locate_eq_ok_iff.mpr ⟨hcheck, hway, hdir, fun hfile => absurd rfl hfile⟩

theorem parent?_of_components (h : p.components = cs ++ [c]) (hroot : c ≠ .root) :
    p.parent? = some (Path.ofComponents cs) := by
  rw [Path.parent?, h, List.reverse_append, List.reverse_singleton, List.singleton_append]
  cases c with
  | root => exact absurd rfl hroot
  | current | parent | name n => simp

/-- A path to nothing, written from components, ends with a name. -/
theorem exists_name_of_missing (h : s.Sound) (hcs : Path.Proper (cs ++ [c]))
    (hp : s.Grounded (Path.ofComponents (cs ++ [c])))
    (hmissing : s.item? (s.destination (Path.ofComponents (cs ++ [c]))) = none) :
    ∃ n, c = .name n ∧ n ≠ "." ∧ n ≠ ".." := by
  have hparts := parts_ofComponents hcs
  rw [List.filterMap_append] at hparts
  have hstart := h.start (Path.ofComponents (cs ++ [c]))
  have hfirst : c.Plain ∨ cs = [] := by
    cases cs with
    | nil => exact Or.inr rfl
    | cons first cs => exact Or.inl (hcs.2 c (by simp))
  cases c with
  | root | current =>
    rcases hfirst with hplain | rfl
    · exact hplain.elim
    · rw [destination, hparts] at hmissing
      exact absurd (hmissing.symm.trans hstart) (by simp)
  | parent =>
    have hdir := hp (cs.filterMap Component.part?) (by rw [hparts]; exact List.prefix_refl _)
    have hup : s.destination (Path.ofComponents (cs ++ [.parent])) =
        ((cs.filterMap Component.part?).foldl walk (s.start (Path.ofComponents (cs ++ [.parent])))).dropLast := by
      rw [destination, hparts, List.foldl_append]
      rfl
    rw [hup, h.dropLast hdir] at hmissing
    cases hmissing
  | name n =>
    have hplain : (Component.name n).Plain := by
      rcases hfirst with hplain | rfl
      · exact hplain
      · rcases hcs.1 with hroot | hcurrent | hplain
        · cases hroot
        · cases hcurrent
        · exact hplain
    exact ⟨n, rfl, hplain.2.1, hplain.2.2.1⟩

section Names
variable (hparts : parts p = init ++ [last]) (hdot : last ≠ ".") (hup : last ≠ "..")
include hparts hdot hup

theorem destination_concat : s.destination p = init.foldl walk (s.start p) ++ [last] := by
  rw [destination, hparts, foldl_walk_concat _ hdot hup]

theorem itemAt_eq (hshort : Short p) : s.itemAt ⟨init.foldl walk (s.start p), some last, asksDirectory p⟩ =
    .ok (s.item? (s.destination p)) := by
  have hlast : last.utf8ByteSize ≤ maxName := hshort last (by simp [hparts])
  rw [itemAt, if_neg (by simpa using hlast), destination_concat hparts hdot hup]
  rfl

/-- A name in a directory has a place there. -/
theorem Sound.place_eq (h : s.Sound) (hp : s.Grounded p) (hshort : Short p) (hcheck : checkPath p = .ok ())
    (hdir : s.item? (init.foldl walk (s.start p)) = some .directory) :
    s.place p = .ok ⟨init.foldl walk (s.start p), some last, asksDirectory p⟩ := by
  have hinit : init <+: parts p := ⟨[last], hparts.symm⟩
  rw [place_concat hcheck hparts]
  refine Except.bind_eq_ok_iff.mpr ⟨_, h.follow_of_directory hp hshort hinit hdir, ?_⟩
  rw [hdir]
  simp [hdot, hup]

end Names

/-- The parent of a path that ends with a name leads to where the path comes from. -/
theorem exists_parent? (h : parts p = init ++ [last]) (hlast : last ≠ ".") :
    ∃ q, p.parent? = some q ∧ (parts q).filter (· ≠ ".") = init.filter (· ≠ ".") := by
  have hmoves : init.filter (· ≠ ".") ++ [last] = p.components.filterMap Component.move? := by
    rw [← filter_parts, h, List.filter_append, List.filter_cons_of_pos (by simpa using hlast)]
    rfl
  obtain hnil | ⟨before, c, hcomponents⟩ := List.eq_nil_or_concat' p.components
  · rw [hnil] at hmoves
    simp at hmoves
  · have hproper := Path.proper_components p
    rw [hcomponents] at hmoves hproper
    have hmove : before.filterMap Component.move? ++ [c].filterMap Component.move? =
        init.filter (· ≠ ".") ++ [last] := by rw [hmoves, List.filterMap_append]
    have hc : [c].filterMap Component.move? ≠ [] := by
      intro hnone
      cases before with
      | nil =>
        rw [hnone] at hmove
        simp at hmove
      | cons first before =>
        have hplain : c.Plain := hproper.2 c (by simp)
        cases c with
        | root | current => exact hplain
        | parent | name n => cases hnone
    have hroot : c ≠ .root := by
      rintro rfl
      exact hc rfl
    refine ⟨_, parent?_of_components hcomponents hroot, ?_⟩
    have hbefore : Path.Proper before := by
      have hdrop := hproper.dropLast
      rwa [List.dropLast_concat] at hdrop
    rw [filter_parts, Path.components_ofComponents hbefore]
    obtain ⟨move, hmove'⟩ := List.exists_cons_of_ne_nil hc
    cases hc' : c.move? with
    | none => simp [hc'] at hc
    | some move =>
      simp only [List.filterMap_cons, hc', List.filterMap_nil] at hmove
      exact (List.append_inj' hmove rfl).1

end Store

end SchemaTables
