import SchemaTables.Proofs.Except
import SchemaTables.Proofs.Files.Directory
import SchemaTables.Proofs.Path.Comparison
import SchemaTables.Proofs.Path.Components

/-!
Components of paths that are joined, or written one character after the other. A relative path adds to the path that
it is joined to, and what is written at the end lengthens the last name. So a file keeps its name in every directory,
and paths with different endings are different.
-/

namespace SchemaTables

set_option autoImplicit false

open scoped List

namespace Text

/-- A text without the separator lengthens the last piece. -/
theorem exists_splitAt_append (c : Char) (s : List Char) :
    ∃ init last, ∀ ending, c ∉ ending → splitAt c (s ++ ending) = init ++ [last ++ ending] := by
  induction s with
  | nil => exact ⟨[], [], fun ending h => splitAt_of_notMem h⟩
  | cons d s ih =>
    obtain ⟨init, last, hends⟩ := ih
    by_cases hd : d = c
    · refine ⟨[] :: init, last, fun ending h => ?_⟩
      rw [List.cons_append, splitAt, if_pos hd, hends ending h]
      rfl
    · cases init with
      | nil =>
        refine ⟨[], d :: last, fun ending h => ?_⟩
        rw [List.cons_append, splitAt, if_neg hd, hends ending h]
        rfl
      | cons first init =>
        refine ⟨(d :: first) :: init, last, fun ending h => ?_⟩
        rw [List.cons_append, splitAt, if_neg hd, hends ending h]
        rfl

/-- Neither text is the end of the other. -/
def EndsApart (e e' : String) : Prop := ¬ e.toList <:+ e'.toList ∧ ¬ e'.toList <:+ e.toList

instance (e e' : String) : Decidable (EndsApart e e') := inferInstanceAs (Decidable (_ ∧ _))

theorem append_ne_append {e e' : String} (h : EndsApart e e') (t u : String) : t ++ e ≠ u ++ e' := by
  intro heq
  have hchars := congrArg String.toList heq
  rw [String.toList_append, String.toList_append] at hchars
  have hends : e.toList <:+ u.toList ++ e'.toList := ⟨t.toList, hchars⟩
  exact (List.suffix_or_suffix_of_suffix hends (List.suffix_append _ _)).elim h.1 h.2

end Text

instance (c : Component) : Decidable c.Plain :=
  match c with
  | .root | .current => .isFalse id
  | .parent => .isTrue trivial
  | .name n => inferInstanceAs (Decidable (n ≠ "" ∧ n ≠ "." ∧ n ≠ ".." ∧ '/' ∉ n.toList))

theorem Component.plain_append {n ending : String} (h : '/' ∉ n.toList) (hlong : 2 < ending.toList.length)
    (hslash : '/' ∉ ending.toList) : (Component.name (n ++ ending)).Plain := by
  have hlength : 2 < (n ++ ending).toList.length := by
    rw [String.toList_append, List.length_append]
    omega
  refine ⟨?_, ?_, ?_, ?_⟩
  · rintro heq
    simp [heq] at hlength
  · rintro heq
    simp [heq] at hlength
  · rintro heq
    simp [heq] at hlength
  · rw [String.toList_append, List.mem_append, not_or]
    exact ⟨h, hslash⟩

namespace Path

variable {p q dir : Path} {cs : List Component} {s t : List Char} {n : String}

/-- What the start of a text says about the path: it starts at the root or at `.`, or nothing. -/
def lead (s : List Char) : List Component :=
  if s.head? = some '/' then [.root] else if (Text.splitAt '/' s).head? = some ['.'] then [.current] else []

/-- The names and parent steps in a text. -/
def body (s : List Char) : List Component := (Text.splitAt '/' s).filterMap Component.ofPiece?

theorem components_eq (p : Path) : p.components = lead p.chars ++ body p.chars := by
  unfold components lead body
  split
  · rename_i hnil
    exact absurd hnil (Text.splitAt_ne_nil _ _)
  · rename_i first rest hsplit
    rw [hsplit]
    by_cases habs : p.isAbsolute = true
    · obtain ⟨s, hs⟩ := splitAt_of_isAbsolute habs
      rw [hsplit] at hs
      have hhead : p.chars.head? = some '/' := by simpa [isAbsolute] using habs
      rw [(List.cons.inj hs).1]
      simp [habs, hhead, Component.ofPiece?]
    · have hhead : ¬ p.chars.head? = some '/' := by simpa [isAbsolute] using habs
      by_cases hdot : first = ['.']
      · subst hdot
        simp [habs, hhead, Component.ofPiece?]
      · have hfirst : (Component.ofPiece? first).toList ++ rest.filterMap Component.ofPiece? =
            (first :: rest).filterMap Component.ofPiece? := by
          cases hc : Component.ofPiece? first with
          | none => rw [List.filterMap_cons, hc]; rfl
          | some c => rw [List.filterMap_cons, hc]; rfl
        simp [habs, hhead, hdot, hfirst]

theorem components_eq_nil_iff : p.components = [] ↔ p.text = "" := by
  constructor
  · intro h
    rw [components_eq, List.append_eq_nil_iff] at h
    obtain ⟨hlead, hbody⟩ := h
    rw [← String.toList_eq_nil_iff]
    by_contra hne
    obtain ⟨c, rest, hchars⟩ := List.exists_cons_of_ne_nil hne
    have hslash : c ≠ '/' := by
      rintro rfl
      simp [lead, chars, hchars] at hlead
    have hsplit : Text.splitAt '/' p.chars = (c :: Text.before '/' rest) :: (Text.splitAt '/' p.chars).tail := by
      rw [← Text.before_cons_of_ne hslash, ← hchars]
      exact Text.splitAt_eq_before_cons '/' p.chars
    have hfirst : c :: Text.before '/' rest ∈ Text.splitAt '/' p.chars := hsplit ▸ List.mem_cons_self
    rcases Component.ofPiece?_eq_none_iff.mp (List.filterMap_eq_nil_iff.mp hbody _ hfirst) with hnil | hdot
    · cases hnil
    · rw [lead, hsplit, hdot] at hlead
      split at hlead <;> cases hlead
  · intro h
    rw [components_eq, chars, h]
    rfl

/-- What holds of a text as it holds on both sides of a slash, holds of a path as of its components. -/
theorem holds_chars_iff {P : List Char → Prop} (hnil : P []) (hdot : P ['.'])
    (hslash : ∀ a b, P (a ++ '/' :: b) ↔ P a ∧ P b) (p : Path) : P p.chars ↔ ∀ c ∈ p.components, P c.text.toList := by
  have hlead : ∀ c ∈ lead p.chars, P c.text.toList := by
    intro c hc
    unfold lead at hc
    split at hc
    · rw [List.mem_singleton.mp hc]
      exact (hslash [] []).mpr ⟨hnil, hnil⟩
    · split at hc
      · rw [List.mem_singleton.mp hc]
        exact hdot
      · cases hc
  have hpiece : ∀ piece, P piece ↔ ∀ c, Component.ofPiece? piece = some c → P c.text.toList := by
    intro piece
    cases hc : Component.ofPiece? piece with
    | none =>
      rcases Component.ofPiece?_eq_none_iff.mp hc with rfl | rfl
      · exact iff_of_true hnil nofun
      · exact iff_of_true hdot nofun
    | some c => simp [Component.text_of_ofPiece? hc]
  rw [components_eq, List.forall_mem_append, and_iff_right hlead, Text.holds_iff_forall_splitAt hslash, body]
  constructor
  · intro h c hc
    obtain ⟨piece, hmem, hofPiece⟩ := List.mem_filterMap.mp hc
    exact (hpiece piece).mp (h piece hmem) c hofPiece
  · intro h piece hmem
    exact (hpiece piece).mpr fun c hc => h c (List.mem_filterMap.mpr ⟨piece, hmem, hc⟩)

theorem body_append_slash (s t : List Char) : body (s ++ '/' :: t) = body s ++ body t := by
  rw [body, Text.splitAt_append_cons, List.filterMap_append, body, body]

theorem lead_append_slash (hs : s ≠ []) (t : List Char) : lead (s ++ '/' :: t) = lead s := by
  obtain ⟨c, rest, rfl⟩ := List.exists_cons_of_ne_nil hs
  obtain ⟨first, pieces, hsplit⟩ := List.exists_cons_of_ne_nil (Text.splitAt_ne_nil '/' (c :: rest))
  rw [lead, Text.splitAt_append_cons, hsplit, lead, hsplit]
  rfl

/-- A relative path joined to another adds its names and parent steps. -/
theorem components_join (hdir : dir.text ≠ "") (hp : p.isAbsolute = false) :
    (dir.join p).components = dir.components ++ body p.chars := by
  have hne : dir.chars ≠ [] := by
    intro hnil
    exact hdir (String.toList_eq_nil_iff.mp hnil)
  rw [components_eq, components_eq dir]
  rcases chars_join dir hp with ⟨hchars, hnil | hlast⟩ | hchars
  · exact absurd hnil hne
  · have hends : dir.chars = dir.chars.dropLast ++ ['/'] := (List.dropLast_append_getLast? _ hlast).symm
    have hbody : body dir.chars = body dir.chars.dropLast := by
      rw [hends, body_append_slash]
      simp [body, Text.splitAt, Component.ofPiece?]
    have hwhole : (dir.join p).chars = dir.chars.dropLast ++ '/' :: p.chars := by
      rw [hchars]
      conv => lhs; rw [hends]
      simp
    rw [hwhole, body_append_slash, hbody, ← List.append_assoc]
    congr 2
    by_cases hroot : dir.chars.dropLast = []
    · rw [hroot] at hends
      rw [hroot, hends]
      rfl
    · conv => rhs; rw [hends]
      rw [lead_append_slash hroot, lead_append_slash hroot]
  · rw [hchars, body_append_slash, lead_append_slash hne, List.append_assoc]

/-- What is written after the last name lengthens it. -/
theorem exists_body_append (s : List Char) : ∃ front last, ∀ ending, 2 < ending.length → '/' ∉ ending →
    body (s ++ ending) = front ++ [.name (String.ofList (last ++ ending))] := by
  obtain ⟨init, last, hends⟩ := Text.exists_splitAt_append '/' s
  refine ⟨init.filterMap Component.ofPiece?, last, fun ending hlong hslash => ?_⟩
  have hlength : 2 < (last ++ ending).length := by
    rw [List.length_append]
    omega
  have hlast : Component.ofPiece? (last ++ ending) = some (.name (String.ofList (last ++ ending))) := by
    rw [Component.ofPiece?, if_neg, if_neg]
    · intro hup
      simp [hup] at hlength
    · rintro (hnil | hdot)
      · simp [hnil] at hlength
      · simp [hdot] at hlength
  rw [body, hends ending hslash, List.filterMap_append, List.filterMap_cons_some hlast]
  rfl

theorem isAbsolute_append {t ending : String} (hslash : '/' ∉ ending.toList) :
    (⟨t ++ ending⟩ : Path).isAbsolute = (⟨t⟩ : Path).isAbsolute := by
  have hends : ending.toList.head? ≠ some '/' := fun h => hslash (List.mem_of_head? h)
  rw [isAbsolute, isAbsolute, chars, chars, String.toList_append, List.head?_append]
  cases t.toList.head? with
  | none => simpa using hends
  | some c => rfl

theorem fileName?_eq_some_iff : p.fileName? = some n ↔ p.components.getLast? = some (.name n) := by
  unfold fileName?
  split
  · rename_i hlast
    rw [hlast]
    simp
  · rename_i hnone
    exact iff_of_false nofun fun h => hnone n h

theorem fileName?_congr (h : p.Same q) : p.fileName? = q.fileName? := by
  rw [fileName?, show p.components = q.components from h, fileName?]

/-- At the start of a path there is no name. -/
theorem getLast?_lead_append : (lead s ++ cs).getLast? = some (.name n) ↔ cs.getLast? = some (.name n) := by
  cases cs with
  | nil =>
    unfold lead
    split_ifs <;> simp
  | cons c cs => rw [List.getLast?_append_of_ne_nil _ (List.cons_ne_nil c cs)]

/-- A file has its name in every directory. -/
theorem fileName?_join (base : Path) (h : p.fileName? = some n) : (base.join p).fileName? = some n := by
  by_cases habs : p.isAbsolute = true
  · rwa [Path.join, if_pos habs]
  · rw [Bool.not_eq_true] at habs
    by_cases hempty : base.text = ""
    · have heq : base = ⟨""⟩ := congrArg Path.mk hempty
      rwa [heq, empty_join]
    · rw [fileName?_eq_some_iff] at h ⊢
      rw [components_eq, getLast?_lead_append] at h
      have hne : body p.chars ≠ [] := List.ne_nil_of_mem (List.mem_of_getLast? h)
      rw [components_join hempty habs, List.getLast?_append_of_ne_nil _ hne, h]

theorem plain_of_name_mem (h : .name n ∈ p.components) : (Component.name n).Plain := by
  have hproper := proper_components p
  generalize p.components = cs at h hproper
  cases cs with
  | nil => cases h
  | cons first rest =>
    rcases List.mem_cons.mp h with rfl | hmem
    · exact (hproper.1.resolve_left nofun).resolve_left nofun
    · exact hproper.2 _ hmem

/-- A name that a path ends with is a plain one. -/
theorem components_of_fileName? (h : p.fileName? = some n) :
    ∃ init, p.components = init ++ [.name n] ∧ (Component.name n).Plain := by
  have hlast := fileName?_eq_some_iff.mp h
  obtain ⟨init, hinit⟩ := List.getLast?_eq_some_iff.mp hlast
  exact ⟨init, hinit, plain_of_name_mem (List.mem_of_getLast? hlast)⟩

theorem isAbsolute_of_plain (h : (Component.name n).Plain) : (⟨n⟩ : Path).isAbsolute = false := by
  rw [isAbsolute, beq_eq_false_iff_ne]
  intro hhead
  exact h.2.2.2 (List.mem_of_head? hhead)

theorem components_of_plain (h : (Component.name n).Plain) : (⟨n⟩ : Path).components = [.name n] := by
  have hchars : (⟨n⟩ : Path).chars = n.toList := rfl
  have hsplit := Text.splitAt_of_notMem h.2.2.2
  have hhead : n.toList.head? ≠ some '/' := fun hhead => h.2.2.2 (List.mem_of_head? hhead)
  have hdot : n.toList ≠ ['.'] := fun hdot => h.2.1 (String.toList_inj.mp hdot)
  have hname : Component.ofPiece? n.toList = some (.name n) := Component.ofPiece?_text h
  rw [components_eq, hchars, lead, body, hsplit, if_neg hhead, if_neg (by simpa using hdot),
    List.filterMap_cons_some hname]
  rfl

theorem fileName?_of_plain (h : (Component.name n).Plain) : (⟨n⟩ : Path).fileName? = some n := by
  rw [fileName?_eq_some_iff, components_of_plain h]
  rfl

/-- In one directory files with different names are different. -/
theorem join_same_iff {m : String} (hm : (Component.name m).Plain) (hn : (Component.name n).Plain) :
    (dir.join ⟨m⟩).Same (dir.join ⟨n⟩) ↔ m = n := by
  constructor
  · intro h
    have hname := fileName?_congr h
    rw [fileName?_join dir (fileName?_of_plain hm), fileName?_join dir (fileName?_of_plain hn)] at hname
    exact Option.some.inj hname
  · rintro rfl
    exact Same.refl _

/-- The name of the file ends so. -/
def HasEnding (p : Path) (ending : String) : Prop := ∃ stem, p.fileName? = some (stem ++ ending)

theorem hasEnding_append (t : String) {ending : String} (hlong : 2 < ending.toList.length)
    (hslash : '/' ∉ ending.toList) : (⟨t ++ ending⟩ : Path).HasEnding ending := by
  obtain ⟨front, last, hbody⟩ := exists_body_append t.toList
  have hchars : (⟨t ++ ending⟩ : Path).chars = t.toList ++ ending.toList := String.toList_append
  have hname : String.ofList (last ++ ending.toList) = String.ofList last ++ ending := by
    rw [← String.toList_inj, String.toList_ofList, String.toList_append, String.toList_ofList]
  refine ⟨String.ofList last, ?_⟩
  rw [fileName?_eq_some_iff, components_eq, getLast?_lead_append, hchars, hbody _ hlong hslash, hname]
  exact List.getLast?_concat

theorem HasEnding.join {ending : String} (h : p.HasEnding ending) (base : Path) : (base.join p).HasEnding ending :=
  h.imp fun _ => fileName?_join base

theorem hasEnding_of_plain (h : (Component.name n).Plain) : (⟨n⟩ : Path).HasEnding n :=
  ⟨"", by rw [fileName?_of_plain h, String.empty_append]⟩

theorem HasEnding.not_same {e e' : String} (hp : p.HasEnding e) (hq : q.HasEnding e') (h : Text.EndsApart e e') :
    ¬ p.Same q := by
  intro hsame
  obtain ⟨t, ht⟩ := hp
  obtain ⟨u, hu⟩ := hq
  rw [fileName?_congr hsame, hu] at ht
  exact Text.append_ne_append h t u (Option.some.inj ht).symm

section Endings
variable {ps qs : List Path} {es : List String} {e : String}

theorem HasEnding.not_same_of_mem (hp : p.HasEnding e) (hqs : List.Forall₂ HasEnding qs es)
    (h : ∀ e' ∈ es, Text.EndsApart e e') : ∀ q ∈ qs, ¬ p.Same q := by
  intro q hq
  obtain ⟨e', he', hqe⟩ := hqs.exists_of_mem_left hq
  exact hp.not_same hqe (h e' he')

theorem pairwise_of_endings (hps : List.Forall₂ HasEnding ps es) (hes : es.Pairwise Text.EndsApart) :
    ps.Pairwise (¬ ·.Same ·) := by
  induction hps with
  | nil => exact .nil
  | cons hp hps ih =>
    obtain ⟨hfirst, hrest⟩ := List.pairwise_cons.mp hes
    exact .cons (hp.not_same_of_mem hps hfirst) (ih hrest)

/-- Two lists of paths with the same endings can only meet at the same place of both. -/
theorem apart_iff_of_endings (hps : List.Forall₂ HasEnding ps es) (hqs : List.Forall₂ HasEnding qs es)
    (hes : es.Pairwise Text.EndsApart) :
    (∀ p ∈ ps, ∀ q ∈ qs, ¬ p.Same q) ↔ List.Forall₂ (¬ ·.Same ·) ps qs := by
  induction hps generalizing qs with
  | nil =>
    cases hqs
    simp
  | cons hp hps ih =>
    obtain ⟨hfirst, hrest⟩ := List.pairwise_cons.mp hes
    cases hqs with
    | cons hq hqs =>
      have hleft := hp.not_same_of_mem hqs hfirst
      have hright := hq.not_same_of_mem hps hfirst
      rw [List.forall₂_cons, ← ih hqs hrest]
      constructor
      · intro h
        exact ⟨h _ List.mem_cons_self _ List.mem_cons_self,
          fun p hp q hq => h p (List.mem_cons_of_mem _ hp) q (List.mem_cons_of_mem _ hq)⟩
      · rintro ⟨hsame, h⟩
        rw [List.forall_mem_cons]
        refine ⟨List.forall_mem_cons.mpr ⟨hsame, hleft⟩, fun p hp => List.forall_mem_cons.mpr ⟨?_, h p hp⟩⟩
        exact fun hpq => hright p hp hpq.symm

end Endings

end Path

end SchemaTables
