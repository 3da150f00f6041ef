import Mathlib.Data.List.Basic
import SchemaTables.Path.Basic
import SchemaTables.Proofs.Text.Search

/-!
Components of paths. A path that is written from components has these components, so the parent of a
path has all of its components but the last.
-/

namespace SchemaTables

set_option autoImplicit false

open scoped List

theorem Text.splitAt_joinWith {c : Char} {texts : List String} (hne : texts ≠ [])
    (h : ∀ t ∈ texts, c ∉ t.toList) :
    Text.splitAt c (Text.joinWith (String.singleton c) texts).toList = texts.map String.toList := by
  rw [Text.splitAt_joinWith_eq_flatMap c hne, List.map_eq_flatMap]
  exact List.flatMap_congr fun t ht => Text.splitAt_of_notMem (h t ht)

namespace Component

/-- The part of a path that the component stands for; the root and `.` stay where a path starts. -/
def move? : Component → Option String
  | root | current => none
  | parent => some ".."
  | name n => some n

/-- A component that may stand anywhere in a path. -/
def Plain : Component → Prop
  | root | current => False
  | parent => True
  | name n => n ≠ "" ∧ n ≠ "." ∧ n ≠ ".." ∧ '/' ∉ n.toList

variable {c : Component} {piece : List Char}

theorem text_of_ofPiece? (h : ofPiece? piece = some c) : c.text.toList = piece := by
  unfold ofPiece? at h
  split at h
  · cases h
  · split at h
    · rename_i hup
      cases h
      exact hup.symm
    · cases h
      exact String.toList_ofList

theorem ofPiece?_eq_none_iff : ofPiece? piece = none ↔ piece = [] ∨ piece = ['.'] := by
  unfold ofPiece?
  split
  · rename_i h
    exact iff_of_true rfl h
  · rename_i h
    refine iff_of_false ?_ h
    split <;> exact Option.some_ne_none _

theorem ofPiece?_ne_root (piece : List Char) : ofPiece? piece ≠ some root := by
  unfold ofPiece?
  split
  · simp
  · split <;> simp

theorem plain_of_ofPiece? (h : ofPiece? piece = some c) (hslash : '/' ∉ piece) : c.Plain := by
  unfold ofPiece? at h
  split at h
  · cases h
  · rename_i hdot
    rw [not_or] at hdot
    split at h
    · cases h
      trivial
    · rename_i hup
      cases h
      refine ⟨?_, ?_, ?_, ?_⟩
      · simpa using hdot.1
      · rw [ne_eq, ← String.toList_inj, String.toList_ofList]
        exact hdot.2
      · rw [ne_eq, ← String.toList_inj, String.toList_ofList]
        exact hup
      · rwa [String.toList_ofList]

theorem ofPiece?_text (h : c.Plain) : ofPiece? c.text.toList = some c := by
  cases c with
  | root | current => exact h.elim
  | parent => rfl
  | name n =>
    obtain ⟨hempty, hdot, hup, _⟩ := h
    have hchars : ∀ t : String, n ≠ t → n.toList ≠ t.toList := fun t hne heq => hne (String.toList_inj.mp heq)
    have hempty' : n.toList ≠ [] := hchars "" hempty
    have hdot' : n.toList ≠ ['.'] := hchars "." hdot
    have hup' : n.toList ≠ ['.', '.'] := hchars ".." hup
    rw [text, ofPiece?, if_neg (not_or.mpr ⟨hempty', hdot'⟩), if_neg hup', String.ofList_toList]

theorem slash_notMem_text (h : c.Plain) : '/' ∉ c.text.toList := by
  cases c with
  | root | current => exact h.elim
  | parent => decide
  | name n => exact h.2.2.2

theorem text_ne_empty (h : c.Plain) : c.text ≠ "" := by
  cases c with
  | root | current => exact h.elim
  | parent => decide
  | name n => exact h.1

end Component

namespace Path

/-- Only the first component may be the root or `.`. -/
def Proper : List Component → Prop
  | [] => True
  | first :: rest => (first = .root ∨ first = .current ∨ first.Plain) ∧ ∀ c ∈ rest, c.Plain

variable {p q : Path} {cs : List Component}

theorem Proper.dropLast (h : Proper cs) : Proper cs.dropLast := by
  cases cs with
  | nil => trivial
  | cons first rest =>
    cases rest with
    | nil => trivial
    | cons next rest => exact ⟨h.1, fun c hc => h.2 c (List.dropLast_subset _ hc)⟩

theorem proper_components (p : Path) : Proper p.components := by
  unfold components
  split
  · trivial
  · rename_i first rest hsplit
    have hpiece : ∀ piece ∈ first :: rest, ∀ c, Component.ofPiece? piece = some c → c.Plain := by
      intro piece hmem c hc
      rw [← hsplit] at hmem
      exact Component.plain_of_ofPiece? hc (Text.notMem_of_mem_splitAt hmem)
    have hbody : ∀ c ∈ rest.filterMap Component.ofPiece?, c.Plain := by
      intro c hc
      obtain ⟨piece, hmem, hc⟩ := List.mem_filterMap.mp hc
      exact hpiece piece (List.mem_cons_of_mem first hmem) c hc
    simp only
    split
    · exact ⟨Or.inl rfl, hbody⟩
    · split
      · exact ⟨Or.inr (Or.inl rfl), hbody⟩
      · cases hfirst : Component.ofPiece? first with
        | some c => exact ⟨Or.inr (Or.inr (hpiece first List.mem_cons_self c hfirst)), hbody⟩
        | none =>
          cases hrest : rest.filterMap Component.ofPiece? with
          | nil => trivial
          | cons c body =>
            rw [hrest] at hbody
            exact ⟨Or.inr (Or.inr (hbody c List.mem_cons_self)), fun d hd => hbody d (List.mem_cons_of_mem c hd)⟩

theorem splitAt_of_isAbsolute (h : p.isAbsolute = true) :
    ∃ s, Text.splitAt '/' p.chars = [] :: Text.splitAt '/' s := by
  obtain ⟨s, hs⟩ : ∃ s, p.chars = '/' :: s := by
    rw [isAbsolute, beq_iff_eq, List.head?_eq_some_iff] at h
    exact h
  exact ⟨s, by rw [hs, Text.splitAt, if_pos rfl]⟩

theorem filterMap_ofPiece?_texts (h : ∀ c ∈ cs, c.Plain) :
    ((cs.map Component.text).map String.toList).filterMap Component.ofPiece? = cs := by
  induction cs with
  | nil => rfl
  | cons c cs ih =>
    rw [List.forall_mem_cons] at h
    rw [List.map_cons, List.map_cons, List.filterMap_cons, Component.ofPiece?_text h.1, ih h.2]

theorem splitAt_ofPlain (hne : cs ≠ []) (h : ∀ c ∈ cs, c.Plain ∨ c = .current) :
    Text.splitAt '/' (Text.joinWith "/" (cs.map Component.text)).toList =
      (cs.map Component.text).map String.toList := by
  refine Text.splitAt_joinWith (by simpa using hne) ?_
  intro t ht
  obtain ⟨c, hc, rfl⟩ := List.mem_map.mp ht
  rcases h c hc with hplain | rfl
  · exact Component.slash_notMem_text hplain
  · decide

theorem ofComponents_eq (h : cs.head? ≠ some .root) :
    ofComponents cs = ⟨Text.joinWith "/" (cs.map Component.text)⟩ := by
  unfold ofComponents
  split
  · exact absurd rfl h
  · rfl

theorem splitAt_ofComponents_root (cs : List Component) : Text.splitAt '/' (ofComponents (.root :: cs)).chars =
    [] :: Text.splitAt '/' (Text.joinWith "/" (cs.map Component.text)).toList := by
  rw [ofComponents, chars, String.toList_append]
  rfl

theorem Proper.plain_or_current {first : Component} {rest : List Component} (h : Proper (first :: rest))
    (hroot : first ≠ .root) : ∀ c ∈ first :: rest, c.Plain ∨ c = .current := by
  rw [List.forall_mem_cons]
  exact ⟨(h.1.resolve_left hroot).symm, fun c hc => Or.inl (h.2 c hc)⟩

/-- What is written from components has them. -/
theorem components_ofComponents (h : Proper cs) : (ofComponents cs).components = cs := by
  cases cs with
  | nil => rfl
  | cons first rest =>
    have ⟨hfirst, hrest⟩ := h
    by_cases hroot : first = .root
    · subst hroot
      have habs : (ofComponents (.root :: rest)).isAbsolute = true := by
        rw [isAbsolute, ofComponents, chars, String.toList_append]
        rfl
      unfold components
      rw [splitAt_ofComponents_root]
      simp only [habs, if_true]
      cases rest with
      | nil => rfl
      | cons c rest =>
        rw [splitAt_ofPlain (List.cons_ne_nil c rest) fun d hd => Or.inl (hrest d hd),
          filterMap_ofPiece?_texts hrest]
    · have hhead : (first :: rest).head? ≠ some .root := fun h => hroot (Option.some.inj h)
      have hparts := h.plain_or_current hroot
      have hsplit := splitAt_ofPlain (List.cons_ne_nil first rest) hparts
      have hne : first.text.toList ≠ [] := by
        rw [ne_eq, String.toList_eq_nil_iff]
        rcases hparts first List.mem_cons_self with h | rfl
        · exact Component.text_ne_empty h
        · decide
      rw [ofComponents_eq hhead]
      unfold components
      rw [chars, hsplit, List.map_cons, List.map_cons]
      simp only
      rw [if_neg, filterMap_ofPiece?_texts hrest]
      · rcases hfirst with h | rfl | h
        · exact absurd h hroot
        · rfl
        · have hdot : first.text.toList ≠ ['.'] := by
            intro heq
            have hpiece := Component.ofPiece?_text h
            rw [heq] at hpiece
            cases hpiece
          rw [if_neg hdot, Component.ofPiece?_text h]
          rfl
      · intro habs
        obtain ⟨_, habs⟩ := splitAt_of_isAbsolute habs
        exact hne (List.cons.inj (hsplit.symm.trans habs)).1

theorem parent?_eq_some (h : p.parent? = some q) :
    q = ofComponents p.components.dropLast ∧ p.components ≠ [] := by
  unfold parent? at h
  split at h
  · cases h
  · cases h
  · rename_i last init _ hreverse
    have hcomponents : p.components = init.reverse ++ [last] := by
      rw [← List.reverse_reverse p.components, hreverse, List.reverse_cons]
    rw [hcomponents, List.dropLast_concat]
    exact ⟨(Option.some.inj h).symm, by simp⟩

/-- The parent has all components but the last. -/
theorem components_parent? (h : p.parent? = some q) : q.components = p.components.dropLast := by
  rw [(parent?_eq_some h).1]
  exact components_ofComponents (proper_components p).dropLast

theorem isAbsolute_iff : p.isAbsolute = true ↔ p.components.head? = some .root := by
  constructor
  · intro h
    obtain ⟨rest, hsplit⟩ := splitAt_of_isAbsolute h
    rw [components, hsplit]
    simp [h]
  · intro h
    by_cases habs : p.isAbsolute = true
    · exact habs
    · have hmem := List.mem_of_head? h
      unfold components at hmem
      split at hmem
      · cases hmem
      · rename_i first rest _
        have hbody : .root ∉ rest.filterMap Component.ofPiece? := by
          intro hroot
          obtain ⟨piece, _, hpiece'⟩ := List.mem_filterMap.mp hroot
          exact Component.ofPiece?_ne_root piece hpiece'
        simp only [habs] at hmem
        split at hmem
        · rename_i hfalse
          exact absurd hfalse Bool.false_ne_true
        · split at hmem
          · rcases List.mem_cons.mp hmem with hroot | hroot
            · cases hroot
            · exact absurd hroot hbody
          · rcases List.mem_append.mp hmem with hroot | hroot
            · exact absurd (Option.mem_toList.mp hroot) (Component.ofPiece?_ne_root first)
            · exact absurd hroot hbody

theorem isAbsolute_parent? (h : p.parent? = some q) : q.isAbsolute = p.isAbsolute := by
  rw [Bool.eq_iff_iff, isAbsolute_iff, isAbsolute_iff, components_parent? h]
  unfold parent? at h
  cases hcs : p.components with
  | nil => rfl
  | cons first rest =>
    cases rest with
    | nil =>
      rw [hcs] at h
      cases first with
      | root => cases h
      | current | parent | name n => simp
    | cons next rest => rfl

theorem texts_filterMap_sublist (pieces : List (List Char)) :
    (pieces.filterMap Component.ofPiece?).map (·.text.toList) <+ pieces := by
  induction pieces with
  | nil => exact List.Sublist.refl _
  | cons piece pieces ih =>
    cases hc : Component.ofPiece? piece with
    | none =>
      rw [List.filterMap_cons, hc]
      exact ih.cons piece
    | some c =>
      rw [List.filterMap_cons, hc]
      have htext : c.text.toList = piece := Component.text_of_ofPiece? hc
      simp only [List.map_cons, htext]
      exact ih.cons_cons piece

theorem chars_ofComponents (h : cs.head? ≠ some .root) :
    (ofComponents cs).chars = ['/'].intercalate (cs.map (·.text.toList)) := by
  rw [ofComponents_eq h, chars, Text.joinWith, String.toList_intercalate, List.map_map]
  rfl

theorem chars_ofComponents_root : (ofComponents (.root :: cs)).chars =
    '/' :: ['/'].intercalate (cs.map (·.text.toList)) := by
  rw [ofComponents, chars, Text.joinWith, String.toList_append, String.toList_intercalate, List.map_map]
  rfl

/-- The spelling of the first components of a path takes no other characters than the path's, in their
order. -/
theorem chars_ofComponents_sublist (h : cs <+: p.components) : (ofComponents cs).chars <+ p.chars := by
  rw [← Text.intercalate_splitAt '/' p.chars]
  unfold components at h
  split at h
  · rename_i hnil
    exact absurd hnil (Text.splitAt_ne_nil _ _)
  · rename_i first rest hsplit
    rw [hsplit]
    have hbody := texts_filterMap_sublist rest
    have hrelative : ∀ whole : List Component, whole.map (·.text.toList) <+ first :: rest →
        .root ∉ whole → cs <+: whole → (ofComponents cs).chars <+ ['/'].intercalate (first :: rest) := by
      intro whole hwhole hroot h
      rw [chars_ofComponents fun hhead => hroot (h.mem (List.mem_of_head? hhead))]
      exact Text.intercalate_sublist (((h.map _).sublist).trans hwhole)
    have hroot : ∀ pieces : List (List Char), .root ∉ pieces.filterMap Component.ofPiece? := by
      intro pieces hmem
      obtain ⟨piece, _, hpiece⟩ := List.mem_filterMap.mp hmem
      exact Component.ofPiece?_ne_root piece hpiece
    simp only at h
    split at h
    · rename_i habs
      obtain ⟨s, hfirst⟩ := splitAt_of_isAbsolute habs
      rw [hsplit] at hfirst
      obtain ⟨rfl, rfl⟩ := List.cons.inj hfirst
      cases cs with
      | nil =>
        rw [chars_ofComponents (by simp)]
        exact List.nil_sublist _
      | cons c cs =>
        obtain ⟨rfl, hcs⟩ := List.cons_prefix_cons.mp h
        rw [chars_ofComponents_root]
        have hrest : ['/'].intercalate (cs.map (·.text.toList)) <+ ['/'].intercalate (Text.splitAt '/' s) :=
          Text.intercalate_sublist (((hcs.map _).sublist).trans hbody)
        obtain ⟨next, others, hothers⟩ := List.exists_cons_of_ne_nil (Text.splitAt_ne_nil '/' s)
        rw [hothers] at hrest ⊢
        rw [List.intercalate_cons_cons]
        exact hrest.cons_cons '/'
    · split at h
      · rename_i hdot
        subst hdot
        exact hrelative (.current :: rest.filterMap Component.ofPiece?) (hbody.cons_cons ['.'])
          (by simpa using hroot rest) h
      · have hwhole : (Component.ofPiece? first).toList ++ rest.filterMap Component.ofPiece? =
            (first :: rest).filterMap Component.ofPiece? := by
          cases hfirst : Component.ofPiece? first with
          | none => rw [List.filterMap_cons, hfirst]; rfl
          | some c => rw [List.filterMap_cons, hfirst]; rfl
        rw [hwhole] at h
        exact hrelative _ (texts_filterMap_sublist _) (hroot _) h

/-- A parent is written with no other characters than the path. -/
theorem chars_parent?_sublist (h : p.parent? = some q) : q.chars <+ p.chars := by
  rw [(parent?_eq_some h).1]
  exact chars_ofComponents_sublist (List.dropLast_prefix _)

end Path

end SchemaTables
