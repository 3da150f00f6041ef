import Mathlib.Data.List.Basic
import SchemaTables.Proofs.Text.Search

/-!
Lines of a text, and words of a line. Blanks and line breaks separate words, so texts that are put together with blanks
are read back one by one exactly when each of them is a word.
-/

namespace SchemaTables.Text

set_option autoImplicit false

variable {s : List Char} {c : Char} {t : String} {texts : List String}

section Counting
variable {α β : Type} {k : α → List β} {l : List α}

theorem length_le_length_flatMap (h : ∀ a ∈ l, k a ≠ []) : l.length ≤ (l.flatMap k).length := by
  induction l with
  | nil => exact Nat.le_refl 0
  | cons a l ih =>
    obtain ⟨ha, hl⟩ := List.forall_mem_cons.mp h
    have hfirst := List.length_pos_iff.mpr ha
    have hrest := ih hl
    rw [List.flatMap_cons, List.length_append, List.length_cons]
    omega

/-- When everything gives something and no more is given than one for each, it is one from each. -/
theorem length_flatMap_eq_iff (h : ∀ a ∈ l, k a ≠ []) :
    (l.flatMap k).length = l.length ↔ ∀ a ∈ l, (k a).length = 1 := by
  induction l with
  | nil => simp
  | cons a l ih =>
    obtain ⟨ha, hl⟩ := List.forall_mem_cons.mp h
    have hfirst := List.length_pos_iff.mpr ha
    have hrest := length_le_length_flatMap hl
    rw [List.forall_mem_cons, ← ih hl, List.flatMap_cons, List.length_append, List.length_cons]
    omega

end Counting

section Lines

/-- The lines of a text. -/
def lines (t : String) : List (List Char) := splitAt '\n' t.toList

theorem lines_joinWith (h : texts ≠ []) : lines (joinWith "\n" texts) = texts.flatMap lines :=
  splitAt_joinWith_eq_flatMap '\n' h

theorem lines_eq_singleton_iff : lines t = [t.toList] ↔ '\n' ∉ t.toList := by
  constructor
  · intro h
    exact notMem_of_mem_splitAt (h ▸ List.mem_singleton.mpr rfl : t.toList ∈ lines t)
  · exact splitAt_of_notMem

theorem mem_joinWith_iff {sep : String} (hc : c ∉ sep.toList) :
    c ∈ (joinWith sep texts).toList ↔ ∃ t ∈ texts, c ∈ t.toList := by
  induction texts with
  | nil => simp [joinWith]
  | cons t rest ih =>
    cases rest with
    | nil => simp [joinWith]
    | cons u rest =>
      rw [List.exists_mem_cons_iff, ← ih]
      simp [joinWith, String.intercalate_cons_cons, hc]

end Lines

section Words

/-- What separates words. -/
def isGap (c : Char) : Bool := c == ' ' || c == '\t' || c == '\n'

/-- The words of a text. -/
def words (s : List Char) : List String := ((s.splitOnP isGap).filter (!·.isEmpty)).map String.ofList

/-- A text that is one word. -/
structure IsWord (t : String) : Prop where
  nonempty : t ≠ ""
  solid : ∀ c ∈ t.toList, isGap c = false

instance : DecidablePred IsWord := fun t =>
  decidable_of_iff (t ≠ "" ∧ t.toList.any isGap = false)
    ⟨fun h => ⟨h.1, by simpa using h.2⟩, fun h => ⟨h.nonempty, by simpa using h.solid⟩⟩

theorem IsWord.notMem (h : IsWord t) (hc : isGap c = true) : c ∉ t.toList := by
  intro hmem
  rw [h.solid c hmem] at hc
  cases hc

theorem IsWord.exists_cons (h : IsWord t) : ∃ c rest, t.toList = c :: rest ∧ isGap c = false := by
  obtain ⟨c, rest, hchars⟩ := List.exists_cons_of_ne_nil fun hnil => h.nonempty (String.toList_eq_nil_iff.mp hnil)
  exact ⟨c, rest, hchars, h.solid c (hchars ▸ List.mem_cons_self)⟩

theorem of_mem_splitOnP {piece : List Char} (h : piece ∈ s.splitOnP isGap) :
    (∀ c ∈ piece, isGap c = false) ∧ piece ⊆ s := by
  induction s generalizing piece with
  | nil =>
    rw [List.splitOnP_nil, List.mem_singleton] at h
    rw [h]
    exact ⟨nofun, List.Subset.refl _⟩
  | cons d s ih =>
    obtain ⟨first, rest, hpieces⟩ := List.exists_cons_of_ne_nil (List.splitOnP_ne_nil isGap s)
    rw [List.splitOnP_cons_eq_if_modifyHead] at h
    split at h
    · rcases List.mem_cons.mp h with rfl | h
      · exact ⟨nofun, List.nil_subset _⟩
      · exact ⟨(ih h).1, List.subset_cons_of_subset d (ih h).2⟩
    · rename_i hd
      rw [hpieces] at ih h
      rcases List.mem_cons.mp h with rfl | h
      · obtain ⟨hsolid, hsubset⟩ := ih List.mem_cons_self
        exact ⟨List.forall_mem_cons.mpr ⟨Bool.not_eq_true _ ▸ hd, hsolid⟩, List.cons_subset_cons d hsubset⟩
      · obtain ⟨hsolid, hsubset⟩ := ih (List.mem_cons_of_mem first h)
        exact ⟨hsolid, List.subset_cons_of_subset d hsubset⟩

theorem of_mem_words (h : t ∈ words s) : IsWord t ∧ t.toList ⊆ s := by
  obtain ⟨piece, hmem, rfl⟩ := List.mem_map.mp h
  obtain ⟨hpiece, hne⟩ := List.mem_filter.mp hmem
  obtain ⟨hsolid, hsubset⟩ := of_mem_splitOnP hpiece
  rw [String.toList_ofList]
  refine ⟨⟨?_, ?_⟩, hsubset⟩
  · simpa using hne
  · rwa [String.toList_ofList]

theorem words_append_gap (hc : isGap c = true) (a b : List Char) : words (a ++ c :: b) = words a ++ words b := by
  rw [words, List.splitOnP_append_cons a b hc, List.filter_append, List.map_append]
  rfl

theorem words_cons_gap (hc : isGap c = true) (s : List Char) : words (c :: s) = words s := words_append_gap hc [] s

theorem IsWord.words_eq (h : IsWord t) : words t.toList = [t] := by
  have hne : t.toList.isEmpty = false := by simpa using h.nonempty
  rw [words, List.splitOnP_eq_singleton h.solid]
  simp [hne]

/-- Only a text of blanks has no words. -/
theorem words_ne_nil (hc : isGap c = false) (h : c ∈ s) : words s ≠ [] := by
  induction s with
  | nil => cases h
  | cons d s ih =>
    cases hd : isGap d with
    | true =>
      rw [words_cons_gap hd]
      apply ih
      refine (List.mem_cons.mp h).resolve_left ?_
      rintro rfl
      rw [hc] at hd
      cases hd
    | false =>
      obtain ⟨first, rest, hpieces⟩ := List.exists_cons_of_ne_nil (List.splitOnP_ne_nil isGap s)
      rw [words, List.splitOnP_cons_eq_if_modifyHead, hd, hpieces]
      simp

/-- Texts with blanks between neighbours are read back exactly when they are words. -/
theorem words_joinWith_iff : words (joinWith " " texts).toList = texts ↔ ∀ t ∈ texts, IsWord t := by
  constructor
  · intro h t ht
    rw [← h] at ht
    exact (of_mem_words ht).1
  · intro h
    induction texts with
    | nil => rfl
    | cons t rest ih =>
      obtain ⟨ht, hrest⟩ := List.forall_mem_cons.mp h
      cases rest with
      | nil => rw [joinWith, String.intercalate_singleton, ht.words_eq]
      | cons u rest =>
        have hjoin : (joinWith " " (t :: u :: rest)).toList = t.toList ++ ' ' :: (joinWith " " (u :: rest)).toList := by
          simp [joinWith, String.intercalate_cons_cons]
        rw [hjoin, words_append_gap (by decide), ht.words_eq, ih hrest]
        rfl

/-- Words stand in one line. -/
theorem break_notMem_joinWith (h : ∀ t ∈ texts, IsWord t) : '\n' ∉ (joinWith " " texts).toList := by
  rw [mem_joinWith_iff (by decide)]
  rintro ⟨t, ht, hbreak⟩
  exact (h t ht).notMem rfl hbreak

end Words

end SchemaTables.Text
