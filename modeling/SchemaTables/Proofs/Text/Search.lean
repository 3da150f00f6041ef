import SchemaTables.Text.Search

/-!
Splitting at a character: where the character does not occur there is one piece, and a text that is split
at one occurrence has the pieces of both sides. The text is its pieces put together again.
-/

namespace SchemaTables.Text

set_option autoImplicit false

open scoped List

variable {c : Char} {a b s : List Char}

theorem splitAt_of_notMem (h : c ∉ s) : splitAt c s = [s] := by
  induction s with
  | nil => rfl
  | cons d s ih =>
    rw [List.mem_cons, not_or] at h
    rw [splitAt, if_neg (Ne.symm h.1), ih h.2]

theorem splitAt_append_cons (c : Char) (a b : List Char) :
    splitAt c (a ++ c :: b) = splitAt c a ++ splitAt c b := by
  induction a with
  | nil => simp [splitAt]
  | cons d a ih =>
    rw [List.cons_append, splitAt, splitAt, ih]
    split
    · rfl
    · cases hpieces : splitAt c a with
      | nil => exact absurd hpieces (splitAt_ne_nil c a)
      | cons piece rest => rfl

/-- No piece has the character at which the text is split. -/
theorem notMem_of_mem_splitAt {piece : List Char} (h : piece ∈ splitAt c s) : c ∉ piece := by
  induction s generalizing piece with
  | nil =>
    rw [List.mem_singleton.mp h]
    exact List.not_mem_nil
  | cons d s ih =>
    unfold splitAt at h
    split at h
    · rcases List.mem_cons.mp h with rfl | h
      · exact List.not_mem_nil
      · exact ih h
    · rename_i hne
      split at h
      · rename_i hpieces
        exact absurd hpieces (splitAt_ne_nil c s)
      · rename_i first rest hpieces
        rw [hpieces] at ih
        rcases List.mem_cons.mp h with rfl | h
        · rw [List.mem_cons, not_or]
          exact ⟨Ne.symm hne, ih List.mem_cons_self⟩
        · exact ih (List.mem_cons_of_mem first h)

/-- Pieces between occurrences of a single character. -/
theorem pieces_singleton (c : Char) (s : List Char) : pieces [c] s = splitAt c s := by
  unfold pieces
  induction s with
  | nil => rfl
  | cons d s ih =>
    rw [piecesFrom, splitAt, ih, List.isPrefixOf, List.isPrefixOf, Bool.and_true]
    by_cases h : d = c
    · rw [if_pos h, if_pos (beq_iff_eq.mpr h.symm)]
      exact congrArg _ ih
    · rw [if_neg h, if_neg (by simpa using Ne.symm h)]

theorem eq_of_cutAt (h : cutAt c s = some (a, b)) : s = a ++ c :: b := by
  induction s generalizing a with
  | nil => cases h
  | cons d s ih =>
    unfold cutAt at h
    split at h
    · rename_i heq
      cases h
      rw [heq, List.nil_append]
    · obtain ⟨⟨a', b'⟩, hcut, heq⟩ := Option.map_eq_some_iff.mp h
      cases heq
      rw [ih hcut, List.cons_append]

theorem notMem_of_cutAt (h : cutAt c s = some (a, b)) : c ∉ a := by
  induction s generalizing a with
  | nil => cases h
  | cons d s ih =>
    unfold cutAt at h
    split at h
    · cases h
      exact List.not_mem_nil
    · rename_i hne
      obtain ⟨⟨a', b'⟩, hcut, heq⟩ := Option.map_eq_some_iff.mp h
      cases heq
      rw [List.mem_cons, not_or]
      exact ⟨Ne.symm hne, ih hcut⟩

theorem cutAt_append_cons (h : c ∉ a) (b : List Char) : cutAt c (a ++ c :: b) = some (a, b) := by
  induction a with
  | nil => rw [List.nil_append, cutAt, if_pos rfl]
  | cons d a ih =>
    rw [List.mem_cons, not_or] at h
    rw [List.cons_append, cutAt, if_neg (Ne.symm h.1), ih h.2]
    rfl

section Before
variable {d : Char} {x : List Char}

theorem before_cons_self (c : Char) (s : List Char) : before c (c :: s) = [] := by simp [before]

theorem before_cons_of_ne (h : d ≠ c) (s : List Char) : before c (d :: s) = d :: before c s := by simp [before, h]

theorem before_prefix (c : Char) (s : List Char) : before c s <+: s := List.takeWhile_prefix _

theorem before_append_of_notMem (h : c ∉ s) (x : List Char) : before c (s ++ x) = s ++ before c x := by
  induction s with
  | nil => rfl
  | cons d s ih =>
    rw [List.mem_cons, not_or] at h
    rw [List.cons_append, before_cons_of_ne (Ne.symm h.1), ih h.2, List.cons_append]

theorem before_of_notMem (h : c ∉ s) : before c s = s := by
  simpa [before] using before_append_of_notMem h []

theorem before_append_cons (h : c ∉ a) (b : List Char) : before c (a ++ c :: b) = a := by
  rw [before_append_of_notMem h, before_cons_self, List.append_nil]

/-- A text with the character goes on with it. -/
theorem exists_of_mem (h : c ∈ s) : ∃ rest, s = before c s ++ c :: rest := by
  induction s with
  | nil => cases h
  | cons d s ih =>
    by_cases hd : d = c
    · exact ⟨s, by rw [hd, before_cons_self, List.nil_append]⟩
    · obtain ⟨rest, hrest⟩ := ih ((List.mem_cons.mp h).resolve_left (Ne.symm hd))
      exact ⟨rest, by rw [before_cons_of_ne hd, List.cons_append, ← hrest]⟩

theorem notMem_before (c : Char) (s : List Char) : c ∉ before c s := by
  intro h
  have hne := List.all_eq_true.mp (List.all_takeWhile (p := fun d => decide (d ≠ c)) (l := s)) c h
  simp at hne

theorem before_append_of_mem (h : c ∈ s) (x : List Char) : before c (s ++ x) = before c s := by
  obtain ⟨rest, hrest⟩ := exists_of_mem h
  rw [hrest, List.append_assoc, List.cons_append, before_append_of_notMem (notMem_before c s),
    before_append_of_notMem (notMem_before c s), before_cons_self, before_cons_self]

theorem splitAt_eq_before_cons (c : Char) (s : List Char) : splitAt c s = before c s :: (splitAt c s).tail := by
  induction s with
  | nil => rfl
  | cons d s ih =>
    by_cases hd : d = c
    · rw [hd, before_cons_self, splitAt, if_pos rfl]
      rfl
    · rw [before_cons_of_ne hd, splitAt, if_neg hd, ih]
      rfl

end Before

section Patterns
variable {pattern l r x : List Char} {d : Char}

theorem cutAtText_of_isPrefix (h : pattern <+: d :: s) :
    cutAtText pattern (d :: s) = some ([], (d :: s).drop pattern.length) := by
  rw [cutAtText, if_pos (List.isPrefixOf_iff_prefix.mpr h)]

theorem cutAtText_cons (h : ¬ pattern <+: d :: s) :
    cutAtText pattern (d :: s) = (cutAtText pattern s).map fun (l, r) => (d :: l, r) := by
  rw [cutAtText, if_neg (by rwa [List.isPrefixOf_iff_prefix])]

theorem eq_of_cutAtText (h : cutAtText pattern s = some (l, r)) : s = l ++ pattern ++ r := by
  induction s generalizing l with
  | nil => cases h
  | cons d s ih =>
    by_cases hprefix : pattern <+: d :: s
    · rw [cutAtText_of_isPrefix hprefix] at h
      cases h
      exact (List.prefix_iff_eq_append.mp hprefix).symm
    · rw [cutAtText_cons hprefix] at h
      obtain ⟨⟨l', r'⟩, hcut, heq⟩ := Option.map_eq_some_iff.mp h
      cases heq
      rw [ih hcut, List.cons_append, List.cons_append]

/-- The last character of a pattern decides whether it reaches into what follows. -/
theorem prefix_append_iff_of_notMem (h : c ∉ x) : a ++ [c] <+: s ++ x ↔ a ++ [c] <+: s := by
  constructor
  · rintro ⟨t, ht⟩
    rw [List.append_assoc, List.singleton_append] at ht
    rcases List.append_eq_append_iff.mp ht with ⟨e, rfl, he⟩ | ⟨e, rfl, he⟩
    · cases e with
      | nil =>
        have hx : x = c :: t := he.symm
        exact absurd (hx ▸ List.mem_cons_self) h
      | cons e rest =>
        obtain ⟨rfl, _⟩ := List.cons.inj he
        exact ⟨rest, by rw [List.append_assoc, List.singleton_append]⟩
    · exact absurd (he ▸ List.mem_append_right e List.mem_cons_self) h
  · exact fun h => h.trans (List.prefix_append s x)

theorem cutAtText_of_notMem (h : c ∉ s) : cutAtText (a ++ [c]) s = none := by
  induction s with
  | nil => rfl
  | cons d s ih =>
    have hprefix : ¬ a ++ [c] <+: d :: s := fun hp =>
      h (hp.subset (List.mem_append_right a (List.mem_singleton.mpr rfl)))
    rw [cutAtText_cons hprefix, ih fun hmem => h (List.mem_cons_of_mem d hmem)]
    rfl

/-- What does not have the last character of the pattern follows the cut as it is. -/
theorem cutAtText_append (h : c ∉ x) :
    cutAtText (a ++ [c]) (s ++ x) = (cutAtText (a ++ [c]) s).map fun (l, r) => (l, r ++ x) := by
  induction s with
  | nil => exact cutAtText_of_notMem h
  | cons d s ih =>
    have hiff : a ++ [c] <+: d :: (s ++ x) ↔ a ++ [c] <+: d :: s := prefix_append_iff_of_notMem (s := d :: s) h
    by_cases hprefix : a ++ [c] <+: d :: s
    · rw [List.cons_append, cutAtText_of_isPrefix (hiff.mpr hprefix), cutAtText_of_isPrefix hprefix, ← List.cons_append,
        List.drop_append_of_le_length hprefix.length_le]
      rfl
    · rw [List.cons_append, cutAtText_cons (mt hiff.mp hprefix), cutAtText_cons hprefix, ih]
      cases cutAtText (a ++ [c]) s <;> rfl

/-- The text before a pattern that it does not run into. -/
theorem cutAtText_append_of_notMem (h : c ∉ a) (rest s : List Char) :
    cutAtText (c :: rest) (a ++ (c :: rest) ++ s) = some (a, s) := by
  induction a with
  | nil =>
    rw [List.nil_append, List.cons_append, cutAtText_of_isPrefix ⟨s, rfl⟩, ← List.cons_append, List.drop_left]
  | cons d a ih =>
    rw [List.mem_cons, not_or] at h
    have hprefix : ¬ (c :: rest) <+: d :: (a ++ (c :: rest) ++ s) := fun hp => h.1 (List.cons_prefix_cons.mp hp).1
    rw [List.cons_append, List.cons_append, cutAtText_cons hprefix, ih h.2]
    rfl

end Patterns

/-- A text is its pieces with the character between them. -/
theorem intercalate_splitAt (c : Char) (s : List Char) : [c].intercalate (splitAt c s) = s := by
  induction s with
  | nil => rfl
  | cons d s ih =>
    rw [splitAt]
    obtain ⟨piece, rest, hpieces⟩ := List.exists_cons_of_ne_nil (splitAt_ne_nil c s)
    rw [hpieces] at ih ⊢
    split
    · rename_i heq
      rw [List.intercalate_cons_cons, ih, heq]
      rfl
    · cases rest with
      | nil => rw [← ih]; rfl
      | cons next rest => rw [← ih]; rfl

/-- What holds of a text as it holds on both sides of the character, holds of it as of its pieces. -/
theorem holds_iff_forall_splitAt {P : List Char → Prop} (h : ∀ a b, P (a ++ c :: b) ↔ P a ∧ P b) (s : List Char) :
    P s ↔ ∀ piece ∈ splitAt c s, P piece := by
  have hjoin : ∀ pieces : List (List Char), pieces ≠ [] →
      (P ([c].intercalate pieces) ↔ ∀ piece ∈ pieces, P piece) := by
    intro pieces hne
    induction pieces with
    | nil => exact absurd rfl hne
    | cons piece rest ih =>
      cases rest with
      | nil => simp
      | cons next rest =>
        rw [List.intercalate_cons_cons, List.append_assoc, List.singleton_append, h, ih (List.cons_ne_nil next rest)]
        exact List.forall_mem_cons.symm
  have hpieces := hjoin (splitAt c s) (splitAt_ne_nil c s)
  rwa [intercalate_splitAt] at hpieces

/-- Texts that are put together with the character are split each on its own. -/
theorem splitAt_joinWith_eq_flatMap (c : Char) {texts : List String} (h : texts ≠ []) :
    splitAt c (joinWith (String.singleton c) texts).toList = texts.flatMap fun t => splitAt c t.toList := by
  induction texts with
  | nil => exact absurd rfl h
  | cons t rest ih =>
    cases rest with
    | nil => rw [joinWith, String.intercalate_singleton, List.flatMap_singleton]
    | cons u rest =>
      have hrest := ih (List.cons_ne_nil u rest)
      rw [joinWith] at hrest ⊢
      rw [String.intercalate_cons_cons, String.toList_append, String.toList_append, String.toList_singleton,
        List.append_assoc, List.singleton_append, splitAt_append_cons, hrest]
      rfl

theorem sublist_intercalate_cons (c : Char) (piece : List Char) (pieces : List (List Char)) :
    [c].intercalate pieces <+ [c].intercalate (piece :: pieces) := by
  cases pieces with
  | nil => exact List.nil_sublist _
  | cons next rest =>
    rw [List.intercalate_cons_cons]
    exact List.sublist_append_right _ _

theorem intercalate_sublist {pieces pieces' : List (List Char)} (h : pieces <+ pieces') :
    [c].intercalate pieces <+ [c].intercalate pieces' := by
  induction h with
  | slnil => exact List.Sublist.refl _
  | cons piece _ ih => exact ih.trans (sublist_intercalate_cons c piece _)
  | @cons_cons pieces pieces' piece h ih =>
    cases pieces with
    | nil =>
      cases pieces' with
      | nil => exact List.Sublist.refl _
      | cons next rest =>
        rw [List.intercalate_singleton, List.intercalate_cons_cons, List.append_assoc]
        exact List.sublist_append_left _ _
    | cons first rest =>
      have hne : pieces' ≠ [] := by
        rintro rfl
        cases h
      obtain ⟨next, rest', rfl⟩ := List.exists_cons_of_ne_nil hne
      rw [List.intercalate_cons_cons, List.intercalate_cons_cons]
      exact List.Sublist.append_left ih _

end SchemaTables.Text
