import Mathlib.Data.List.Infix
import SchemaTables.Proofs.Text.Search

/-!
Pieces of a text between the occurrences of a separator of any length. An occurrence is the first when none starts
before it, not even one that it overlaps; what follows the first occurrence is taken apart in the same way.
-/

namespace SchemaTables.Text

set_option autoImplicit false

open scoped List

/-- The text has these pieces between the occurrences of the separator, which do not overlap. -/
inductive Splits (sep : List Char) : List Char → List (List Char) → Prop where
  | whole {s : List Char} : ¬ sep <:+: s → Splits sep s [s]
  /-- No occurrence starts among the characters of the first piece. -/
  | cut {a s : List Char} {rest : List (List Char)} : ¬ sep <:+: a ++ sep.dropLast → Splits sep s rest →
      Splits sep (a ++ sep ++ s) (a :: rest)

variable {sep s a : List Char} {d : Char} {found : List (List Char)}

theorem piecesFrom_ne_nil (sep : List Char) (skip : Nat) (s : List Char) : piecesFrom sep skip s ≠ [] := by
  induction s generalizing skip with
  | nil => cases skip <;> exact List.cons_ne_nil _ _
  | cons d s ih =>
    cases skip with
    | succ skip => exact ih skip
    | zero =>
      unfold piecesFrom
      split
      · exact List.cons_ne_nil _ _
      · split <;> exact List.cons_ne_nil _ _

theorem pieces_cons {first : List Char} {rest : List (List Char)} (h : ¬ sep <+: d :: s)
    (hs : pieces sep s = first :: rest) : pieces sep (d :: s) = (d :: first) :: rest := by
  rw [← List.isPrefixOf_iff_prefix] at h
  rw [pieces, piecesFrom, if_neg h]
  unfold pieces at hs
  rw [hs]

theorem pieces_of_not_infix (h : ¬ sep <:+: s) : pieces sep s = [s] := by
  induction s with
  | nil => rfl
  | cons d s ih =>
    rw [List.infix_cons_iff, not_or] at h
    exact pieces_cons h.1 (ih h.2)

/-- Characters to be skipped are in no piece. -/
theorem piecesFrom_length (sep skipped s : List Char) : piecesFrom sep skipped.length (skipped ++ s) = pieces sep s := by
  induction skipped with
  | nil => rfl
  | cons d skipped ih => exact ih

theorem pieces_append (hsep : sep ≠ []) (s : List Char) : pieces sep (sep ++ s) = [] :: pieces sep s := by
  obtain ⟨d, rest, rfl⟩ := List.exists_cons_of_ne_nil hsep
  have hprefix : (d :: rest).isPrefixOf (d :: (rest ++ s)) = true :=
    List.isPrefixOf_iff_prefix.mpr (List.prefix_append (d :: rest) s)
  rw [List.cons_append, pieces, piecesFrom, if_pos hprefix]
  exact congrArg _ (piecesFrom_length (d :: rest) rest s)

theorem prefix_append_dropLast (sep a s : List Char) : a ++ sep.dropLast <+: a ++ sep ++ s := by
  rw [List.append_assoc, List.prefix_append_right_inj]
  exact (List.dropLast_prefix sep).trans (List.prefix_append sep s)

theorem pieces_append_append (hsep : sep ≠ []) (h : ¬ sep <:+: a ++ sep.dropLast) (s : List Char) :
    pieces sep (a ++ sep ++ s) = a :: pieces sep s := by
  induction a with
  | nil => exact pieces_append hsep s
  | cons d a ih =>
    have hlong : sep.length ≤ (d :: a ++ sep.dropLast).length := by
      rw [List.length_append, List.length_cons, List.length_dropLast]
      omega
    have hnot : ¬ sep <+: d :: (a ++ sep ++ s) := by
      intro hprefix
      apply h
      exact (List.prefix_of_prefix_length_le hprefix (prefix_append_dropLast sep (d :: a) s) hlong).isInfix
    rw [List.cons_append, List.infix_cons_iff, not_or] at h
    exact pieces_cons hnot (ih h.2)

/-- A text in which the separator occurs has a first occurrence. -/
theorem exists_first (hsep : sep ≠ []) (h : sep <:+: s) : ∃ a b, s = a ++ sep ++ b ∧ ¬ sep <:+: a ++ sep.dropLast := by
  induction s with
  | nil => exact absurd (List.infix_nil.mp h) hsep
  | cons d s ih =>
    by_cases hprefix : sep <+: d :: s
    · obtain ⟨b, hb⟩ := hprefix
      refine ⟨[], b, hb.symm, ?_⟩
      intro hinfix
      have hlength := hinfix.length_le
      have hpos := List.length_pos_iff.mpr hsep
      rw [List.nil_append, List.length_dropLast] at hlength
      omega
    · obtain ⟨a, b, rfl, hfirst⟩ := ih ((List.infix_cons_iff.mp h).resolve_left hprefix)
      refine ⟨d :: a, b, rfl, ?_⟩
      rw [List.cons_append, List.infix_cons_iff, not_or]
      refine ⟨?_, hfirst⟩
      intro hshort
      apply hprefix
      exact hshort.trans (prefix_append_dropLast sep (d :: a) b)

theorem exists_splits (hsep : sep ≠ []) (s : List Char) : ∃ found, Splits sep s found := by
  induction hn : s.length using Nat.strong_induction_on generalizing s with
  | _ n ih =>
    by_cases h : sep <:+: s
    · obtain ⟨a, b, rfl, hfirst⟩ := exists_first hsep h
      have hshort : b.length < n := by
        have hpos := List.length_pos_iff.mpr hsep
        rw [List.length_append, List.length_append] at hn
        omega
      obtain ⟨found, hfound⟩ := ih b.length hshort b rfl
      exact ⟨a :: found, .cut hfirst hfound⟩
    · exact ⟨[s], .whole h⟩

theorem Splits.pieces_eq (h : Splits sep s found) (hsep : sep ≠ []) : pieces sep s = found := by
  induction h with
  | whole hnot => exact pieces_of_not_infix hnot
  | cut hfirst _ ih => rw [pieces_append_append hsep hfirst, ih]

/-- A text is taken apart in one way. -/
theorem splits_iff (hsep : sep ≠ []) : Splits sep s found ↔ pieces sep s = found := by
  constructor
  · intro h
    exact h.pieces_eq hsep
  · rintro rfl
    obtain ⟨found, hfound⟩ := exists_splits hsep s
    rw [hfound.pieces_eq hsep]
    exact hfound

end SchemaTables.Text
