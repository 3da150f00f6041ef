import Mathlib.Tactic.Push
import SchemaTables.Descriptions
import SchemaTables.Proofs.Text.Replace
import SchemaTables.Proofs.Text.Words

/-!
Rows of a table that is drawn with bars. A row is taken apart at the bars that no backslash stands before, so a text
with such a bar falls apart in it, and a text with a line break ends it. What has neither stands in a row as it is;
escaping makes such a text of any.
-/

namespace SchemaTables.Text

set_option autoImplicit false

variable {g : Bool} {a b s pattern new : List Char} {t u : String}

/-- The pieces of a text between the bars that no backslash stands before; `guarded` says whether one stands before the
text itself. -/
def splitBars (guarded : Bool) : List Char → List (List Char)
  | [] => [[]]
  | c :: s =>
    if c = '|' ∧ guarded = false then [] :: splitBars false s
    else (splitBars (c == '\\') s).modifyHead (List.cons c)

/-- A backslash stands before every bar of the text. -/
def barsGuarded (guarded : Bool) : List Char → Bool
  | [] => true
  | c :: s => (c != '|' || guarded) && barsGuarded (c == '\\') s

/-- Whether a backslash stands before what follows the text. -/
def guards (guarded : Bool) : List Char → Bool
  | [] => guarded
  | c :: s => guards (c == '\\') s

theorem splitBars_ne_nil (g : Bool) (s : List Char) : splitBars g s ≠ [] := by
  induction s generalizing g with
  | nil => exact List.cons_ne_nil _ _
  | cons c s ih =>
    rw [splitBars]
    split
    · exact List.cons_ne_nil _ _
    · simpa using ih _

theorem splitBars_of_barsGuarded (h : barsGuarded g s = true) : splitBars g s = [s] := by
  induction s generalizing g with
  | nil => rfl
  | cons c s ih =>
    simp only [barsGuarded, Bool.and_eq_true, Bool.or_eq_true, bne_iff_ne, ne_eq] at h
    have hbar : ¬(c = '|' ∧ g = false) := by
      rintro ⟨hc, hg⟩
      simp [hc, hg] at h
    rw [splitBars, if_neg hbar, ih h.2]
    rfl

/-- A text that falls into no two pieces is guarded. -/
theorem length_splitBars_eq_one_iff : (splitBars g s).length = 1 ↔ barsGuarded g s = true := by
  constructor
  · intro h
    induction s generalizing g with
    | nil => rfl
    | cons c s ih =>
      rw [splitBars] at h
      split at h
      · have hrest := List.length_pos_iff.mpr (splitBars_ne_nil false s)
        rw [List.length_cons] at h
        omega
      · rename_i hbar
        rw [List.length_modifyHead] at h
        simp only [barsGuarded, ih h, Bool.and_true, Bool.or_eq_true, bne_iff_ne]
        simpa [Decidable.imp_iff_not_or] using hbar
  · intro h
    rw [splitBars_of_barsGuarded h]
    rfl

/-- The blank before a bar leaves it unguarded. -/
theorem splitBars_append_blank_bar (g : Bool) (a b : List Char) :
    splitBars g (a ++ ' ' :: '|' :: b) = splitBars g (a ++ [' ']) ++ splitBars false b := by
  induction a generalizing g with
  | nil => rfl
  | cons c a ih =>
    rw [List.cons_append, List.cons_append, splitBars, splitBars, ih, ih]
    split
    · rfl
    · obtain ⟨piece, rest, hpieces⟩ := List.exists_cons_of_ne_nil (splitBars_ne_nil (c == '\\') (a ++ [' ']))
      rw [hpieces]
      rfl

theorem barsGuarded_append (g : Bool) (a b : List Char) :
    barsGuarded g (a ++ b) = (barsGuarded g a && barsGuarded (guards g a) b) := by
  induction a generalizing g with
  | nil => simp [barsGuarded, guards]
  | cons c a ih => rw [List.cons_append, barsGuarded, barsGuarded, guards, ih, Bool.and_assoc]

theorem guards_append (g : Bool) (a b : List Char) : guards g (a ++ b) = guards (guards g a) b := by
  induction a generalizing g with
  | nil => rfl
  | cons c a ih => exact ih _

theorem barsGuarded_of_notMem (h : '|' ∉ s) : barsGuarded g s = true := by
  induction s generalizing g with
  | nil => rfl
  | cons c s ih =>
    rw [List.mem_cons, not_or] at h
    rw [barsGuarded, ih h.2, Bool.and_true, bne_iff_ne.mpr (Ne.symm h.1), Bool.true_or]

/-- A text whose bars are guarded, whatever stands before it, and that guards no bar after it. -/
def Neutral (s : List Char) : Prop := ∀ g, barsGuarded g s = true ∧ guards g s = false

instance : DecidablePred Neutral := fun s =>
  inferInstanceAs (Decidable (∀ g, barsGuarded g s = true ∧ guards g s = false))

theorem barsGuarded_append_neutral (h : Neutral s) (g : Bool) (a b : List Char) :
    barsGuarded g (a ++ s ++ b) = (barsGuarded g a && barsGuarded false b) := by
  rw [barsGuarded_append, barsGuarded_append, guards_append, (h _).1, (h _).2, Bool.and_true]

/-- Bars keep their guards when a text that is neutral is replaced by another one. -/
theorem barsGuarded_replaceAll (hne : pattern ≠ []) (hpattern : Neutral pattern) (hnew : Neutral new) (g : Bool)
    (s : List Char) : barsGuarded g (replaceAll pattern new s) = barsGuarded g s := by
  -- before and after, the same pieces stand between neutral texts
  obtain ⟨found, hfound⟩ := exists_splits hne s
  rw [replaceAll_eq_intercalate, hfound.pieces_eq hne]
  induction hfound generalizing g with
  | whole => rw [List.intercalate_singleton]
  | @cut a s rest hfirst hrest ih =>
    have hne' : rest ≠ [] := hrest.pieces_eq hne ▸ piecesFrom_ne_nil pattern 0 s
    obtain ⟨piece, rest, rfl⟩ := List.exists_cons_of_ne_nil hne'
    rw [List.intercalate_cons_cons, barsGuarded_append_neutral hnew, barsGuarded_append_neutral hpattern, ih]

/-- A text that stands in a row as it is. -/
def FitsCell (t : String) : Prop := '\n' ∉ t.toList ∧ barsGuarded false t.toList = true

instance : DecidablePred FitsCell := fun _ => inferInstanceAs (Decidable (_ ∧ _))

theorem fitsCell_of_notMem (hline : '\n' ∉ t.toList) (hbar : '|' ∉ t.toList) : FitsCell t :=
  ⟨hline, barsGuarded_of_notMem hbar⟩

section Around
variable {around : String}

/-- What is put around texts of the schema. -/
def IsFrame (around : String) : Prop := '\n' ∉ around.toList ∧ Neutral around.toList

instance : DecidablePred IsFrame := fun _ => inferInstanceAs (Decidable (_ ∧ _))

theorem fitsCell_between (h : IsFrame around) : FitsCell (t ++ around ++ u) ↔ FitsCell t ∧ FitsCell u := by
  simp only [FitsCell, String.toList_append, List.mem_append, not_or, barsGuarded_append_neutral h.2, Bool.and_eq_true,
    h.1, not_false_eq_true, and_true]
  exact and_and_and_comm

theorem fitsCell_append_frame (h : IsFrame around) : FitsCell (t ++ around) ↔ FitsCell t := by
  have hempty : FitsCell "" := by decide
  simpa [hempty] using fitsCell_between (t := t) (u := "") h

theorem fitsCell_frame_append (h : IsFrame around) : FitsCell (around ++ t) ↔ FitsCell t := by
  have hempty : FitsCell "" := by decide
  simpa [hempty] using fitsCell_between (t := "") (u := t) h

end Around

section Rows
variable {cells : List String}

/-- A row of a table. -/
def row (cells : List String) : String := "| " ++ joinWith " | " cells ++ " |"

/-- A text between the blanks that separate it from the bars. -/
def cell (t : String) : List Char := ' ' :: t.toList ++ [' ']

theorem barsGuarded_cell (t : String) : barsGuarded false (cell t) = barsGuarded false t.toList := by
  rw [cell, barsGuarded_append, barsGuarded_of_notMem (s := [' ']) (by decide), Bool.and_true]
  rfl

/-- A row falls apart at the bars around its cells and wherever a cell does. -/
theorem splitBars_row (h : cells ≠ []) : splitBars false (row cells).toList =
    [] :: cells.flatMap (fun t => splitBars false (cell t)) ++ [[]] := by
  have hrest : splitBars false (' ' :: (joinWith " | " cells).toList ++ [' ', '|']) =
      cells.flatMap (fun t => splitBars false (cell t)) ++ [[]] := by
    -- the blank after a cell leaves the next bar unguarded, whatever the cell ends in
    induction cells with
    | nil => exact absurd rfl h
    | cons t rest ih =>
      cases rest with
      | nil =>
        rw [joinWith, String.intercalate_singleton, splitBars_append_blank_bar, List.flatMap_singleton]
        rfl
      | cons u rest =>
        have hjoin : ' ' :: (joinWith " | " (t :: u :: rest)).toList ++ [' ', '|'] =
            (' ' :: t.toList) ++ ' ' :: '|' :: (' ' :: (joinWith " | " (u :: rest)).toList ++ [' ', '|']) := by
          simp [joinWith, String.intercalate_cons_cons]
        rw [hjoin, splitBars_append_blank_bar, ih (List.cons_ne_nil u rest), ← List.append_assoc]
        rfl
  have hrow : (row cells).toList = '|' :: (' ' :: (joinWith " | " cells).toList ++ [' ', '|']) := by
    simp [row]
  rw [hrow, splitBars, if_pos ⟨rfl, rfl⟩, hrest]
  rfl

theorem splitBars_row_of_fitsCell (hne : cells ≠ []) (h : ∀ t ∈ cells, FitsCell t) :
    splitBars false (row cells).toList = [] :: cells.map cell ++ [[]] := by
  rw [splitBars_row hne, List.map_eq_flatMap]
  congr 2
  apply List.flatMap_congr
  intro t ht
  exact splitBars_of_barsGuarded ((barsGuarded_cell t).trans (h t ht).2)

theorem lines_row_eq_singleton_iff :
    lines (row cells) = [(row cells).toList] ↔ ∀ t ∈ cells, '\n' ∉ t.toList := by
  have hjoin : '\n' ∈ (joinWith " | " cells).toList ↔ ∃ t ∈ cells, '\n' ∈ t.toList :=
    mem_joinWith_iff (by decide)
  have hrow : '\n' ∈ (row cells).toList ↔ '\n' ∈ (joinWith " | " cells).toList := by simp [row]
  rw [lines_eq_singleton_iff, hrow, hjoin]
  push Not
  rfl

/-- A row has as many pieces as cells when no cell falls apart. -/
theorem length_pieces_eq_iff :
    (cells.flatMap fun t => splitBars false (cell t)).length = cells.length ↔
      ∀ t ∈ cells, barsGuarded false t.toList = true := by
  rw [length_flatMap_eq_iff fun t _ => splitBars_ne_nil false (cell t)]
  refine forall₂_congr fun t _ => ?_
  rw [length_splitBars_eq_one_iff, barsGuarded_cell]

/-- A row stays one line with as many cells as it was made of exactly when all its texts fit. -/
theorem row_stays_iff (hne : cells ≠ []) :
    lines (row cells) = [(row cells).toList] ∧ (splitBars false (row cells).toList).length = cells.length + 2 ↔
      ∀ t ∈ cells, FitsCell t := by
  have hlength : (splitBars false (row cells).toList).length = cells.length + 2 ↔
      (cells.flatMap fun t => splitBars false (cell t)).length = cells.length := by
    rw [splitBars_row hne, List.length_append, List.length_cons, List.length_singleton]
    omega
  rw [lines_row_eq_singleton_iff, hlength, length_pieces_eq_iff, ← forall₂_and]
  rfl

end Rows

section Escape

/-- A text with a backslash before each of its bars. -/
def escapeBars (t : String) : List Char := replaceAll ['|'] "\\|".toList t.toList

theorem escapeBars_eq (t : String) :
    escapeBars t = t.toList.flatMap fun c => if c = '|' then ['\\', '|'] else [c] :=
  replaceFrom_singleton '|' ['\\', '|'] t.toList

theorem barsGuarded_escapeBars (t : String) : barsGuarded g (escapeBars t) = true := by
  rw [escapeBars_eq]
  induction t.toList generalizing g with
  | nil => rfl
  | cons c s ih =>
    rw [List.flatMap_cons]
    split
    · exact ih
    · rename_i hbar
      rw [List.singleton_append, barsGuarded, ih, bne_iff_ne.mpr hbar]
      rfl

/-- Only a text without bars is escaped as it is. -/
theorem escapeBars_eq_self_iff : escapeBars t = t.toList ↔ '|' ∉ t.toList := by
  have hlength : (escapeBars t).length = t.toList.length + t.toList.count '|' := by
    rw [escapeBars_eq]
    induction t.toList with
    | nil => rfl
    | cons c s ih =>
      rw [List.flatMap_cons, List.length_append, ih, List.length_cons, List.count_cons]
      by_cases hbar : c = '|'
      · rw [if_pos hbar, if_pos (beq_iff_eq.mpr hbar)]
        simp only [List.length_cons, List.length_nil]
        omega
      · rw [if_neg hbar, if_neg (by simpa using hbar)]
        simp only [List.length_cons, List.length_nil]
        omega
  constructor
  · intro h
    rw [h] at hlength
    exact List.count_eq_zero.mp (by omega)
  · intro h
    have hnot : ¬ ['|'] <:+: t.toList := fun hbar => h (hbar.subset (List.mem_singleton.mpr rfl))
    exact replaceAll_eq_self hnot _

/-- Escaping makes any text fit. -/
theorem fitsCell_escapeCell (t : String) : FitsCell (escapeCell t) := by
  have hbars : barsGuarded false (escapeCell t).toList = true := by
    rw [escapeCell, String.toList_ofList, barsGuarded_replaceAll (List.cons_ne_nil _ _) (by decide) (by decide),
      barsGuarded_replaceAll (by decide) (by decide) (by decide)]
    exact barsGuarded_escapeBars t
  refine ⟨?_, hbars⟩
  rw [escapeCell, String.toList_ofList, replaceAll, replaceFrom_singleton, List.mem_flatMap]
  rintro ⟨c, _, hc⟩
  split at hc
  · revert hc
    decide
  · rename_i hline
    exact hline (List.mem_singleton.mp hc).symm

end Escape

end SchemaTables.Text
