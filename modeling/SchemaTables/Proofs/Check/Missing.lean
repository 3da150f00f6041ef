import SchemaTables.Proofs.Check.Column
import SchemaTables.Proofs.Csv.Table
import SchemaTables.Proofs.Text.Pieces

/-!
What a check misses, told on the bytes of the two files. The cells are those of the tables that the files are; the
pieces of a cell are what stands between the occurrences of the separator.
-/

namespace SchemaTables

set_option autoImplicit false

open Text.Utf8 (encode)

namespace Store

/-- The file is a table that has the value in a row, at the first place with the title. -/
def HasCell (s : Store) (p : Path) (title value : String) : Prop :=
  ∃ content header rows i, s.read p = .ok content ∧ Csv.IsTable content header rows ∧
    header.idxOf? title = some i ∧ ∃ row ∈ rows, row[i]? = some value

variable {s : Store} {p : Path} {title value : String} {cells : List String}

theorem hasColumn_iff : s.HasColumn p title cells ↔ ∃ content header rows i, s.read p = .ok content ∧
    Csv.IsTable content header rows ∧ header.idxOf? title = some i ∧ cells = Csv.cellsAt i rows := by
  unfold HasColumn
  simp only [Csv.column_eq_ok_iff, exists_and_left]

theorem HasColumn.mem_iff (h : s.HasColumn p title cells) : value ∈ cells ↔ s.HasCell p title value := by
  obtain ⟨content, header, rows, i, hread, htable, hi, rfl⟩ := hasColumn_iff.mp h
  rw [htable.mem_cellsAt_iff hi]
  constructor
  · intro hrow
    exact ⟨content, header, rows, i, hread, htable, hi, hrow⟩
  · rintro ⟨content', header', rows', i', hread', htable', hi', hrow⟩
    cases hread.symm.trans hread'
    obtain ⟨rfl, rfl⟩ := htable.unique htable'
    cases hi.symm.trans hi'
    exact hrow

end Store

namespace Check

/-- The value is a piece of the cell, which is whole where the separator is absent or empty. -/
def IsPiece (separator : Option String) (cell value : String) : Prop :=
  if separator.getD "" = "" then value = cell
  else ∃ pieces, Text.Splits (separator.getD "").toList cell.toList pieces ∧ value.toList ∈ pieces

variable {s : Store} {p q : Path} {title title' cell value : String} {child parent : List String}
  {separator : Option String}

theorem mem_cellValues_iff : value ∈ cellValues separator cell ↔ IsPiece separator cell value := by
  unfold cellValues IsPiece
  cases separator with
  | none => simp
  | some sep =>
    by_cases hempty : sep = ""
    · simp [hempty]
    · have hsep : sep.toList ≠ [] := by rwa [ne_eq, String.toList_eq_nil_iff]
      simp only [Option.getD_some, String.isEmpty_iff, hempty, if_false, Text.splits_iff hsep, exists_eq_left',
        List.mem_map]
      constructor
      · rintro ⟨piece, hpiece, rfl⟩
        rw [String.toList_ofList]
        exact hpiece
      · intro hvalue
        exact ⟨value.toList, hvalue, String.ofList_toList⟩

theorem mem_missingValues_iff : value ∈ missingValues separator child parent ↔
    Text.allBlank value = false ∧ value ∉ parent ∧ ∃ cell ∈ child, IsPiece separator cell value := by
  unfold missingValues
  rw [Ordered.mem_ofList_iff, List.mem_filter, List.mem_flatMap, Bool.and_eq_true, Bool.not_eq_true',
    Bool.not_eq_true', List.contains_eq_mem, decide_eq_false_iff_not, and_comm, and_assoc]
  simp only [mem_cellValues_iff]

theorem increasing_missingValues (separator : Option String) (child parent : List String) :
    (missingValues separator child parent).Pairwise fun v w => encode v < encode w :=
  (Ordered.increasing_ofList _).imp Text.Utf8.encode_lt_encode

theorem readColumn_returns_iff {cells : List String} :
    (readColumn p title).Returns s cells s ↔ s.HasColumn p title cells := by
  obtain ⟨r, hr, hiff⟩ := readColumn_run s p title
  unfold Task.Returns
  rw [hr, Prod.mk.injEq, and_iff_left rfl, hiff]

/-- A column is read when the file is a table and the title is in its header. -/
theorem exists_readColumn_returns_iff : (∃ cells, (readColumn p title).Returns s cells s) ↔
    ∃ content header rows, s.read p = .ok content ∧ Csv.IsTable content header rows ∧ title ∈ header := by
  simp only [readColumn_returns_iff, Store.hasColumn_iff]
  constructor
  · rintro ⟨_, content, header, rows, i, hread, htable, hi, _⟩
    exact ⟨content, header, rows, hread, htable, List.isSome_idxOf?.mp (by rw [hi]; rfl)⟩
  · rintro ⟨content, header, rows, hread, htable, hmem⟩
    obtain ⟨i, hi⟩ := Option.isSome_iff_exists.mp (List.isSome_idxOf?.mpr hmem)
    exact ⟨_, content, header, rows, i, hread, htable, hi, rfl⟩

/-- Where both columns can be read the check finds the pieces of the child that are not blank and no cells of the
parent. -/
theorem columns_returns_missing (hchild : ∃ child, (readColumn p title).Returns s child s)
    (hparent : ∃ parent, (readColumn q title').Returns s parent s) (separator : Option String) :
    ∃ outcome : CheckOutcome, (columns p title q title' separator).Returns s outcome s ∧
      outcome.missing.Pairwise (fun v w => encode v < encode w) ∧
      (∀ v, v ∈ outcome.missing ↔ Text.allBlank v = false ∧ ¬ s.HasCell q title' v ∧
        ∃ cell, s.HasCell p title cell ∧ IsPiece separator cell v) ∧
      (outcome.passed = true ↔ ∀ cell, s.HasCell p title cell → ∀ v, IsPiece separator cell v →
        Text.allBlank v = false → s.HasCell q title' v) := by
  obtain ⟨child, hchild⟩ := hchild
  obtain ⟨parent, hparent⟩ := hparent
  rw [readColumn_returns_iff] at hchild hparent
  refine ⟨_, columns_run_of_hasColumn separator hchild hparent, increasing_missingValues _ _ _, ?_, ?_⟩
  · intro v
    simp only [mem_missingValues_iff, hchild.mem_iff, hparent.mem_iff]
  · simp only [CheckOutcome.passed, List.isEmpty_iff, missingValues_eq_nil_iff, mem_cellValues_iff, hchild.mem_iff,
      hparent.mem_iff]

/-- A separator that overlaps itself, a line end in quotes, an empty line and a blank piece. -/
def pieceStore : Store where
  items := [(["parent.csv"], .file (encode "id,note\na,x\n")),
    (["child.csv"], .file (encode "key,ref,ref\r\nk,\"a---b--  --\r\nc\",d\r\n\r\nl,a,e"))]

theorem columns_returns_missing_pieces : ∃ outcome : CheckOutcome,
    (columns ⟨"child.csv"⟩ "ref" ⟨"parent.csv"⟩ "id" (some "--")).Returns pieceStore outcome pieceStore ∧
      "-b" ∈ outcome.missing ∧ "\r\nc" ∈ outcome.missing ∧ "  " ∉ outcome.missing ∧ "a" ∉ outcome.missing ∧
      "d" ∉ outcome.missing := by
  have hchild : pieceStore.HasColumn ⟨"child.csv"⟩ "ref" ["a---b--  --\r\nc", "a"] := ⟨_, rfl, by decide +kernel⟩
  have hparent : pieceStore.HasColumn ⟨"parent.csv"⟩ "id" ["a"] := ⟨_, rfl, by decide +kernel⟩
  obtain ⟨outcome, hreturns, _, hmem, _⟩ := columns_returns_missing ⟨_, readColumn_returns_iff.mpr hchild⟩
    ⟨_, readColumn_returns_iff.mpr hparent⟩ (some "--")
  simp only [← hchild.mem_iff, ← hparent.mem_iff, ← mem_cellValues_iff] at hmem
  refine ⟨outcome, hreturns, ?_⟩
  simp only [hmem]
  decide +kernel

end Check

end SchemaTables
