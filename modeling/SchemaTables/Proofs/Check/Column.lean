import SchemaTables.Check.Column
import SchemaTables.Proofs.Files.Frame
import SchemaTables.Proofs.Ordered

/-!
What a check of two columns finds. The columns are those of the files as they are when the check runs;
the check passes when every value of the child that is not blank is a cell of the parent.
-/

namespace SchemaTables

set_option autoImplicit false

namespace Store

variable {s s' : Store} {p : Path} {title : String} {cells cells' : List String}

/-- The file holds a table with the header and the rows. -/
def HasTable (s : Store) (p : Path) (header : List String) (rows : List (List String)) : Prop :=
  ∃ content, s.read p = .ok content ∧ Csv.header (Csv.scan content) = .ok header ∧
    Csv.rows false (Csv.scan content) = .ok rows

/-- The file holds a table whose first column with the heading has the cells. -/
def HasColumn (s : Store) (p : Path) (title : String) (cells : List String) : Prop :=
  ∃ content, s.read p = .ok content ∧ Csv.column p title content = .ok cells

theorem HasColumn.unique (h : s.HasColumn p title cells) (h' : s.HasColumn p title cells') :
    cells = cells' := by
  obtain ⟨content, hread, hcolumn⟩ := h
  obtain ⟨content', hread', hcolumn'⟩ := h'
  cases hread.symm.trans hread'
  exact Except.ok.inj (hcolumn.symm.trans hcolumn')

theorem HasColumn.forall_iff {P : List String → Prop} (h : s.HasColumn p title cells) :
    (∀ found, s.HasColumn p title found → P found) ↔ P cells := by
  constructor
  · intro hall
    exact hall cells h
  · intro hcells found hfound
    exact h.unique hfound ▸ hcells

theorem HasColumn.keeps {written : Location → Prop} (h : s.HasColumn p title cells)
    (hkeeps : s.Keeps written s') (hfree : ¬ written (s.destination p)) : s'.HasColumn p title cells := by
  obtain ⟨content, hread, hcolumn⟩ := h
  exact ⟨content, hkeeps.read hread hfree, hcolumn⟩

theorem HasTable.unique {header header' : List String} {rows rows' : List (List String)}
    (h : s.HasTable p header rows) (h' : s.HasTable p header' rows') : header = header' ∧ rows = rows' := by
  obtain ⟨content, hread, hheader, hrows⟩ := h
  obtain ⟨content', hread', hheader', hrows'⟩ := h'
  cases hread.symm.trans hread'
  exact ⟨Except.ok.inj (hheader.symm.trans hheader'), Except.ok.inj (hrows.symm.trans hrows')⟩

theorem HasTable.column {header : List String} {rows : List (List String)} {i : Nat}
    (h : s.HasTable p header rows) (hi : header.idxOf? title = some i) :
    s.HasColumn p title (Csv.cellsAt i rows) := by
  obtain ⟨content, hread, hheader, hrows⟩ := h
  refine ⟨content, hread, ?_⟩
  rw [Csv.column, hheader, hrows]
  simp only [Except.mapError]
  refine Except.bind_eq_ok_iff.mpr ⟨header, rfl, ?_⟩
  rw [hi]
  exact Except.bind_eq_ok_iff.mpr ⟨rows, rfl, rfl⟩

end Store

namespace Check

theorem missingValues_eq_nil_iff {separator : Option String} {child parent : List String} :
    missingValues separator child parent = [] ↔ ∀ cell ∈ child, ∀ value ∈ cellValues separator cell,
      Text.allBlank value = false → value ∈ parent := by
  simp only [List.eq_nil_iff_forall_not_mem, missingValues, Ordered.mem_ofList_iff, List.mem_filter,
    List.mem_flatMap, Bool.and_eq_true, Bool.not_eq_true', List.contains_eq_mem, decide_eq_false_iff_not]
  constructor
  · intro h cell hcell value hvalue hblank
    exact Decidable.byContradiction fun hnot => h value ⟨⟨cell, hcell, hvalue⟩, hblank, hnot⟩
  · rintro h value ⟨⟨cell, hcell, hvalue⟩, hblank, hnot⟩
    exact hnot (h cell hcell value hvalue hblank)

/-- Reading a column changes nothing. -/
theorem readColumn_run (s : Store) (p : Path) (title : String) :
    ∃ r, (readColumn p title).run.run s = (r, s) ∧
      ∀ cells, r = .ok cells ↔ s.HasColumn p title cells := by
  have hread : (Task.request (.ofFile p) (.read p) : Task TableError Bytes).run.run s =
      ((s.read p).mapError (.ofFile p), s) := rfl
  unfold readColumn Store.HasColumn
  rw [Task.run_bind, hread]
  cases s.read p with
  | error e => exact ⟨_, rfl, by simp⟩
  | ok content =>
    refine ⟨_, rfl, fun cells => ?_⟩
    simp [Except.mapError_eq_ok_iff]

/-- A check changes nothing, and finds what the two columns say. -/
theorem columns_run (s : Store) (p q : Path) (title title' : String) (separator : Option String) :
    ∃ r, (columns p title q title' separator).run.run s = (r, s) ∧
      ∀ outcome, r = .ok outcome ↔ ∃ child parent, s.HasColumn p title child ∧ s.HasColumn q title' parent ∧
        outcome = ⟨p, title, q, title', missingValues separator child parent⟩ := by
  obtain ⟨parent?, hparent, hparent_iff⟩ := readColumn_run s q title'
  obtain ⟨child?, hchild, hchild_iff⟩ := readColumn_run s p title
  unfold columns
  rw [Task.run_bind, hparent]
  simp only [← hparent_iff, ← hchild_iff]
  cases parent? with
  | error e => exact ⟨_, rfl, by simp⟩
  | ok parent =>
    simp only
    rw [Task.run_bind, hchild]
    cases child? with
    | error e => exact ⟨_, rfl, by simp⟩
    | ok child =>
      refine ⟨_, rfl, fun outcome => ?_⟩
      simp [eq_comm]

variable {s : Store} {p q : Path} {title title' : String} {separator : Option String}

theorem columns_run_of_hasColumn (separator : Option String) {child parent : List String} (hchild : s.HasColumn p title child)
    (hparent : s.HasColumn q title' parent) : (columns p title q title' separator).run.run s =
      (.ok ⟨p, title, q, title', missingValues separator child parent⟩, s) := by
  obtain ⟨r, hr, hr_iff⟩ := columns_run s p q title title' separator
  rw [hr, (hr_iff _).mpr ⟨child, parent, hchild, hparent, rfl⟩]

theorem columns_run_of_missing
    (h : ¬ ∃ child parent, s.HasColumn p title child ∧ s.HasColumn q title' parent) :
    ∃ e, (columns p title q title' separator).run.run s = (.error e, s) := by
  obtain ⟨r, hr, hr_iff⟩ := columns_run s p q title title' separator
  cases r with
  | error e => exact ⟨e, hr⟩
  | ok outcome =>
    obtain ⟨child, parent, hchild, hparent, _⟩ := (hr_iff outcome).mp rfl
    exact absurd ⟨child, parent, hchild, hparent⟩ h

end Check

end SchemaTables
