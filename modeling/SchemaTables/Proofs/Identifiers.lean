import SchemaTables.Identifiers
import SchemaTables.Proofs.Check.Column
import SchemaTables.Proofs.Csv.RoundTrip
import SchemaTables.Proofs.Files.Content
import SchemaTables.Proofs.Ordered

/-!
Identifier tables are read back. The table that is made of several tables has the identifiers in their
first columns, each of them once and in the order of their bytes, and the table that is made of it alone
is the same. Nothing is written before all tables have been read.
-/

namespace SchemaTables

set_option autoImplicit false

open Text.Utf8 (encode)

variable {s s' m : Store} {p output : Path} {inputs : List Path} {title : String} {ids : List String}
  {columns : List (List String)}

namespace Identifiers

theorem isTable_table (h : title.toList.head? ≠ some '\ufeff') :
    Csv.IsTable (encode (table title ids)) [title] (ids.map fun id => [id]) := Csv.isTable_dataRecords ids h

theorem cellsAt_zero (ids : List String) : Csv.cellsAt 0 (ids.map fun id => [id]) = ids := by
  rw [Csv.cellsAt, List.map_map]
  exact List.map_id ids

/-- The identifiers are found under the title. -/
theorem column_table (p : Path) (h : title.toList.head? ≠ some '\ufeff') :
    Csv.column p title (encode (table title ids)) = .ok ids := by
  have htitle : [title].idxOf? title = some 0 := by simp [List.idxOf?]
  exact Csv.column_eq_ok_iff.mpr ⟨[title], _, 0, isTable_table h, htitle, (cellsAt_zero ids).symm⟩

/-- The identifiers are the first column, whatever the title. -/
theorem firstColumn_table (p : Path) (h : title.toList.head? ≠ some '\ufeff') :
    Csv.firstColumn p (encode (table title ids)) = .ok ids := by
  rw [(isTable_table h).firstColumn_eq (List.cons_ne_nil _ _), cellsAt_zero]

theorem mem_ofColumns {v : String} : v ∈ ofColumns columns ↔ Text.allBlank v = false ∧ ∃ cells ∈ columns, v ∈ cells := by
  rw [ofColumns, Ordered.mem_ofList_iff, List.mem_filter, List.mem_flatten, and_comm, Bool.not_eq_true']

theorem increasing_ofColumns (columns : List (List String)) : Ordered.Increasing compare (ofColumns columns) :=
  Ordered.increasing_ofList _

/-- The identifiers of a table of identifiers are those it was made of. -/
theorem ofColumns_singleton : ofColumns [ofColumns columns] = ofColumns columns := by
  refine Ordered.ofList_eq_ofList_iff.mpr fun v => ?_
  have hmem : v ∈ ofColumns columns ↔ _ := mem_ofColumns
  rw [List.mem_filter, List.mem_filter, List.flatten_singleton, hmem, List.mem_flatten, Bool.not_eq_true']
  exact ⟨fun h => ⟨h.1.2, h.2⟩, fun h => ⟨⟨h.2, h.1⟩, h.2⟩⟩

end Identifiers

namespace Check

/-- Reading a first column changes nothing. -/
theorem readFirstColumn_run (s : Store) (p : Path) : (readFirstColumn p).run.run s =
    ((s.read p).mapError (.ofFile p) >>= Csv.firstColumn p, s) := by
  have hread : (Task.request (.ofFile p) (.read p) : Task TableError Bytes).run.run s =
      ((s.read p).mapError (.ofFile p), s) := rfl
  unfold readFirstColumn
  rw [Task.run_bind, hread]
  cases s.read p with
  | error e => rfl
  | ok content =>
    change ((Csv.firstColumn p content).mapError id, s) = (Csv.firstColumn p content, s)
    cases Csv.firstColumn p content <;> rfl

theorem readFirstColumn_returns_iff {cells : List String} : (readFirstColumn p).Returns s cells s ↔
    ((s.read p).mapError (.ofFile p) >>= Csv.firstColumn p) = .ok cells := by
  unfold Task.Returns
  rw [readFirstColumn_run, Prod.mk.injEq, and_iff_left rfl]

end Check

namespace Identifiers

/-- All first columns are read on the store as it is. -/
theorem readColumns_run (s : Store) (inputs : List Path) :
    (inputs.mapM fun p => (Check.readFirstColumn p).lift IdentifierError.table).run.run s =
      (inputs.mapM fun p => ((s.read p).mapError (.ofFile p) >>= Csv.firstColumn p).mapError .table, s) := by
  refine Task.mapM_run fun p _ => ?_
  refine (Script.run_bind _ _ _).trans ?_
  rw [Check.readFirstColumn_run]
  rfl

theorem unite_returns_iff {o : IdentifierSummary} : (unite inputs output title).Returns s o s' ↔
    ∃ columns m, List.Forall₂ (fun p cells => (Check.readFirstColumn p).Returns s cells s) inputs columns ∧
      (Files.makeParent output).Returns s () m ∧
      (Files.writeText output (table title (ofColumns columns))).Returns m () s' ∧
      o = ⟨output, inputs.length, (ofColumns columns).length⟩ := by
  have hcolumns : ∀ columns m, (inputs.mapM fun p => (Check.readFirstColumn p).lift IdentifierError.table).Returns
      s columns m ↔ s = m ∧
        List.Forall₂ (fun p cells => (Check.readFirstColumn p).Returns s cells s) inputs columns := by
    intro columns m
    unfold Task.Returns
    rw [readColumns_run, Prod.mk.injEq, Except.mapM_eq_ok_iff, and_comm]
    simp only [Except.mapError_eq_ok_iff, ← Check.readFirstColumn_returns_iff]
    rfl
  simp only [unite, Task.returns_bind_iff, Task.returns_wrap_iff, Task.returns_pure_iff, hcolumns]
  constructor
  · rintro ⟨columns, _, ⟨rfl, hread⟩, _, m, hparent, _, _, hwrite, rfl, rfl⟩
    exact ⟨columns, m, hread, hparent, hwrite, rfl⟩
  · rintro ⟨columns, m, hread, hparent, hwrite, rfl⟩
    exact ⟨columns, s, ⟨rfl, hread⟩, (), m, hparent, (), s', hwrite, rfl, rfl⟩

/-- Nothing is written when one of the tables cannot be read. -/
theorem unite_run_of_unreadable (hp : p ∈ inputs) (h : ∀ cells, ¬ (Check.readFirstColumn p).Returns s cells s) :
    ∃ e, (unite inputs output title).run.run s = (.error (.table e), s) := by
  unfold unite
  rw [Task.run_bind, readColumns_run]
  cases hcolumns : inputs.mapM fun p =>
      ((s.read p).mapError (.ofFile p) >>= Csv.firstColumn p).mapError IdentifierError.table with
  | ok columns =>
    obtain ⟨cells, _, hcells⟩ := (Except.mapM_eq_ok_iff.mp hcolumns).exists_of_mem_left hp
    rw [Except.mapError_eq_ok_iff, ← Check.readFirstColumn_returns_iff] at hcells
    exact absurd hcells (h cells)
  | error e =>
    obtain ⟨_, _, he⟩ := Except.exists_of_mapM_eq_error hcolumns
    obtain ⟨cause, _, rfl⟩ := Except.mapError_eq_error_iff.mp he
    exact ⟨cause, rfl⟩

/-- The table of identifiers that is made holds, under its title, the identifiers of all inputs in the order
of their bytes, each of them once, as many as are told of; and made anew of itself alone it is the same.
When an input cannot be read nothing is changed. -/
theorem unite_reads_back (h : title.toList.head? ≠ some '\ufeff') (s : Store) (inputs : List Path) (output : Path) :
    (∀ o s', (unite inputs output title).Returns s o s' → ∃ ids, (Check.readColumn output title).Returns s' ids s' ∧
      ids.Pairwise (fun a b => encode a < encode b) ∧
      (∀ v, v ∈ ids ↔ Text.allBlank v = false ∧
        ∃ p ∈ inputs, ∃ cells, (Check.readFirstColumn p).Returns s cells s ∧ v ∈ cells) ∧
      o.identifiers = ids.length ∧
      (∃ o' s'', (unite [output] output title).Returns s' o' s'') ∧
      ∀ target o' s'', (unite [output] target title).Returns s' o' s'' → s''.read target = s'.read output) ∧
    ((∃ p ∈ inputs, ∀ cells, ¬ (Check.readFirstColumn p).Returns s cells s) →
      ∃ e, (unite inputs output title).run.run s = (.error (.table e), s)) := by
  refine ⟨?_, fun ⟨p, hp, hunread⟩ => unite_run_of_unreadable hp hunread⟩
  intro o s' hunite
  obtain ⟨columns, m, hcolumns, _, hwrite, rfl⟩ := unite_returns_iff.mp hunite
  have hread := Files.read_writeText hwrite
  have hlocate := Store.read_eq_ok_iff.mp hread
  have hfirst : (Check.readFirstColumn output).Returns s' (ofColumns columns) s' := by
    rw [Check.readFirstColumn_returns_iff, hread]
    exact firstColumn_table output h
  have hunique : ∀ {p cells cells'} {n : Store}, (Check.readFirstColumn p).Returns n cells n →
      (Check.readFirstColumn p).Returns n cells' n → cells = cells' := fun hcells hcells' =>
    Except.ok.inj (congrArg Prod.fst (hcells.symm.trans hcells'))
  refine ⟨ofColumns columns, ?_, ?_, fun v => ?_, rfl, ?_, ?_⟩
  · obtain ⟨r, hr, hfound⟩ := Check.readColumn_run s' output title
    rw [(hfound _).mpr ⟨_, hread, column_table output h⟩] at hr
    exact hr
  · exact (increasing_ofColumns columns).imp Text.Utf8.encode_lt_encode
  · rw [mem_ofColumns]
    refine and_congr_right fun _ => ⟨?_, ?_⟩
    · rintro ⟨cells, hcells, hv⟩
      obtain ⟨p, hp, hread⟩ := hcolumns.exists_of_mem_right hcells
      exact ⟨p, hp, cells, hread, hv⟩
    · rintro ⟨p, hp, cells, hread, hv⟩
      obtain ⟨cells', hcells', hread'⟩ := hcolumns.exists_of_mem_left hp
      exact ⟨cells', hcells', hunique hread hread' ▸ hv⟩
  · obtain ⟨s'', hagain⟩ := Files.writeText_again hwrite (table title (ofColumns [ofColumns columns]))
    exact ⟨_, s'', unite_returns_iff.mpr ⟨_, s', .cons hfirst .nil, Files.makeParent_of_locate hlocate, hagain, rfl⟩⟩
  · intro target o' s'' hagain
    obtain ⟨columns', _, hcolumns', _, hwrite', _⟩ := unite_returns_iff.mp hagain
    cases hcolumns' with
    | cons hcells hnil =>
      cases hnil
      rw [← hunique hfirst hcells, ofColumns_singleton] at hwrite'
      rw [hread, Files.read_writeText hwrite']

/-- A ragged table with a comma, spaces and an empty line in its first column, and the table to be made. -/
def labelStore : Store where
  items := [(["a.csv"], .file (encode "id,x\n\"b,1\",2,3\n z \n\n\"\"\"\",4\n")),
    (["out.csv"], .file (encode "k\n z \nc\n"))]

theorem unite_reads_back_labels : ∃ o s', (unite [⟨"a.csv"⟩, ⟨"out.csv"⟩] ⟨"out.csv"⟩ "").Returns labelStore o s' ∧
    ∃ ids, (Check.readColumn ⟨"out.csv"⟩ "").Returns s' ids s' ∧ ids.length = 4 ∧ "\"" ∈ ids ∧ " z " ∈ ids := by
  have hrun : ((unite [⟨"a.csv"⟩, ⟨"out.csv"⟩] ⟨"out.csv"⟩ "").run.run labelStore).1.toOption.any
      (·.identifiers == 4) = true := by decide +kernel
  obtain ⟨o, s', hreturns, hcount⟩ := Task.exists_returns hrun
  have htitle : "".toList.head? ≠ some '\ufeff' := by decide
  obtain ⟨ids, hread, _, hmem, hlength, _⟩ := (unite_reads_back htitle labelStore _ _).1 o s' hreturns
  have hcells : (Check.readFirstColumn ⟨"a.csv"⟩).Returns labelStore ["b,1", " z ", "\""] labelStore :=
    Check.readFirstColumn_returns_iff.mpr (by decide +kernel)
  have hin : ∀ v ∈ ["b,1", " z ", "\""], v ∈ ids := fun v hv =>
    (hmem v).mpr ⟨by revert v; decide, ⟨"a.csv"⟩, by simp, _, hcells, hv⟩
  exact ⟨o, s', hreturns, ids, hread, by rw [← hlength]; exact eq_of_beq hcount, hin _ (by simp), hin _ (by simp)⟩

end Identifiers

end SchemaTables
