import SchemaTables.Check.Column
import SchemaTables.Proofs.Csv.Grammar
import SchemaTables.Proofs.Except
import SchemaTables.Proofs.Text.Utf8

/-!
Tables of texts. A column is read from a file when the file is a table of texts, every row with as many fields as the
header, and the title is in the header; what is read are the fields of the rows at the first place with the title.
-/

namespace SchemaTables.Csv

set_option autoImplicit false

open Text.Utf8 (encode)

variable {r : RawRecord} {rest raw : List RawRecord} {texts header : List String} {rows : List (List String)}
  {ragged : Bool}

theorem texts_eq_ok_iff (number : Nat) : r.texts number = .ok texts ↔ r.fields = texts.map encode := by
  have hfield : ∀ (field : Bytes) (text : String) (index : Nat), ((Text.Utf8.decode field).mapError fun place =>
      RecordError.notText number r.line r.byte index place) = .ok text ↔ field = encode text := by
    intro field text index
    rw [Except.mapError_eq_ok_iff, Text.Utf8.decode_eq_ok_iff]
  unfold RawRecord.texts
  rw [Except.mapM_zipIdx_eq_ok_iff hfield]
  refine List.Forall₂.map_eq_map_iff.trans ?_
  rw [List.map_id']

/-- A row is a text in every field, and has as many of them as it has to have. -/
theorem row_eq_ok_iff (width? : Option Nat) (number : Nat) : r.row width? number = .ok texts ↔
    r.fields = texts.map encode ∧ ∀ width ∈ width?, texts.length = width := by
  have hlength : r.fields = texts.map encode → r.fields.length = texts.length := by
    intro h
    rw [h, List.length_map]
  unfold RawRecord.row
  cases width? with
  | none =>
    rw [texts_eq_ok_iff]
    exact (and_iff_left nofun).symm
  | some width =>
    simp only [Option.mem_some_iff, forall_eq']
    split
    · rename_i hne
      constructor
      · nofun
      · rintro ⟨hfields, hwidth⟩
        exact absurd ((hlength hfields).trans hwidth) hne
    · rename_i heq
      rw [texts_eq_ok_iff]
      refine (and_iff_left_of_imp fun hfields => ?_).symm
      exact (hlength hfields).symm.trans (not_not.mp heq)

theorem header_cons_eq_ok_iff : Csv.header (r :: rest) = .ok header ↔ r.fields = header.map encode :=
  texts_eq_ok_iff 0

theorem rows_cons_eq_ok_iff : Csv.rows ragged (r :: rest) = .ok rows ↔
    rest.map RawRecord.fields = rows.map (·.map encode) ∧
      (ragged = false → ∀ row ∈ rows, row.length = r.fields.length) := by
  unfold Csv.rows
  rw [Except.mapM_zipIdx_eq_ok_iff fun record texts number => row_eq_ok_iff _ number,
    List.Forall₂.and_right_iff, List.Forall₂.map_eq_map_iff]
  cases ragged with
  | true => simp
  | false => simp

/-- The bytes are a table with the header and the rows. -/
structure IsTable (content : Bytes) (header : List String) (rows : List (List String)) : Prop where
  writes : Writes content ((header :: rows).map (·.map encode))
  even : ∀ row ∈ rows, row.length = header.length

theorem isTable_iff {content : Bytes} : IsTable content header rows ↔
    scan content ≠ [] ∧ Csv.header (scan content) = .ok header ∧ Csv.rows false (scan content) = .ok rows := by
  have hiff : IsTable content header rows ↔ (scan content).map RawRecord.fields = (header :: rows).map (·.map encode) ∧
      ∀ row ∈ rows, row.length = header.length := by
    rw [← writes_iff]
    exact ⟨fun h => ⟨h.writes, h.even⟩, fun ⟨hwrites, heven⟩ => ⟨hwrites, heven⟩⟩
  rw [hiff]
  cases scan content with
  | nil => simp
  | cons r rest =>
    rw [header_cons_eq_ok_iff, rows_cons_eq_ok_iff, List.map_cons, List.map_cons, List.cons.injEq, and_assoc]
    constructor
    · rintro ⟨hheader, hrows, heven⟩
      refine ⟨List.cons_ne_nil r rest, hheader, hrows, fun _ => ?_⟩
      rw [hheader, List.length_map]
      exact heven
    · rintro ⟨_, hheader, hrows, heven⟩
      refine ⟨hheader, hrows, ?_⟩
      rw [hheader, List.length_map] at heven
      exact heven rfl

/-- Every file is one table at most. -/
theorem IsTable.unique {content : Bytes} {header' : List String} {rows' : List (List String)}
    (h : IsTable content header rows) (h' : IsTable content header' rows') : header = header' ∧ rows = rows' := by
  obtain ⟨_, hheader, hrows⟩ := isTable_iff.mp h
  obtain ⟨_, hheader', hrows'⟩ := isTable_iff.mp h'
  exact ⟨Except.ok.inj (hheader.symm.trans hheader'), Except.ok.inj (hrows.symm.trans hrows')⟩

/-- A column is read exactly when the file is a table and the title is in the header. -/
theorem column_eq_ok_iff {p : Path} {title : String} {content : Bytes} {cells : List String} :
    column p title content = .ok cells ↔ ∃ header rows i, IsTable content header rows ∧
      header.idxOf? title = some i ∧ cells = cellsAt i rows := by
  unfold column
  simp only [Except.bind_eq_ok_iff, Except.mapError_eq_ok_iff]
  constructor
  · rintro ⟨header, hheader, h⟩
    cases hi : header.idxOf? title with
    | none =>
      rw [hi] at h
      cases h
    | some i =>
      rw [hi] at h
      obtain ⟨rows, hrows, hcells⟩ := Except.bind_eq_ok_iff.mp h
      rw [Except.mapError_eq_ok_iff] at hrows
      have hne : scan content ≠ [] := by
        intro hnil
        rw [hnil] at hheader
        cases hheader
        cases hi
      exact ⟨header, rows, i, isTable_iff.mpr ⟨hne, hheader, hrows⟩, hi, (Except.ok.inj hcells).symm⟩
  · rintro ⟨header, rows, i, htable, hi, rfl⟩
    obtain ⟨_, hheader, hrows⟩ := isTable_iff.mp htable
    refine ⟨header, hheader, ?_⟩
    rw [hi]
    exact Except.bind_eq_ok_iff.mpr ⟨rows, Except.mapError_eq_ok_iff.mpr hrows, rfl⟩

/-- Every row has a cell at the place of a title. -/
theorem IsTable.mem_cellsAt_iff {content : Bytes} {title value : String} {i : Nat} (h : IsTable content header rows)
    (hi : header.idxOf? title = some i) : value ∈ cellsAt i rows ↔ ∃ row ∈ rows, row[i]? = some value := by
  obtain ⟨hlt, _⟩ := List.idxOf?_eq_some_iff.mp hi
  unfold cellsAt
  rw [List.mem_map]
  refine exists_congr fun row => and_congr_right fun hrow => ?_
  have hlong : i < row.length := by
    rw [h.even row hrow]
    exact hlt
  rw [List.getElem?_eq_getElem hlong, Option.getD_some, Option.some_inj]

/-- The first column of a table is read even where other tables would be too ragged. -/
theorem IsTable.firstColumn_eq {content : Bytes} (h : IsTable content header rows) (hne : header ≠ []) (p : Path) :
    firstColumn p content = .ok (cellsAt 0 rows) := by
  obtain ⟨hscan, hheader, hrows⟩ := isTable_iff.mp h
  have hragged : Csv.rows true (scan content) = .ok rows := by
    cases hraw : scan content with
    | nil => exact absurd hraw hscan
    | cons r rest =>
      rw [hraw, rows_cons_eq_ok_iff] at hrows
      exact rows_cons_eq_ok_iff.mpr ⟨hrows.1, nofun⟩
  unfold firstColumn
  simp only [Except.bind_eq_ok_iff, Except.mapError_eq_ok_iff]
  refine ⟨header, hheader, ?_⟩
  rw [if_neg (by rwa [List.isEmpty_iff])]
  exact Except.bind_eq_ok_iff.mpr ⟨rows, Except.mapError_eq_ok_iff.mpr hragged, rfl⟩

end SchemaTables.Csv
