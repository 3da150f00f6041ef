import SchemaTables.Proofs.Artifacts.Compile
import SchemaTables.Proofs.Check.Missing
import SchemaTables.Proofs.Identifiers

/-!
Templates of tables are tables. The header of a template is read back as it is, for every title stands between quotes;
below it there is nothing. So each of its columns can be read before anyone has added a row.
-/

namespace SchemaTables

set_option autoImplicit false

open Text.Utf8 (encode)

namespace Csv

open Scan (comma lineFeed quote)

variable {titles : List String}

theorem writesRecord_quoteFields (atEnd : Bool) (h : titles ≠ []) :
    WritesRecord atEnd (encode (Text.joinWith "," (titles.map quoteField))) (titles.map encode) := by
  have hcomma : encode "," = [comma] := by decide
  induction titles with
  | nil => exact absurd rfl h
  | cons title rest ih =>
    cases rest with
    | nil => exact .last (writesField_quoteField atEnd title)
    | cons next rest =>
      have hrest := ih (List.cons_ne_nil next rest)
      rw [List.map_cons, List.map_cons, Text.joinWith, String.intercalate_cons_cons, Text.Utf8.encode_append,
        Text.Utf8.encode_append, hcomma, List.append_assoc]
      exact .cons (writesField_quoteField false title) hrest

theorem exists_quoteFields (h : titles ≠ []) :
    ∃ rest, Text.joinWith "," (titles.map quoteField) = "\"" ++ rest := by
  cases titles with
  | nil => exact absurd rfl h
  | cons title others =>
    cases others with
    | nil => exact ⟨_, String.append_assoc⟩
    | cons next others =>
      rw [List.map_cons, List.map_cons, Text.joinWith, String.intercalate_cons_cons, quoteField, String.append_assoc,
        String.append_assoc, String.append_assoc]
      exact ⟨_, rfl⟩

/-- A template with a title is a table without rows. It starts with a quote, so that no title is taken for a mark. -/
theorem isTable_headerText (h : titles ≠ []) : IsTable (encode (headerText titles)) titles [] := by
  have hline : encode "\n" = [lineFeed] := by decide
  have hquote : encode "\"" = [quote] := by decide
  have hrecord := writesRecord_quoteFields false h
  have htext : headerText titles = Text.joinWith "," (titles.map quoteField) ++ "\n" := by
    rw [headerText, if_neg (by rwa [List.isEmpty_iff])]
  obtain ⟨rest, hrest⟩ := exists_quoteFields h
  have hmark : byteOrderMark.isPrefixOf ([quote] ++ encode (rest ++ "\n")) = false := rfl
  refine ⟨?_, nofun⟩
  rw [hrest, Text.Utf8.encode_append, hquote] at hrecord
  rw [htext, Writes, hrest, String.append_assoc, Text.Utf8.encode_append, hquote, hmark, Text.Utf8.encode_append, hline,
    ← List.append_assoc]
  exact .cons (List.cons_ne_nil _ _) hrecord rfl .nil

/-- There is one record, and it has the titles. -/
theorem IsTable.exists_scan_eq {content : Bytes} (h : IsTable content titles []) :
    ∃ record, scan content = [record] ∧ record.texts 0 = .ok titles := by
  have hfields : (scan content).map RawRecord.fields = [titles.map encode] := writes_iff.mp h.writes
  obtain ⟨record, hscan, hrecord⟩ := List.map_eq_singleton_iff.mp hfields
  exact ⟨record, hscan, (texts_eq_ok_iff 0).mpr hrecord⟩

end Csv

namespace Check

/-- Whoever reads one of the columns from a file with this text finds no cells. -/
def HasEmptyColumns (text : String) (titles : List String) : Prop :=
  ∀ (s : Store) (p : Path), s.read p = .ok (encode text) →
    (∀ title ∈ titles, (readColumn p title).Returns s [] s) ∧ (readFirstColumn p).Returns s [] s

theorem hasEmptyColumns_headerText {titles : List String} (h : titles ≠ []) :
    HasEmptyColumns (Csv.headerText titles) titles := by
  intro s p hread
  have htable := Csv.isTable_headerText h
  constructor
  · intro title htitle
    obtain ⟨i, hi⟩ := Option.isSome_iff_exists.mp (List.isSome_idxOf?.mpr htitle)
    exact readColumn_returns_iff.mpr (Store.hasColumn_iff.mpr ⟨_, titles, [], i, hread, htable, hi, rfl⟩)
  · rw [readFirstColumn_returns_iff, hread]
    exact htable.firstColumn_eq h p

end Check

variable {o : Options} {s : Schema} {a : Artifacts} {v : View} {t : CompiledTable}

/-- Only classes with slots become tables. -/
theorem Compilation.header_ne_nil (h : Compilation o s a v) (ht : t ∈ a.tables) : t.header ≠ [] := by
  obtain ⟨c, hc, hcompile⟩ := h.exists_class ht
  obtain ⟨_, _, slots, hslots, hne⟩ := View.mem_tableClasses_iff.mp hc
  rw [Job.header_of_compileTable hcompile hslots, ne_eq, List.map_eq_nil_iff]
  exact hne

theorem mem_files_of_mem_tables (ht : t ∈ a.tables) : (t.csvPath, Csv.headerText t.header) ∈ a.files := by
  have hfile : (t.csvPath, Csv.headerText t.header) ∈ a.tableFiles t := List.mem_cons_self
  refine List.mem_append_left _ (List.mem_append_left _ ?_)
  exact List.mem_flatten.mpr ⟨_, List.mem_map.mpr ⟨t, ht, rfl⟩, hfile⟩

/-- A list of titles that is written as a template is read back as the one record there is, and its columns have no
cells; so it is with every template of a compiled schema. -/
theorem template_reads_back {titles : List String} (h : titles ≠ []) :
    (∃ record, Csv.scan (encode (Csv.headerText titles)) = [record] ∧ record.texts 0 = .ok titles) ∧
    Check.HasEmptyColumns (Csv.headerText titles) titles ∧
    ∀ (o : Options) (s : Schema) (a : Artifacts), compile o s = .ok a → ∀ t ∈ a.tables,
      ∃ text, (t.csvPath, text) ∈ a.files ∧ text = Csv.headerText t.header ∧ Check.HasEmptyColumns text t.header := by
  refine ⟨(Csv.isTable_headerText h).exists_scan_eq, Check.hasEmptyColumns_headerText h, ?_⟩
  intro o s a ha t ht
  obtain ⟨v, hv⟩ := compile_eq_ok_iff.mp ha
  exact ⟨_, mem_files_of_mem_tables ht, rfl, Check.hasEmptyColumns_headerText (hv.header_ne_nil ht)⟩

/-- Titles with a byte-order mark, with commas, quotes and line ends, and without any character. -/
def hardTitles : List String := ["\ufeffid", "a,\"b\"\r\n", ""]

theorem template_reads_back_marked : hardTitles ≠ [] ∧
    ∃ record, Csv.scan (encode (Csv.headerText hardTitles)) = [record] ∧ record.texts 0 = .ok hardTitles ∧
      let s : Store := { items := [(["t.csv"], .file (encode (Csv.headerText hardTitles)))] }
      (Check.readColumn ⟨"t.csv"⟩ "\ufeffid").Returns s [] s ∧ (Check.readFirstColumn ⟨"t.csv"⟩).Returns s [] s := by
  have hne : hardTitles ≠ [] := by decide
  obtain ⟨⟨record, hscan, htexts⟩, hcolumns, _⟩ := template_reads_back hne
  obtain ⟨hcolumn, hfirst⟩ :=
    hcolumns { items := [(["t.csv"], .file (encode (Csv.headerText hardTitles)))] } ⟨"t.csv"⟩ rfl
  exact ⟨hne, record, hscan, htexts, hcolumn _ List.mem_cons_self, hfirst⟩

end SchemaTables
