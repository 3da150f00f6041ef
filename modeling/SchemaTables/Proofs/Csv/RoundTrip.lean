import SchemaTables.Csv.Writer
import SchemaTables.Proofs.Csv.Table
import SchemaTables.Proofs.Text.Replace

/-!
Data that is written as a table is read back as it is. A field with a special character is quoted, so that a bare one
is what it looks like; a record with an empty field is quoted too, for else it would be an empty line.
-/

namespace SchemaTables

set_option autoImplicit false

open Text.Utf8 (encode)

namespace Csv

open Scan (quote comma lineFeed isLineEnd)

/-- A byte with a meaning of its own is in a text only for its character. -/
theorem plain_of_mem_encode {text : String} (h : text.toList.any isSpecial = false) :
    ∀ b ∈ encode text, b ≠ quote ∧ ¬ EndsField b := by
  have hfree : ∀ c : Char, isSpecial c = true → c.toNat < 0x80 → ∀ b ∈ encode text, b.toNat ≠ c.toNat := by
    intro c hc hsmall b hb heq
    obtain ⟨d, hd, hnumber⟩ := Text.Utf8.exists_char_of_mem_encode hb (by omega)
    rw [Char.toNat_inj.mp (hnumber.trans heq)] at hd
    exact absurd (List.any_eq_true.mpr ⟨c, hd, hc⟩) (by simp [h])
  intro b hb
  have hne : ∀ c : Char, isSpecial c = true → c.toNat < 0x80 → b ≠ UInt8.ofNat c.toNat := by
    intro c hc hsmall heq
    refine hfree c hc hsmall b hb ?_
    rw [heq, UInt8.toNat_ofNat', Nat.mod_eq_of_lt (by omega)]
  refine ⟨hne '"' rfl (by decide), ?_⟩
  rintro (hcomma | hend)
  · exact hne ',' rfl (by decide) hcomma
  · rw [isLineEnd, Bool.or_eq_true, beq_iff_eq, beq_iff_eq] at hend
    rcases hend with hfeed | hreturn
    · exact hne '\n' rfl (by decide) hfeed
    · exact hne '\r' rfl (by decide) hreturn

theorem escaped_of_notMem {field : Bytes} (h : quote ∉ field) : escaped field = field := by
  induction field with
  | nil => rfl
  | cons b field ih =>
    rw [List.mem_cons, not_or] at h
    rw [escaped_cons, if_neg (Ne.symm h.1), ih h.2, List.singleton_append]

theorem escaped_utf8EncodeChar (c : Char) : escaped (String.utf8EncodeChar c) =
    (if c = '"' then ['"', '"'] else [c]).flatMap String.utf8EncodeChar := by
  by_cases hc : c = '"'
  · subst hc
    decide
  · have hquote : quote ∉ String.utf8EncodeChar c := by
      intro hmem
      apply hc
      rcases (Text.Utf8.written_utf8EncodeChar c).eq_or_le hmem with ⟨hnumber, _⟩ | hlarge
      · exact Char.toNat_inj.mp hnumber.symm
      · exact absurd hlarge (by decide)
    rw [if_neg hc, List.flatMap_cons, List.flatMap_nil, List.append_nil, escaped_of_notMem hquote]

theorem escaped_append (a b : Bytes) : escaped (a ++ b) = escaped a ++ escaped b := List.flatMap_append

theorem encode_quoteField (field : String) : encode (quoteField field) = quote :: escaped (encode field) ++ [quote] := by
  have hquote : encode "\"" = [quote] := by decide
  have hchars : ∀ cs : List Char, (cs.flatMap fun c => if c = '"' then ['"', '"'] else [c]).flatMap
      String.utf8EncodeChar = escaped (cs.flatMap String.utf8EncodeChar) := by
    intro cs
    induction cs with
    | nil => rfl
    | cons c cs ih =>
      rw [List.flatMap_cons, List.flatMap_cons, List.flatMap_append, escaped_append, ih, escaped_utf8EncodeChar]
  rw [quoteField, Text.Utf8.encode_append, Text.Utf8.encode_append, hquote, Text.replaceAll,
    Text.replaceFrom_singleton, encode, String.toList_ofList, hchars]
  rfl

theorem writesField_quoteField (atEnd : Bool) (field : String) :
    WritesField atEnd (encode (quoteField field)) (encode field) := by
  have hquoted : WritesField atEnd (quote :: escaped (encode field) ++ quote :: []) (encode field ++ []) :=
    .quoted nofun nofun
  rw [List.append_nil] at hquoted
  rw [encode_quoteField]
  exact hquoted

/-- Data is written as a field of a table, wherever in a file that is. -/
theorem writesField_dataField (atEnd : Bool) (field : String) :
    WritesField atEnd (encode (dataField field)) (encode field) := by
  unfold dataField
  split
  · exact writesField_quoteField atEnd field
  · rename_i hspecial
    have hplain := plain_of_mem_encode (by simpa using hspecial)
    refine .bare ?_ fun b hb => (hplain b hb).2
    intro hhead
    exact (hplain quote (List.mem_of_head? hhead)).1 rfl

/-- A record of data with one field is never an empty line. -/
theorem exists_encode_dataRecord (text : String) : ∃ bytes, encode (dataRecord text) = bytes ++ [lineFeed] ∧
    bytes ≠ [] ∧ WritesRecord false bytes [encode text] := by
  have hline : encode "\n" = [lineFeed] := by decide
  rw [dataRecord, Text.Utf8.encode_append, hline]
  refine ⟨_, rfl, ?_⟩
  by_cases hempty : text.isEmpty
  · rw [if_pos hempty, String.isEmpty_iff.mp hempty]
    have hquoted : WritesField false (quote :: escaped [] ++ quote :: []) ([] ++ []) := .quoted nofun nofun
    exact ⟨by decide, .last hquoted⟩
  · rw [if_neg hempty]
    refine ⟨?_, .last (writesField_dataField false text)⟩
    rw [ne_eq, Text.Utf8.encode_eq_nil_iff]
    unfold dataField
    split
    · simp [quoteField]
    · simpa using hempty

theorem writesRecords_dataRecords (texts : List String) :
    WritesRecords (encode (String.join (texts.map dataRecord))) (texts.map fun text => [encode text]) := by
  induction texts with
  | nil => exact .nil
  | cons text texts ih =>
    obtain ⟨bytes, hbytes, hne, hrecord⟩ := exists_encode_dataRecord text
    rw [List.map_cons, String.join_cons, Text.Utf8.encode_append, hbytes, List.append_assoc, List.map_cons]
    exact .cons hne hrecord rfl ih

theorem head?_dataRecord {text : String} (h : text.toList.head? ≠ some '\ufeff') :
    (dataRecord text).toList.head? ≠ some '\ufeff' := by
  rw [dataRecord, String.toList_append]
  split
  · decide
  · rename_i hempty
    rw [dataField]
    split
    · rw [quoteField, String.append_assoc, String.toList_append]
      exact (by decide : some '"' ≠ some '\ufeff')
    · cases hchars : text.toList with
      | nil => exact absurd (String.isEmpty_iff.mpr (String.toList_eq_nil_iff.mp hchars)) hempty
      | cons c cs =>
        rw [hchars] at h
        exact h

/-- What does not start with the character of the byte-order mark does not start with its bytes. -/
theorem byteOrderMark_isPrefixOf_encode {text : String} (hne : text ≠ "") (h : text.toList.head? ≠ some '\ufeff')
    (rest : Bytes) : byteOrderMark.isPrefixOf (encode text ++ rest) = false := by
  rw [Bool.eq_false_iff, ne_eq, List.isPrefixOf_iff_prefix]
  rintro ⟨others, hothers⟩
  cases hchars : text.toList with
  | nil => exact hne (String.toList_eq_nil_iff.mp hchars)
  | cons c cs =>
    rw [hchars] at h
    rw [encode, hchars, List.flatMap_cons, List.append_assoc] at hothers
    have hread := (Text.Utf8.written_utf8EncodeChar c).charAt?_append (cs.flatMap String.utf8EncodeChar ++ rest)
    rw [← hothers] at hread
    have hmark : Text.Utf8.charAt? (byteOrderMark ++ others) = some ('\ufeff', 3) := rfl
    rw [hmark] at hread
    exact h (congrArg some (Prod.mk.inj (Option.some.inj hread)).1.symm)

/-- Texts that are written one below the other are a table with one column. -/
theorem isTable_dataRecords {title : String} (texts : List String) (h : title.toList.head? ≠ some '\ufeff') :
    IsTable (encode (String.join ((title :: texts).map dataRecord))) [title] (texts.map fun text => [text]) := by
  have hne : dataRecord title ≠ "" := by simp [dataRecord]
  have hmark : byteOrderMark.isPrefixOf (encode (String.join ((title :: texts).map dataRecord))) = false := by
    rw [List.map_cons, String.join_cons, Text.Utf8.encode_append]
    exact byteOrderMark_isPrefixOf_encode hne (head?_dataRecord h) _
  have hfields : ([title] :: texts.map fun text => [text]).map (·.map encode) =
      (title :: texts).map fun text => [encode text] := by simp
  constructor
  · rw [Writes, hmark, hfields]
    exact writesRecords_dataRecords (title :: texts)
  · simp

end Csv

end SchemaTables
