import SchemaTables.Csv.Reader

/-!
How tables are written. A table is records with line ends between them, and a record fields with commas between them;
in quotes there may be commas and line ends, and quotes are written twice. Every file is such a table, of exactly the
records that the scan finds.
-/

namespace SchemaTables.Csv

set_option autoImplicit false

open Scan (quote comma lineFeed isLineEnd)

/-- A byte that ends a field outside quotes. -/
def EndsField (b : UInt8) : Prop := b = comma ∨ isLineEnd b = true

instance : DecidablePred EndsField := fun b => inferInstanceAs (Decidable (b = comma ∨ isLineEnd b = true))

/-- A quote in quotes is written twice. -/
def escaped (field : Bytes) : Bytes := field.flatMap fun b => if b = quote then [quote, quote] else [b]

/-- The bytes are a way to write the field, which may have to be the last one of a file. -/
inductive WritesField (atEnd : Bool) : Bytes → Bytes → Prop where
  /-- Only at the front has a quote a meaning of its own. -/
  | bare {field : Bytes} : field.head? ≠ some quote → (∀ b ∈ field, ¬ EndsField b) → WritesField atEnd field field
  /-- What follows the closing quote belongs to the field. -/
  | quoted {inner tail : Bytes} : tail.head? ≠ some quote → (∀ b ∈ tail, ¬ EndsField b) →
      WritesField atEnd (quote :: escaped inner ++ quote :: tail) (inner ++ tail)
  | unclosed {field : Bytes} : atEnd = true → WritesField atEnd (quote :: escaped field) field

inductive WritesRecord (atEnd : Bool) : Bytes → List Bytes → Prop where
  | last {bytes field : Bytes} : WritesField atEnd bytes field → WritesRecord atEnd bytes [field]
  | cons {bytes field rest : Bytes} {fields : List Bytes} : WritesField false bytes field →
      WritesRecord atEnd rest fields → WritesRecord atEnd (bytes ++ comma :: rest) (field :: fields)

/-- Empty lines are no records. -/
inductive WritesRecords : Bytes → List (List Bytes) → Prop where
  | nil : WritesRecords [] []
  | skip {b : UInt8} {rest : Bytes} {records : List (List Bytes)} : isLineEnd b = true → WritesRecords rest records →
      WritesRecords (b :: rest) records
  | cons {bytes rest : Bytes} {b : UInt8} {fields : List Bytes} {records : List (List Bytes)} : bytes ≠ [] →
      WritesRecord false bytes fields → isLineEnd b = true → WritesRecords rest records →
      WritesRecords (bytes ++ b :: rest) (fields :: records)
  | last {bytes : Bytes} {fields : List Bytes} : bytes ≠ [] → WritesRecord true bytes fields →
      WritesRecords bytes [fields]

/-- A byte-order mark in front of the records is no part of them. -/
def Writes (content : Bytes) (records : List (List Bytes)) : Prop :=
  WritesRecords (if byteOrderMark.isPrefixOf content then content.drop byteOrderMark.length else content) records

theorem escaped_cons (b : UInt8) (field : Bytes) :
    escaped (b :: field) = (if b = quote then [quote, quote] else [b]) ++ escaped field := List.flatMap_cons

/-- What a scan has found so far, oldest first, wherever in the file that was. -/
structure Scan.Holds (s : Scan) (phase : Phase) (field : Bytes) (fields : List Bytes)
    (records : List (List Bytes)) : Prop where
  phase : s.phase = phase
  field : s.field.reverse = field
  fields : s.fields.reverse = fields
  records : (s.records.map RawRecord.fields).reverse = records

namespace Scan.Holds

variable {s : Scan} {phase : Phase} {field bytes : Bytes} {fields found : List Bytes}
  {records table : List (List Bytes)} {b : UInt8} {atEnd : Bool}

theorem advance (h : s.Holds phase field fields records) (b : UInt8) :
    (s.advance b).Holds phase field fields records := ⟨h.phase, h.field, h.fields, h.records⟩

theorem push (h : s.Holds phase field fields records) (b : UInt8) (next : Phase) :
    (s.push b next).Holds next (field ++ [b]) fields records :=
  ⟨rfl, by rw [Scan.push, List.reverse_cons, h.field], h.fields, h.records⟩

theorem endField (h : s.Holds phase field fields records) :
    s.endField.Holds .fieldStart [] (fields ++ [field]) records :=
  ⟨rfl, rfl, by rw [Scan.endField, List.reverse_cons, h.field, h.fields], h.records⟩

theorem endRecord (h : s.Holds phase field fields records) :
    s.endRecord.Holds .recordStart [] [] (records ++ [fields ++ [field]]) := by
  refine ⟨rfl, rfl, rfl, ?_⟩
  simp only [Scan.endRecord, List.map_cons, List.reverse_cons, h.records, h.fields, h.field]

/-- Outside quotes a comma ends a field, be it empty. -/
theorem step_comma (h : s.Holds phase field fields records) (hphase : phase ≠ .quotedField) :
    (s.step comma).Holds .fieldStart [] (fields ++ [field]) records := by
  have ha := h.advance comma
  unfold step take
  rw [ha.phase]
  cases phase with
  | quotedField => exact absurd rfl hphase
  | _ => exact ha.endField

theorem step_skip (h : s.Holds .recordStart field fields records) (hb : isLineEnd b = true) :
    (s.step b).Holds .recordStart field fields records := by
  have ha := h.advance b
  unfold step take
  rw [ha.phase]
  simp only [hb, if_true]
  exact ha

/-- Outside quotes a line end ends a record that has begun. -/
theorem step_lineEnd (h : s.Holds phase field fields records) (hquoted : phase ≠ .quotedField)
    (hstart : phase ≠ .recordStart) (hb : isLineEnd b = true) :
    (s.step b).Holds .recordStart [] [] (records ++ [fields ++ [field]]) := by
  have hcomma : b ≠ comma := by
    rintro rfl
    cases hb
  have hquote : b ≠ quote := by
    rintro rfl
    cases hb
  have ha := h.advance b
  have houtside : (s.advance b).outside b = (s.advance b).endRecord := by rw [outside, if_neg hcomma, if_pos hb]
  unfold step take
  rw [ha.phase]
  cases phase with
  | recordStart => exact absurd rfl hstart
  | quotedField => exact absurd rfl hquoted
  | _ =>
    simp only [start, hquote, if_false, houtside]
    exact ha.endRecord

theorem step_bare (h : s.Holds phase field fields records) (hquoted : phase ≠ .quotedField)
    (hquote : phase ≠ .bareField → b ≠ quote) (hb : ¬ EndsField b) :
    (s.step b).Holds .bareField (field ++ [b]) fields records := by
  obtain ⟨hcomma, hend⟩ := not_or.mp hb
  rw [Bool.not_eq_true] at hend
  have ha := h.advance b
  have houtside : (s.advance b).outside b = (s.advance b).push b .bareField := by
    rw [outside, if_neg hcomma, if_neg (by simp [hend])]
  unfold step take
  rw [ha.phase]
  cases phase with
  | quotedField => exact absurd rfl hquoted
  | bareField =>
    simp only [houtside]
    exact ha.push b _
  | _ =>
    have hne := hquote (by decide)
    simp only [hend, Bool.false_eq_true, if_false, start, hne, houtside]
    exact ha.push b _

theorem step_open (h : s.Holds phase field fields records) (hphase : phase = .recordStart ∨ phase = .fieldStart) :
    (s.step quote).Holds .quotedField field fields records := by
  have ha := h.advance quote
  unfold step take
  rw [ha.phase]
  rcases hphase with rfl | rfl <;> exact ⟨rfl, ha.field, ha.fields, ha.records⟩

theorem step_quoted (h : s.Holds .quotedField field fields records) (hb : b ≠ quote) :
    (s.step b).Holds .quotedField (field ++ [b]) fields records := by
  have ha := h.advance b
  unfold step take
  rw [ha.phase]
  simp only [hb, if_false]
  exact ha.push b _

theorem step_quote (h : s.Holds .quotedField field fields records) :
    (s.step quote).Holds .afterQuote field fields records := by
  have ha := h.advance quote
  unfold step take
  rw [ha.phase]
  exact ⟨rfl, ha.field, ha.fields, ha.records⟩

/-- Two quotes in a quoted field are one. -/
theorem step_quotes (h : s.Holds .quotedField field fields records) :
    ((s.step quote).step quote).Holds .quotedField (field ++ [quote]) fields records := by
  have ha := h.step_quote.advance quote
  rw [step, take, ha.phase]
  exact ha.push quote _

theorem foldl_escaped (h : s.Holds .quotedField field fields records) (inner : Bytes) :
    ((escaped inner).foldl step s).Holds .quotedField (field ++ inner) fields records := by
  induction inner generalizing s field with
  | nil =>
    rw [List.append_nil]
    exact h
  | cons b inner ih =>
    rw [escaped_cons, List.foldl_append, List.append_cons]
    apply ih
    by_cases hb : b = quote
    · subst hb
      exact h.step_quotes
    · rw [if_neg hb]
      exact h.step_quoted hb

/-- Where a field is bare the scan goes on with it, or starts it. -/
theorem foldl_bare (h : s.Holds phase field fields records) (hquoted : phase ≠ .quotedField)
    (hfirst : phase ≠ .bareField → bytes.head? ≠ some quote) (hbytes : ∀ b ∈ bytes, ¬ EndsField b) :
    (bytes.foldl step s).Holds (if bytes = [] then phase else .bareField) (field ++ bytes) fields records := by
  induction bytes generalizing s phase field with
  | nil =>
    rw [if_pos rfl, List.append_nil]
    exact h
  | cons b bytes ih =>
    rw [List.forall_mem_cons] at hbytes
    have hquote : phase ≠ .bareField → b ≠ quote := fun hphase heq => hfirst hphase (congrArg some heq)
    have hrest := ih (h.step_bare hquoted hquote hbytes.1) (by decide) (fun hne => absurd rfl hne) hbytes.2
    rw [ite_self, ← List.append_cons] at hrest
    rw [if_neg (List.cons_ne_nil b bytes)]
    exact hrest

/-- A field is found as it is, however it is written. -/
theorem foldl_field (h : s.Holds phase [] fields records) (hphase : phase = .recordStart ∨ phase = .fieldStart)
    (hw : WritesField atEnd bytes field) : ∃ next, (bytes.foldl step s).Holds next field fields records ∧
      (next = .quotedField → atEnd = true) ∧ (next = .recordStart → bytes = []) := by
  have hquoted : phase ≠ .quotedField := by rcases hphase with rfl | rfl <;> decide
  cases hw with
  | bare hfirst hbytes =>
    refine ⟨_, h.foldl_bare hquoted (fun _ => hfirst) hbytes, ?_, ?_⟩
    · split
      · exact fun hnext => absurd hnext hquoted
      · nofun
    · split
      · exact fun _ => ‹_›
      · nofun
  | @quoted inner tail hfirst htail =>
    rw [List.cons_append, List.foldl_cons, List.foldl_append, List.foldl_cons]
    have hclosed := ((h.step_open hphase).foldl_escaped inner).step_quote
    refine ⟨_, hclosed.foldl_bare (by decide) (fun _ => hfirst) htail, ?_, ?_⟩
    · split <;> nofun
    · split <;> nofun
  | unclosed hend => exact ⟨_, (h.step_open hphase).foldl_escaped field, fun _ => hend, nofun⟩

theorem foldl_record (h : s.Holds phase [] fields records) (hphase : phase = .recordStart ∨ phase = .fieldStart)
    (hw : WritesRecord atEnd bytes found) (hne : phase = .recordStart → bytes ≠ []) :
    ∃ next last front, (bytes.foldl step s).Holds next last front records ∧ front ++ [last] = fields ++ found ∧
      (next = .quotedField → atEnd = true) ∧ next ≠ .recordStart := by
  induction hw generalizing s phase fields with
  | @last bytes field hfield =>
    obtain ⟨next, hnext, hend, hstart⟩ := h.foldl_field hphase hfield
    refine ⟨next, field, fields, hnext, rfl, hend, ?_⟩
    rintro rfl
    have hnil := hstart rfl
    subst hnil
    rcases hphase with rfl | rfl
    · exact hne rfl rfl
    · cases h.phase.symm.trans hnext.phase
  | @cons bytes field rest found hfield _ ih =>
    obtain ⟨next, hnext, hend, _⟩ := h.foldl_field hphase hfield
    have hquoted : next ≠ .quotedField := fun heq => Bool.false_ne_true (hend heq)
    obtain ⟨next, last, front, hrest, hfields, hend, hstart⟩ := ih (hnext.step_comma hquoted) (Or.inr rfl) nofun
    rw [List.foldl_append, List.foldl_cons]
    refine ⟨next, last, front, hrest, ?_, hend, hstart⟩
    rw [hfields, List.append_assoc, List.singleton_append]

theorem finish (h : s.Holds phase field fields records) : s.finish.map RawRecord.fields =
    if phase = .recordStart then records else records ++ [fields ++ [field]] := by
  unfold Scan.finish
  rw [h.phase]
  cases phase with
  | recordStart => exact List.map_reverse.trans h.records
  | _ => exact List.map_reverse.trans h.endRecord.records

theorem foldl_records (h : s.Holds .recordStart [] [] records) (hw : WritesRecords bytes table) :
    (bytes.foldl step s).finish.map RawRecord.fields = records ++ table := by
  induction hw generalizing s records with
  | nil =>
    rw [List.foldl_nil, h.finish, if_pos rfl, List.append_nil]
  | skip hb _ ih => exact ih (h.step_skip hb)
  | cons hne hrecord hb _ ih =>
    obtain ⟨next, last, front, hnext, hfields, hend, hstart⟩ := h.foldl_record (Or.inl rfl) hrecord fun _ => hne
    have hquoted : next ≠ .quotedField := fun heq => Bool.false_ne_true (hend heq)
    have hrest := ih (hnext.step_lineEnd hquoted hstart hb)
    rw [hfields, List.nil_append, List.append_assoc, List.singleton_append] at hrest
    rw [List.foldl_append, List.foldl_cons]
    exact hrest
  | last hne hrecord =>
    obtain ⟨next, last, front, hnext, hfields, _, hstart⟩ := h.foldl_record (Or.inl rfl) hrecord fun _ => hne
    rw [hnext.finish, if_neg hstart, hfields, List.nil_append]

end Scan.Holds

variable {content bytes : Bytes} {records : List (List Bytes)}

theorem Writes.scan_eq (h : Writes content records) : (scan content).map RawRecord.fields = records := by
  have hempty : ∀ byte, Scan.Holds { byte := byte } .recordStart [] [] [] := fun _ => ⟨rfl, rfl, rfl, rfl⟩
  unfold Writes at h
  unfold scan
  by_cases hmark : byteOrderMark.isPrefixOf content
  · rw [if_pos hmark] at h ⊢
    exact (hempty _).foldl_records h
  · rw [if_neg hmark] at h ⊢
    exact (hempty 0).foldl_records h

/-- Bytes in quotes go on to the closing quote or to the end. -/
theorem exists_escaped (bytes : Bytes) : ∃ inner, bytes = escaped inner ∨
    ∃ rest, bytes = escaped inner ++ quote :: rest ∧ rest.head? ≠ some quote := by
  induction hn : bytes.length using Nat.strongRecOn generalizing bytes with
  | _ n ih =>
    have hgo : ∀ (b : UInt8) (rest : Bytes), rest.length < n → ∃ inner,
        (if b = quote then [quote, quote] else [b]) ++ rest = escaped inner ∨ ∃ others,
          (if b = quote then [quote, quote] else [b]) ++ rest = escaped inner ++ quote :: others ∧
            others.head? ≠ some quote := by
      intro b rest hshort
      obtain ⟨inner, hinner | ⟨others, hothers, hhead⟩⟩ := ih rest.length hshort rest rfl
      · exact ⟨b :: inner, Or.inl (by rw [escaped_cons, hinner])⟩
      · exact ⟨b :: inner, Or.inr ⟨others, by rw [escaped_cons, hothers, List.append_assoc], hhead⟩⟩
    cases bytes with
    | nil => exact ⟨[], Or.inl rfl⟩
    | cons b rest =>
      rw [List.length_cons] at hn
      by_cases hb : b = quote
      · subst hb
        by_cases hhead : rest.head? = some quote
        · obtain ⟨rest, rfl⟩ := List.head?_eq_some_iff.mp hhead
          rw [List.length_cons] at hn
          exact hgo quote rest (by omega)
        · exact ⟨[], Or.inr ⟨rest, rfl, hhead⟩⟩
      · have hfound := hgo b rest (by omega)
        rw [if_neg hb] at hfound
        exact hfound

theorem exists_unbroken (bytes : Bytes) : ∃ front rest, bytes = front ++ rest ∧ (∀ b ∈ front, ¬ EndsField b) ∧
    (rest = [] ∨ ∃ b others, rest = b :: others ∧ EndsField b) := by
  induction bytes with
  | nil => exact ⟨[], [], rfl, nofun, Or.inl rfl⟩
  | cons b bytes ih =>
    by_cases hb : EndsField b
    · exact ⟨[], b :: bytes, rfl, nofun, Or.inr ⟨b, bytes, rfl, hb⟩⟩
    · obtain ⟨front, rest, rfl, hfront, hrest⟩ := ih
      exact ⟨b :: front, rest, rfl, List.forall_mem_cons.mpr ⟨hb, hfront⟩, hrest⟩

/-- A field ends where the bytes do, or before a comma or a line end. -/
theorem exists_writesField (bytes : Bytes) : ∃ front rest field, bytes = front ++ rest ∧
    (rest = [] ∧ WritesField true front field ∨
      ∃ b others, rest = b :: others ∧ EndsField b ∧ WritesField false front field) := by
  have hgo : ∀ {front rest field : Bytes}, (∀ atEnd, WritesField atEnd front field) →
      (rest = [] ∨ ∃ b others, rest = b :: others ∧ EndsField b) → (rest = [] ∧ WritesField true front field ∨
        ∃ b others, rest = b :: others ∧ EndsField b ∧ WritesField false front field) := by
    intro front rest field hwrites hrest
    rcases hrest with hnil | ⟨b, others, hcons, hb⟩
    · exact Or.inl ⟨hnil, hwrites true⟩
    · exact Or.inr ⟨b, others, hcons, hb, hwrites false⟩
  by_cases hhead : bytes.head? = some quote
  · obtain ⟨bytes, rfl⟩ := List.head?_eq_some_iff.mp hhead
    obtain ⟨inner, rfl | ⟨rest, rfl, hnot⟩⟩ := exists_escaped bytes
    · exact ⟨_, [], _, (List.append_nil _).symm, Or.inl ⟨rfl, .unclosed rfl⟩⟩
    · obtain ⟨tail, rest, rfl, htail, hrest⟩ := exists_unbroken rest
      refine ⟨quote :: escaped inner ++ quote :: tail, rest, inner ++ tail, by simp, hgo (fun _ => .quoted ?_ htail) hrest⟩
      intro hquote
      obtain ⟨tail, rfl⟩ := List.head?_eq_some_iff.mp hquote
      exact hnot rfl
  · obtain ⟨front, rest, rfl, hfront, hrest⟩ := exists_unbroken bytes
    refine ⟨front, rest, front, rfl, hgo (fun _ => .bare ?_ hfront) hrest⟩
    intro hquote
    obtain ⟨front, rfl⟩ := List.head?_eq_some_iff.mp hquote
    exact hhead rfl

theorem exists_writesRecord (bytes : Bytes) : ∃ front rest fields, bytes = front ++ rest ∧
    (rest = [] ∧ WritesRecord true front fields ∨
      ∃ b others, rest = b :: others ∧ isLineEnd b = true ∧ WritesRecord false front fields) := by
  induction hn : bytes.length using Nat.strongRecOn generalizing bytes with
  | _ n ih =>
    obtain ⟨front, rest, field, rfl, ⟨rfl, hfield⟩ | ⟨b, others, rfl, hb, hfield⟩⟩ := exists_writesField bytes
    · exact ⟨front, [], [field], rfl, Or.inl ⟨rfl, .last hfield⟩⟩
    · rcases hb with rfl | hb
      · have hshort : others.length < n := by
          rw [List.length_append, List.length_cons] at hn
          omega
        obtain ⟨front', rest, fields, rfl, hrest⟩ := ih others.length hshort others rfl
        refine ⟨front ++ comma :: front', rest, field :: fields, by simp, ?_⟩
        rcases hrest with ⟨hnil, hrecord⟩ | ⟨b, others, hcons, hb, hrecord⟩
        · exact Or.inl ⟨hnil, .cons hfield hrecord⟩
        · exact Or.inr ⟨b, others, hcons, hb, .cons hfield hrecord⟩
      · exact ⟨front, b :: others, [field], rfl, Or.inr ⟨b, others, rfl, hb, .last hfield⟩⟩

theorem exists_writesRecords (bytes : Bytes) : ∃ records, WritesRecords bytes records := by
  induction hn : bytes.length using Nat.strongRecOn generalizing bytes with
  | _ n ih =>
    cases bytes with
    | nil => exact ⟨[], .nil⟩
    | cons first others =>
      rw [List.length_cons] at hn
      by_cases hfirst : isLineEnd first = true
      · obtain ⟨records, hrecords⟩ := ih others.length (by omega) others rfl
        exact ⟨records, .skip hfirst hrecords⟩
      · obtain ⟨front, rest, fields, heq, hrest⟩ := exists_writesRecord (first :: others)
        have hne : front ≠ [] := by
          rintro rfl
          rcases hrest with ⟨rfl, _⟩ | ⟨b, rest, rfl, hb, _⟩
          · cases heq
          · cases heq
            exact hfirst hb
        rw [heq]
        rcases hrest with ⟨rfl, hrecord⟩ | ⟨b, rest, rfl, hb, hrecord⟩
        · rw [List.append_nil]
          exact ⟨[fields], .last hne hrecord⟩
        · have hshort : rest.length < n := by
            have hlength := congrArg List.length heq
            rw [List.length_append, List.length_cons, List.length_cons] at hlength
            omega
          obtain ⟨records, hrecords⟩ := ih rest.length hshort rest rfl
          exact ⟨fields :: records, .cons hne hrecord hb hrecords⟩

/-- A file is a table of the records that are found, and of no others. -/
theorem writes_iff : Writes content records ↔ (scan content).map RawRecord.fields = records := by
  constructor
  · exact Writes.scan_eq
  · rintro rfl
    obtain ⟨records, hrecords⟩ := exists_writesRecords
      (if byteOrderMark.isPrefixOf content then content.drop byteOrderMark.length else content)
    have hwrites : Writes content records := hrecords
    rw [hwrites.scan_eq]
    exact hwrites

end SchemaTables.Csv
