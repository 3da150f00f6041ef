import SchemaTables.Proofs.Artifacts.Compile
import SchemaTables.Proofs.Text.Rows

/-!
The tables of the reference document. The section of a class ends in the rows of its slots. Patterns and descriptions
are escaped before they come into a row, titles and names are not: a row keeps its five cells exactly when these texts
stand in it as they are.
-/

namespace SchemaTables

set_option autoImplicit false

open Text (FitsCell IsFrame)

theorem fitsCell_yesNo (b : Bool) : FitsCell (yesNo b) := by
  cases b <;> decide

/-- Anchors are made of word characters. -/
theorem fitsCell_anchor (title : String) : FitsCell ("#" ++ anchor title) := by
  have hword : ∀ c ∈ (anchor title).toList, Text.isWordChar c = true := by
    intro c hc
    rw [anchor, String.toList_ofList] at hc
    exact (List.mem_filter.mp hc).2
  have hnot : ∀ c, Text.isWordChar c = false → c ∉ (anchor title).toList := by
    intro c hc hmem
    rw [hword c hmem] at hc
    cases hc
  rw [Text.fitsCell_frame_append (by decide)]
  exact Text.fitsCell_of_notMem (hnot '\n' (by decide)) (hnot '|' (by decide))

theorem fitsCell_link_append {title target after : String} (h : IsFrame after) :
    FitsCell (link title target ++ after) ↔ FitsCell title ∧ FitsCell target := by
  rw [Text.fitsCell_append_frame h, link, Text.fitsCell_append_frame (by decide), Text.fitsCell_between (by decide),
    Text.fitsCell_frame_append (by decide)]

namespace Job

section Rows
variable {j : Job} {slot : Slot} {t : LiteralType} {cells : List (List Char)}

/-- The texts of the schema that stand as they are in the description of an address. -/
def addressTexts (j : Job) (slot : Slot) : List String :=
  match slot.valuePrefix.bind fun name => (j.view.prefixes.lookup name).map fun uri => (name, uri) with
  | some (name, uri) => [name, uri]
  | none => []

/-- The texts of the schema that stand as they are in the description of a literal. -/
def literalTexts (j : Job) (slot : Slot) (t : LiteralType) : List String :=
  match t.kind, t.title with
  | .ok .date, _ | .ok .dateTime, _ | .ok .string, none => []
  | .ok .uri, _ => j.addressTexts slot
  | _, title => [title.getD t.name]

/-- The texts of the schema that stand as they are in the description of a range. -/
def rangeTexts (j : Job) (slot : Slot) : List String :=
  if (j.options.synthetic? slot.range).isSome then [slot.range]
  else match j.view.rangeOf slot with
    | .cls c => [c.name]
    | .literal t => j.literalTexts slot t
    | .unresolved => [slot.range]

theorem fitsCell_addressDescription_iff :
    FitsCell (j.addressDescription slot) ↔ ∀ text ∈ j.addressTexts slot, FitsCell text := by
  unfold addressDescription addressTexts
  cases slot.valuePrefix.bind fun name => (j.view.prefixes.lookup name).map fun uri => (name, uri) with
  | some found => rw [fitsCell_link_append (by decide), List.forall_mem_cons, List.forall_mem_singleton]
  | none => exact iff_of_true (by decide) nofun

theorem fitsCell_pattern (pattern : String) :
    FitsCell ("Text matching the pattern `" ++ escapeCell pattern ++ "`") := by
  rw [Text.fitsCell_append_frame (by decide), Text.fitsCell_frame_append (by decide)]
  exact Text.fitsCell_escapeCell pattern

theorem fitsCell_literalDescription_iff :
    FitsCell (j.literalDescription slot t) ↔ ∀ text ∈ j.literalTexts slot t, FitsCell text := by
  have htitle : FitsCell (t.title.getD t.name) ↔ ∀ text ∈ [t.title.getD t.name], FitsCell text :=
    List.forall_mem_singleton.symm
  unfold literalDescription literalTexts
  cases t.kind with
  | error e => exact htitle
  | ok kind =>
    cases kind with
    | date =>
      have hdate : FitsCell "Date (YYYY-mm-DD)" := by decide
      exact iff_of_true hdate nofun
    | dateTime =>
      have htime : FitsCell "Date Time (YYYY-mm-DDTHH:mm:SSZ)" := by decide
      exact iff_of_true htime nofun
    | uri => exact fitsCell_addressDescription_iff
    | string =>
      cases t.title with
      | some title => exact List.forall_mem_singleton.symm
      | none =>
        refine iff_of_true ?_ nofun
        cases slot.pattern with
        | some pattern => exact fitsCell_pattern pattern
        | none =>
          have hfree : FitsCell "Free Text" := by decide
          exact hfree
    | _ => exact htitle

theorem fitsCell_rangeDescription_iff :
    FitsCell (j.rangeDescription slot) ↔ ∀ text ∈ j.rangeTexts slot, FitsCell text := by
  unfold rangeDescription rangeTexts
  by_cases hsynthetic : (j.options.synthetic? slot.range).isSome
  · rw [if_pos hsynthetic, if_pos hsynthetic, Text.fitsCell_append_frame (by decide), List.forall_mem_singleton]
  · rw [if_neg hsynthetic, if_neg hsynthetic]
    cases j.view.rangeOf slot with
    | cls c =>
      rw [fitsCell_link_append (by decide), List.forall_mem_singleton, and_iff_left (fitsCell_anchor c.name)]
    | literal t => exact fitsCell_literalDescription_iff
    | unresolved => exact List.forall_mem_singleton.symm

/-- The row of a slot is one line of the table and has these cells. There are five, the first of which holds the title
of the slot's column with its bars escaped. -/
structure KeepsRow (j : Job) (slot : Slot) (cells : List (List Char)) : Prop where
  line : Text.lines (j.slotRow slot) = [(j.slotRow slot).toList]
  split : Text.splitBars false (j.slotRow slot).toList = [] :: cells ++ [[]]
  five : cells.length = 5
  title : cells.head? = some (' ' :: Text.escapeBars slot.columnTitle ++ [' '])

/-- The texts of a slot's row. -/
def rowTexts (j : Job) (slot : Slot) : List String :=
  [slot.columnTitle, yesNo slot.required, j.rangeDescription slot, yesNo slot.multivalued, j.slotDescription slot]

theorem slotRow_eq (j : Job) (slot : Slot) : j.slotRow slot = Text.row (j.rowTexts slot) := rfl

theorem rowTexts_ne_nil (j : Job) (slot : Slot) : j.rowTexts slot ≠ [] := List.cons_ne_nil _ _

theorem forall_fitsCell_rowTexts_iff : (∀ text ∈ j.rowTexts slot, FitsCell text) ↔
    FitsCell slot.columnTitle ∧ ∀ text ∈ j.rangeTexts slot, FitsCell text := by
  have hdescription : FitsCell (j.slotDescription slot) := Text.fitsCell_escapeCell _
  rw [← fitsCell_rangeDescription_iff]
  simp only [rowTexts, List.forall_mem_cons, fitsCell_yesNo, hdescription, List.not_mem_nil, false_imp_iff,
    implies_true, and_true, true_and]

/-- A row is kept when the title of the column has no bar and no line break, and the texts in the description of the
range have no line break and no bar without a backslash before it. -/
theorem keepsRow_iff : j.KeepsRow slot cells ↔
    ('|' ∉ slot.columnTitle.toList ∧ '\n' ∉ slot.columnTitle.toList ∧ ∀ text ∈ j.rangeTexts slot, FitsCell text) ∧
    cells = (j.rowTexts slot).map Text.cell := by
  constructor
  · rintro ⟨hline, hsplit, hfive, htitle⟩
    -- five cells are as many as the row has texts, so that none of these has fallen apart
    have hlength : (Text.splitBars false (j.slotRow slot).toList).length = (j.rowTexts slot).length + 2 := by
      rw [hsplit, List.length_append, List.length_cons, hfive]
      rfl
    have hfits := (Text.row_stays_iff (j.rowTexts_ne_nil slot)).mp ⟨hline, hlength⟩
    have hcells : cells = (j.rowTexts slot).map Text.cell := by
      rw [slotRow_eq, Text.splitBars_row_of_fitsCell (j.rowTexts_ne_nil slot) hfits] at hsplit
      exact (List.cons.inj (List.append_cancel_right hsplit)).2.symm
    rw [hcells] at htitle
    have hbars : Text.escapeBars slot.columnTitle = slot.columnTitle.toList :=
      (List.append_cancel_right (List.cons.inj (Option.some.inj htitle)).2).symm
    obtain ⟨hown, hrange⟩ := forall_fitsCell_rowTexts_iff.mp hfits
    exact ⟨⟨Text.escapeBars_eq_self_iff.mp hbars, hown.1, hrange⟩, hcells⟩
  · rintro ⟨⟨hbar, hbreak, hrange⟩, rfl⟩
    have hfits : ∀ text ∈ j.rowTexts slot, FitsCell text :=
      forall_fitsCell_rowTexts_iff.mpr ⟨Text.fitsCell_of_notMem hbreak hbar, hrange⟩
    refine ⟨?_, ?_, rfl, ?_⟩
    · exact ((Text.row_stays_iff (j.rowTexts_ne_nil slot)).mpr hfits).1
    · exact Text.splitBars_row_of_fitsCell (j.rowTexts_ne_nil slot) hfits
    · rw [Text.escapeBars_eq_self_iff.mpr hbar]
      rfl

end Rows

section Document
variable {j : Job} {c : Class} {text : String}

/-- What a class's section has before the rows of its slots. -/
def sectionHead (c : Class) : List String :=
  ["## " ++ c.name, "", classLocation c, ""] ++ paragraph c.description ++
    ["| Column Title | Required | Contains | Multivalued | Description |", "| --- | --- | --- | --- | --- |"]

theorem classSection_eq_ok_iff {found : List String} : j.classSection c = .ok found ↔
    ∃ slots, j.view.slots c.name = .ok slots ∧ sectionHead c ++ slots.map j.slotRow = found :=
  Except.bind_eq_ok_iff.trans (exists_congr fun _ => and_congr_right fun _ => ⟨Except.ok.inj, congrArg Except.ok⟩)

/-- The document has the lines of each class's section, and an empty line after them. -/
theorem exists_lines_descriptions (h : j.descriptions = .ok text) (hc : c ∈ j.view.schema.classes) :
    ∃ slots, j.view.slots c.name = .ok slots ∧ ∃ front rest, Text.lines text = front ++
      (sectionHead c).flatMap Text.lines ++ slots.flatMap (fun slot => Text.lines (j.slotRow slot)) ++ [] :: rest := by
  obtain ⟨sections, hsections, htext⟩ := Except.bind_eq_ok_iff.mp h
  obtain ⟨found, hmem, hfound⟩ := (Except.mapM_eq_ok_iff.mp hsections).exists_of_mem_left (List.mem_mergeSort.mpr hc)
  obtain ⟨_, hsection, rfl⟩ := Except.map_eq_ok_iff.mp hfound
  obtain ⟨slots, hslots, rfl⟩ := classSection_eq_ok_iff.mp hsection
  obtain ⟨front, rest, htexts⟩ := (List.infix_of_mem_flatten hmem).trans ((List.infix_append _ _ _).trans
    ((List.prefix_append _ _).trans (List.prefix_append _ _)).isInfix)
  refine ⟨slots, hslots, front.flatMap Text.lines, rest.flatMap Text.lines, ?_⟩
  rw [← Except.ok.inj htext, Text.lines_joinWith (by simp), ← htexts]
  simp only [List.flatMap_append, List.flatMap_map, List.append_assoc]
  rfl

end Document

end Job

/-- The section of a class has the rows of its slots one after the other, and an empty line after them. The row of a
slot is a line with five cells, the first of which holds the title of the slot's column with its bars escaped, exactly
when this title has no bar and no line break, and the texts that describe the range have no line break and no bar
without a backslash before it. The cells then hold the texts of the row as they are. -/
theorem compile_descriptions {o : Options} {s : Schema} {a : Artifacts} {v : View} {c : Class}
    (h : compile o s = .ok a) (hv : View.ofSchema s = .ok v) (hc : c ∈ s.classes) :
    ∃ slots, v.slots c.name = .ok slots ∧
      (∃ front rest, Text.lines a.descriptions = front ++ (Job.sectionHead c).flatMap Text.lines ++
        slots.flatMap (fun slot => Text.lines (Job.slotRow ⟨v, o⟩ slot)) ++ [] :: rest) ∧
      ∀ slot ∈ slots, ∀ cells, Job.KeepsRow ⟨v, o⟩ slot cells ↔
        ('|' ∉ slot.columnTitle.toList ∧ '\n' ∉ slot.columnTitle.toList ∧
          ∀ text ∈ Job.rangeTexts ⟨v, o⟩ slot, FitsCell text) ∧
        cells = (Job.rowTexts ⟨v, o⟩ slot).map Text.cell := by
  obtain ⟨v', h⟩ := compile_eq_ok_iff.mp h
  cases hv.symm.trans h.view
  obtain ⟨_, _, _, hschema, _⟩ := View.ofSchema_eq_ok_iff.mp hv
  obtain ⟨slots, hslots, hlines⟩ := Job.exists_lines_descriptions h.descriptions (hschema ▸ hc)
  exact ⟨slots, hslots, hlines, fun _ _ _ => Job.keepsRow_iff⟩

/-- The title of a nickname has a bar. -/
def nickname : Slot := { name := "nick", title := some "a|b" }

def nicknameKey : Slot := { name := "id", required := true, identifier := true }

def nicknameSchema : Schema where
  name := "people"
  classPrefix := some "ex"
  prefixes := [("ex", "https://example.org/")]
  types := [{ name := "string" }]
  classes := [{ name := "Person", slots := ["id", "nick"] }]
  slots := [nicknameKey, nickname]

def nicknameView : View := ⟨nicknameSchema, [("Person", [nicknameKey, nickname])]⟩

theorem compile_descriptions_nickname : ∃ a, compile {} nicknameSchema = .ok a ∧
    Job.KeepsRow ⟨nicknameView, {}⟩ nicknameKey (["id*", "Yes", "Free Text", "No", ""].map Text.cell) ∧
    ∀ cells, ¬ Job.KeepsRow ⟨nicknameView, {}⟩ nickname cells := by
  obtain ⟨text, ha⟩ := exists_compile (o := {}) (s := nicknameSchema) (by decide) rfl rfl rfl rfl
  have hview : View.ofSchema nicknameSchema = .ok nicknameView := rfl
  obtain ⟨slots, hslots, _, hrows⟩ := compile_descriptions ha hview List.mem_cons_self
  have heq : nicknameView.slots "Person" = .ok [nicknameKey, nickname] := rfl
  cases heq.symm.trans hslots
  refine ⟨_, ha, (hrows nicknameKey (by decide) _).mpr (by decide), ?_⟩
  intro cells hkeeps
  have hbar := ((hrows nickname (by decide) cells).mp hkeeps).1.1
  revert hbar
  decide

/-- The document has a line for the nickname, and it falls into six cells. -/
theorem exists_row_of_six_cells : ∃ a, compile {} nicknameSchema = .ok a ∧
    ∃ line ∈ Text.lines a.descriptions, line = (Job.slotRow ⟨nicknameView, {}⟩ nickname).toList ∧
      Text.splitBars false line =
        ["", " a", "b ", " No ", " Free Text ", " No ", "  ", ""].map String.toList ∧
      ∀ cells, ¬ Job.KeepsRow ⟨nicknameView, {}⟩ nickname cells := by
  obtain ⟨text, ha⟩ := exists_compile (o := {}) (s := nicknameSchema) (by decide) rfl rfl rfl rfl
  refine ⟨_, ha, _, ?_, rfl, by decide, ?_⟩
  · obtain ⟨v, h⟩ := compile_eq_ok_iff.mp ha
    have hview : View.ofSchema nicknameSchema = .ok nicknameView := rfl
    cases hview.symm.trans h.view
    obtain ⟨slots, hslots, front, rest, hlines⟩ := Job.exists_lines_descriptions h.descriptions List.mem_cons_self
    have heq : nicknameView.slots "Person" = .ok [nicknameKey, nickname] := rfl
    cases heq.symm.trans hslots
    have hline : Text.lines (Job.slotRow ⟨nicknameView, {}⟩ nickname) =
        [(Job.slotRow ⟨nicknameView, {}⟩ nickname).toList] := by decide
    rw [hlines, List.mem_append, List.mem_append]
    refine Or.inl (Or.inr (List.mem_flatMap.mpr ⟨nickname, by decide, ?_⟩))
    rw [hline]
    exact List.mem_singleton.mpr rfl
  · intro cells hkeeps
    have hbar := (Job.keepsRow_iff.mp hkeeps).1.1
    revert hbar
    decide

end SchemaTables
