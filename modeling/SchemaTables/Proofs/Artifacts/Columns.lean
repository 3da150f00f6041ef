import SchemaTables.Csv.Reader
import SchemaTables.Check.Column
import SchemaTables.Proofs.Artifacts.Compile

/-!
Which columns the checks of a compiled schema look at. A check knows its columns by their headings, while
slots are told apart by their places. Nothing keeps two slots of a class from having one heading: then the
first of them is looked at. So a check meets the slot that it was made for exactly when no earlier slot of
the class has the heading of this one.
-/

namespace SchemaTables

set_option autoImplicit false

/-- Looking for the heading in any table with this header finds the column at the place. -/
def Csv.Selects (header : List String) (title : String) (place : Nat) : Prop :=
  ∀ p content, Csv.header (Csv.scan content) = .ok header →
    Csv.column p title content =
      ((Csv.rows false (Csv.scan content)).mapError .record).map (Csv.cellsAt place)

theorem Csv.selects_of_idxOf? {header : List String} {title : String} {place : Nat}
    (h : header.idxOf? title = some place) : Csv.Selects header title place := by
  intro p content hheader
  rw [Csv.column, hheader]
  dsimp only [bind, Except.bind, Except.mapError]
  rw [h]
  cases (Csv.rows false (Csv.scan content)).mapError TableError.record with
  | error e => rfl
  | ok rows => rfl

/-- No slot before the place has the heading. -/
def FirstTitled (slots : List Slot) (place : Nat) (title : String) : Prop :=
  ∀ earlier ∈ slots.take place, earlier.columnTitle ≠ title

instance (slots : List Slot) (place : Nat) (title : String) : Decidable (FirstTitled slots place title) :=
  inferInstanceAs (Decidable (∀ _ ∈ _, _))

/-- The heading of a slot is found at the place of the slot, or at that of an earlier one which has the
heading too. -/
theorem exists_idxOf?_columnTitle {slots : List Slot} {slot : Slot} {i : Nat}
    (hi : slots[i]? = some slot) :
    ∃ k ≤ i, (slots.map Slot.columnTitle).idxOf? slot.columnTitle = some k ∧
      (k = i ↔ FirstTitled slots i slot.columnTitle) := by
  have hmem : slot.columnTitle ∈ slots.map Slot.columnTitle :=
    List.mem_map.mpr ⟨slot, List.mem_of_getElem? hi, rfl⟩
  obtain ⟨k, hk⟩ := Option.isSome_iff_exists.mp (List.isSome_idxOf?.mpr hmem)
  obtain ⟨hlt, hget, hfirst⟩ := List.idxOf?_eq_some_iff.mp hk
  obtain ⟨hilt, higet⟩ := List.getElem?_eq_some_iff.mp hi
  rw [List.length_map] at hlt
  rw [List.getElem_map] at hget
  have hle : k ≤ i := by
    apply Nat.le_of_not_lt
    intro hik
    apply hfirst i hik
    rw [List.getElem_map, higet]
  refine ⟨k, hle, hk, ?_⟩
  constructor
  · rintro rfl earlier hearlier heq
    obtain ⟨j, hj, rfl⟩ := List.mem_take_iff_getElem.mp hearlier
    have hjk : j < k := Nat.lt_of_lt_of_le hj (Nat.min_le_left _ _)
    apply hfirst j hjk
    rw [List.getElem_map, heq]
  · intro hnone
    by_contra hne
    have hki : k < i := Nat.lt_of_le_of_ne hle hne
    apply hnone slots[k] _ hget
    exact List.mem_take_iff_getElem.mpr ⟨k, Nat.lt_min.mpr ⟨hki, hlt⟩, rfl⟩

namespace Job

variable {j : Job} {c : Class} {slot : Slot} {slots : List Slot} {check : ManualCheck} {t : CompiledTable}

/-- The check that a slot of the class makes. -/
def check? (j : Job) (c : Class) (slot : Slot) : Option ManualCheck :=
  match j.target c slot with
  | .ok (some target) =>
    match j.enforcement c slot target with
    | .manual check => some check
    | .declarative _ => none
  | _ => none

theorem exists_refersTo_of_check? (h : j.check? c slot = some check) :
    ∃ target, j.RefersTo slot target ∧ check.childColumn = slot.columnTitle ∧
      check.parentTable = target.table ∧ check.parentColumn = target.idTitle := by
  unfold check? at h
  split at h
  · rename_i target htarget
    split at h
    · rename_i found hmanual
      cases h
      obtain ⟨_, rfl⟩ := enforcement_eq_manual_iff.mp hmanual
      exact ⟨target, (refersTo_iff_of_target htarget).mpr rfl, rfl, rfl, rfl⟩
    · cases h
  · cases h

/-- The checks of a compiled table are those of its slots, in the order of the slots. -/
theorem manualChecks_of_compileTable (h : j.compileTable c = .ok t)
    (hslots : j.view.slots c.name = .ok slots) : t.manualChecks = slots.filterMap (j.check? c) := by
  obtain ⟨slots', id, built, virtual, hslots', _, hbuilt, _, rfl⟩ := compileTable_eq_ok_iff.mp h
  cases hslots.symm.trans hslots'
  symm
  apply hbuilt.filterMap_eq_filterMap
  intro slot b hbuild
  obtain ⟨_, _, target?, htarget, hrelation⟩ := buildColumn_ok hbuild
  rw [check?, htarget, hrelation]
  cases target? with
  | none => rfl
  | some target =>
    simp only [Option.map_some]
    change (match j.enforcement c slot target with
      | .manual check => some check
      | .declarative _ => none) = _
    rw [enforcement]
    cases (slot.relation (Options.csvPath c.name) slot.columnTitle target j.options.rowNamespace
      j.options.separator (j.options.remoteUrl target.table)).enforcement with
    | declarative key => rfl
    | manual check => rfl

end Job

theorem Compilation.header_eq {o : Options} {s : Schema} {a : Artifacts} {v : View} {c : Class}
    {slots : List Slot} (h : Compilation o s a v) (hc : c ∈ v.tableClasses)
    (hslots : v.slots c.name = .ok slots) : ∃ t ∈ a.tables, t.toTableLocation = o.locate c.name ∧
      t.header = slots.map Slot.columnTitle ∧ t.manualChecks = slots.filterMap (Job.check? ⟨v, o⟩ c) := by
  obtain ⟨t, ht, hcompile⟩ := h.exists_table hc
  exact ⟨t, ht, Job.location_of_compileTable hcompile, Job.header_of_compileTable hcompile hslots,
    Job.manualChecks_of_compileTable hcompile hslots⟩

/-- The check of the slot at a place reads the first column with the heading of the slot, which is the
column at this place exactly when no earlier slot has the heading. In the table of a class that the slot
refers to it reads the first column with the heading of the identifier. -/
theorem compile_checks_columns {o : Options} {s : Schema} {a : Artifacts} {v : View} {c : Class}
    {slots : List Slot} {i : Nat} {slot : Slot} {check : ManualCheck} (h : compile o s = .ok a)
    (hv : View.ofSchema s = .ok v) (hc : c ∈ v.tableClasses) (hslots : v.slots c.name = .ok slots)
    (hi : slots[i]? = some slot) (hcheck : Job.check? ⟨v, o⟩ c slot = some check) :
    ∃ t ∈ a.tables, t.className = c.name ∧ t.manualChecks = slots.filterMap (Job.check? ⟨v, o⟩ c) ∧
      (∃ k ≤ i, t.header.idxOf? check.childColumn = some k ∧ Csv.Selects t.header check.childColumn k ∧
        (k = i ↔ FirstTitled slots i slot.columnTitle)) ∧
      (∀ d, o.synthetic? slot.range = none → v.rangeOf slot = .cls d →
        ∃ u ∈ a.tables, u.className = d.name ∧ check.parentTable = u.csvPath ∧
        ∃ targets p id, v.slots d.name = .ok targets ∧ targets[p]? = some id ∧
          targets.filter Slot.identifier = [id] ∧
          ∃ k ≤ p, u.header.idxOf? check.parentColumn = some k ∧
            Csv.Selects u.header check.parentColumn k ∧
            (k = p ↔ FirstTitled targets p id.columnTitle)) := by
  obtain ⟨v', h⟩ := compile_eq_ok_iff.mp h
  cases hv.symm.trans h.view
  obtain ⟨target, href, hchild, htable, hparent⟩ := Job.exists_refersTo_of_check? hcheck
  obtain ⟨t, ht, hlocation, hheader, hchecks⟩ := h.header_eq hc hslots
  refine ⟨t, ht, congrArg TableLocation.className hlocation, hchecks, ?_, ?_⟩
  · rw [hchild, hheader]
    obtain ⟨k, hle, hk, hiff⟩ := exists_idxOf?_columnTitle hi
    exact ⟨k, hle, hk, Csv.selects_of_idxOf? hk, hiff⟩
  · intro d hnone hrange
    have hd := h.mem_tableClasses hc hslots (List.mem_of_getElem? hi) hnone hrange
    obtain ⟨id, hid⟩ := h.exists_identifier hd
    obtain ⟨targets, htargets, hfilter⟩ := View.identifier_eq_ok_iff.mp hid
    obtain ⟨u, hu, hulocation, huheader, _⟩ := h.header_eq hd htargets
    rw [href.unique (.ofClass hnone hrange hid)] at htable hparent
    have hmem : id ∈ targets.filter Slot.identifier := by
      rw [hfilter]
      exact List.mem_singleton.mpr rfl
    obtain ⟨p, hp⟩ := List.mem_iff_getElem?.mp (List.mem_filter.mp hmem).1
    refine ⟨u, hu, congrArg TableLocation.className hulocation, ?_, targets, p, id, htargets, hp, hfilter, ?_⟩
    · rw [htable]
      exact (congrArg TableLocation.csvPath hulocation).symm
    · rw [hparent, huheader]
      obtain ⟨k, hle, hk, hiff⟩ := exists_idxOf?_columnTitle hp
      exact ⟨k, hle, hk, Csv.selects_of_idxOf? hk, hiff⟩

/-- Friends and colleagues of a person stand under one heading. -/
def contactSchema : Schema where
  name := "people"
  classPrefix := some "ex"
  prefixes := [("ex", "https://example.org/")]
  types := [{ name := "string" }]
  classes := [{ name := "Person", slots := ["id", "friend", "colleague"] }]
  slots := [{ name := "id", required := true, identifier := true },
    { name := "friend", title := some "Contact", range := "Person" },
    { name := "colleague", title := some "Contact", range := "Person" }]

theorem compile_checks_columns_contact : ∃ a, compile {} contactSchema = .ok a ∧
    ∃ t ∈ a.tables, ∃ check ∈ t.manualChecks, ∃ k ≤ 2, t.header.idxOf? check.childColumn = some k := by
  obtain ⟨text, ha⟩ := exists_compile (o := {}) (s := contactSchema) (by decide) rfl rfl rfl rfl
  obtain ⟨t, ht, _, hchecks, ⟨k, hle, hk, _⟩, _⟩ := compile_checks_columns ha rfl List.mem_cons_self rfl
    (i := 2) rfl rfl
  refine ⟨_, ha, t, ht, _, ?_, k, hle, hk⟩
  rw [hchecks]
  exact List.mem_of_getElem? (i := 1) rfl

/-- One colleague is no person, but the check of the colleagues reads the friends instead. -/
def contactTable : Bytes := Text.Utf8.encode "id*,Contact,Contact\na,a,nobody\n"

theorem exists_check_of_other_column : ∃ a v, compile {} contactSchema = .ok a ∧
    View.ofSchema contactSchema = .ok v ∧ ∃ c ∈ v.tableClasses, ∃ slots, v.slots c.name = .ok slots ∧
    ∃ slot check, slots[2]? = some slot ∧ Job.check? ⟨v, {}⟩ c slot = some check ∧
    ∃ t ∈ a.tables, t.className = c.name ∧ t.header.idxOf? check.childColumn = some 1 ∧
      Csv.header (Csv.scan contactTable) = .ok t.header ∧
      Csv.column t.csvPath check.childColumn contactTable = .ok ["a"] := by
  obtain ⟨text, ha⟩ := exists_compile (o := {}) (s := contactSchema) (by decide) rfl rfl rfl rfl
  refine ⟨_, _, ha, rfl, _, List.mem_cons_self, _, rfl, _, _, rfl, rfl, _, List.mem_cons_self, ?_⟩
  refine ⟨by decide +kernel, by decide +kernel, ?_, ?_⟩ <;> decide +kernel

end SchemaTables
