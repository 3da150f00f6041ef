import SchemaTables.Proofs.Artifacts.Compile
import SchemaTables.Proofs.Check.Run
import SchemaTables.Proofs.Path.FileName
import SchemaTables.Proofs.Plan.Build

/-!
What the checks of a compiled schema say of data. When the tables of the classes have the headers that
were compiled, a run of the plan reports success exactly when every optional or multivalued reference in
them is to an identifier that is there.
-/

namespace SchemaTables

set_option autoImplicit false

namespace Job

/-- The identifiers in the table that a slot refers to: the cells under the heading of a synthetic table,
or those at the place that the identifier has among the slots of a class. -/
inductive IdentifierCells (j : Job) (s : Store) (dataDir : Path) (slot : Slot) : List String → Prop where
  | synthetic {t : SyntheticTable} {header : List String} {rows : List (List String)} {i : Nat} :
      j.options.synthetic? slot.range = some t → s.HasTable (dataDir.join t.path) header rows →
      header.idxOf? t.idTitle = some i → IdentifierCells j s dataDir slot (Csv.cellsAt i rows)
  | ofClass {d : Class} {slots : List Slot} {id : Slot} {header : List String}
      {rows : List (List String)} {i : Nat} :
      j.options.synthetic? slot.range = none → j.view.rangeOf slot = .cls d →
      j.view.slots d.name = .ok slots → slots[i]? = some id → id.identifier = true →
      s.HasTable (dataDir.join (Options.csvPath d.name)) header rows →
      IdentifierCells j s dataDir slot (Csv.cellsAt i rows)

/-- Every value that is not blank in the column of a slot, which stands at place `i` in the table of the
class, is an identifier of what the slot refers to. -/
def ReferencesHold (j : Job) (s : Store) (dataDir : Path) (c : Class) (i : Nat) (slot : Slot) : Prop :=
  ∀ identifiers, j.IdentifierCells s dataDir slot identifiers →
    ∀ header rows, s.HasTable (dataDir.join (Options.csvPath c.name)) header rows →
      ∀ cell ∈ Csv.cellsAt i rows,
        ∀ value ∈ Check.cellValues (if slot.multivalued then some j.options.separator else none) cell,
          Text.allBlank value = false → value ∈ identifiers

end Job

/-- The directory holds the table of every class, with the header that was compiled, and every synthetic
table that a slot ranges over, with a column of its heading. -/
structure Artifacts.Populated (a : Artifacts) (v : View) (s : Store) (dataDir : Path) : Prop where
  classes : ∀ t ∈ a.tables, ∃ rows, s.HasTable (dataDir.join t.csvPath) t.header rows
  synthetic : ∀ c ∈ v.tableClasses, ∀ slots, v.slots c.name = .ok slots → ∀ slot ∈ slots, ∀ u,
    a.options.synthetic? slot.range = some u →
      ∃ header rows, s.HasTable (dataDir.join u.path) header rows ∧ u.idTitle ∈ header

theorem idxOf?_map_of_nodup {l : List Slot} {slot : Slot} {i : Nat}
    (hnodup : (l.map Slot.columnTitle).Nodup) (hi : l[i]? = some slot) :
    (l.map Slot.columnTitle).idxOf? slot.columnTitle = some i := by
  obtain ⟨hlt, hget⟩ := List.getElem?_eq_some_iff.mp hi
  have hlt' : i < (l.map Slot.columnTitle).length := by rwa [List.length_map]
  have hget' : (l.map Slot.columnTitle)[i] = slot.columnTitle := by rw [List.getElem_map, hget]
  refine List.idxOf?_eq_some_iff.mpr ⟨hlt', hget', fun k hk heq => ?_⟩
  have hsame : k = i := hnodup.getElem_inj_iff.mp (heq.trans hget'.symm)
  exact Nat.ne_of_lt hk hsame

namespace Compilation

variable {o : Options} {s : Schema} {a : Artifacts} {v : View} {c : Class} {store : Store} {dataDir : Path}
  {slots : List Slot} {slot : Slot} {i : Nat} {target : RelationTarget} {cells : List String}

section Columns
variable (h : Compilation o s a v) (hpopulated : a.Populated v store dataDir)
  (htitles : ∀ t ∈ a.tables, t.header.Nodup)
include h hpopulated htitles

/-- The column of a slot stands at the place that the slot has in its class. -/
theorem exists_column (hc : c ∈ v.tableClasses) (hslots : v.slots c.name = .ok slots)
    (hi : slots[i]? = some slot) : ∃ header rows,
      store.HasTable (dataDir.join (Options.csvPath c.name)) header rows ∧
      store.HasColumn (dataDir.join (Options.csvPath c.name)) slot.columnTitle (Csv.cellsAt i rows) := by
  obtain ⟨t, ht, hcompile⟩ := h.exists_table hc
  obtain ⟨rows, htable⟩ := hpopulated.classes t ht
  have hnodup := htitles t ht
  rw [Job.csvPath_of_compileTable hcompile] at htable
  rw [Job.header_of_compileTable hcompile hslots] at htable hnodup
  exact ⟨_, rows, htable, htable.column (idxOf?_map_of_nodup hnodup hi)⟩

theorem hasColumn_of_identifierCells (hc : c ∈ v.tableClasses) (hslots : v.slots c.name = .ok slots)
    (hslot : slot ∈ slots) (href : Job.RefersTo ⟨v, o⟩ slot target)
    (hcells : Job.IdentifierCells ⟨v, o⟩ store dataDir slot cells) :
    store.HasColumn (dataDir.join target.table) target.idTitle cells := by
  cases hcells with
  | synthetic ht htable hi =>
    rw [href.unique (.synthetic ht)]
    exact htable.column hi
  | @ofClass d dslots id header rows i hnone hrange hdslots hi hid htable =>
    have hd := h.mem_tableClasses hc hslots hslot hnone hrange
    obtain ⟨header', rows', htable', hcolumn⟩ :=
      h.exists_column hpopulated htitles hd hdslots hi
    cases (htable.unique htable').2
    obtain ⟨id', hid'⟩ := h.exists_identifier hd
    obtain ⟨dslots', hdslots', hfilter⟩ := View.identifier_eq_ok_iff.mp hid'
    cases hdslots.symm.trans hdslots'
    have hmem : id ∈ dslots.filter Slot.identifier :=
      List.mem_filter.mpr ⟨List.mem_of_getElem? hi, hid⟩
    rw [hfilter, List.mem_singleton] at hmem
    rw [href.unique (.ofClass hnone hrange hid'), ← hmem]
    exact hcolumn

theorem exists_identifierCells (hc : c ∈ v.tableClasses) (hslots : v.slots c.name = .ok slots)
    (hslot : slot ∈ slots) (href : Job.RefersTo ⟨v, o⟩ slot target) :
    ∃ cells, Job.IdentifierCells ⟨v, o⟩ store dataDir slot cells := by
  cases href with
  | @synthetic u hu =>
    obtain ⟨header, rows, htable, hmem⟩ :=
      hpopulated.synthetic c hc slots hslots slot hslot u (by rw [h.options]; exact hu)
    obtain ⟨i, hi⟩ := Option.isSome_iff_exists.mp (List.isSome_idxOf?.mpr hmem)
    exact ⟨_, .synthetic hu htable hi⟩
  | @ofClass d id hnone hrange hid =>
    have hd := h.mem_tableClasses hc hslots hslot hnone hrange
    obtain ⟨dslots, hdslots, hfilter⟩ := View.identifier_eq_ok_iff.mp hid
    have hmem : id ∈ dslots.filter Slot.identifier := hfilter ▸ List.mem_singleton.mpr rfl
    obtain ⟨i, hi⟩ := List.mem_iff_getElem?.mp (List.mem_filter.mp hmem).1
    obtain ⟨header, rows, htable, _⟩ := h.exists_column hpopulated htitles hd hdslots hi
    exact ⟨_, .ofClass hnone hrange hdslots hi (List.mem_filter.mp hmem).2 htable⟩

/-- A check passes when the references in the column of its slot hold. -/
theorem passes_iff_referencesHold (hc : c ∈ v.tableClasses) (hslots : v.slots c.name = .ok slots)
    (hi : slots[i]? = some slot) (href : Job.RefersTo ⟨v, o⟩ slot target) :
    CheckStep.Passes ⟨slot.columnTitle, target.table, target.idTitle,
        if slot.multivalued then some o.separator else none⟩
        store dataDir (dataDir.join (Options.csvPath c.name)) ↔
      Job.ReferencesHold ⟨v, o⟩ store dataDir c i slot := by
  have hslot := List.mem_of_getElem? hi
  obtain ⟨header, rows, htable, hchild⟩ := h.exists_column hpopulated htitles hc hslots hi
  constructor
  · rintro ⟨child, parent, hchild', hparent, hall⟩ identifiers hcells header' rows' htable'
    cases (htable'.unique htable).2
    cases hchild'.unique hchild
    cases hparent.unique (h.hasColumn_of_identifierCells hpopulated htitles hc hslots hslot href hcells)
    exact hall
  · intro hhold
    obtain ⟨cells, hcells⟩ := h.exists_identifierCells hpopulated htitles hc hslots hslot href
    exact ⟨_, cells, hchild, h.hasColumn_of_identifierCells hpopulated htitles hc hslots hslot href hcells,
      hhold cells hcells header rows htable⟩

/-- The columns of a check are there, in files that are no logs. -/
theorem readable (hnames : ∀ c ∈ v.tableClasses, '/' ∉ c.name.toList)
    (hlogs : ∀ u ∈ o.syntheticTables, ¬ a.plan.Writes store dataDir (store.destination (dataDir.join u.path)))
    (hc : c ∈ v.tableClasses) (hslots : v.slots c.name = .ok slots) (hi : slots[i]? = some slot)
    (href : Job.RefersTo ⟨v, o⟩ slot target) (separator : Option String) :
    CheckStep.Readable (a.plan.Writes store dataDir) store dataDir
      (dataDir.join (Options.csvPath c.name))
      ⟨slot.columnTitle, target.table, target.idTitle, separator⟩ := by
  have hslot := List.mem_of_getElem? hi
  have hfree : ∀ d ∈ v.tableClasses,
      ¬ a.plan.Writes store dataDir (store.destination (dataDir.join (Options.csvPath d.name))) := by
    rintro d hd ⟨t, ht, hlog⟩
    rw [h.plan] at ht
    rw [(CheckPlan.mem_tasks_ofChecks ht).2] at hlog
    rcases hlog with hlog | hlog
    · exact destination_csvPath_ne_logPath (hnames d hd) (by decide) rfl _ _ _ _ hlog
    · exact destination_csvPath_ne_logPath (hnames d hd) (by decide) rfl _ _ _ _ hlog
  obtain ⟨_, _, _, hchild⟩ := h.exists_column hpopulated htitles hc hslots hi
  obtain ⟨cells, hcells⟩ := h.exists_identifierCells hpopulated htitles hc hslots hslot href
  refine ⟨⟨_, hchild⟩, hfree c hc,
    ⟨cells, h.hasColumn_of_identifierCells hpopulated htitles hc hslots hslot href hcells⟩, ?_⟩
  rcases h.target_cases hc hslots hslot href with ⟨u, hu, rfl⟩ | ⟨d, hd, id, _, rfl⟩
  · exact hlogs u hu
  · exact hfree d hd

end Columns

/-- The checks of a compilation are those of the slots that are multivalued or not required. -/
theorem mem_manualChecks_iff (h : Compilation o s a v) {check : ManualCheck} :
    check ∈ a.manualChecks ↔ ∃ c ∈ v.tableClasses, ∃ slots, v.slots c.name = .ok slots ∧
      ∃ slot ∈ slots, ∃ target, Job.RefersTo ⟨v, o⟩ slot target ∧
        (slot.multivalued = true ∨ slot.required = false) ∧
        check = ⟨Options.csvPath c.name, slot.columnTitle, target.table, target.idTitle,
          if slot.multivalued then some o.separator else none⟩ := by
  simp only [Artifacts.manualChecks, List.mem_flatten, List.mem_map, exists_exists_and_eq_and]
  constructor
  · rintro ⟨t, ht, hcheck⟩
    obtain ⟨c, hc, hcompile⟩ := h.exists_class ht
    obtain ⟨slots, hslots, _⟩ := (View.mem_tableClasses_iff.mp hc).2.2
    exact ⟨c, hc, slots, hslots, (Job.mem_checks_iff hcompile hslots).mp hcheck⟩
  · rintro ⟨c, hc, slots, hslots, hcheck⟩
    obtain ⟨t, ht, hcompile⟩ := h.exists_table hc
    exact ⟨t, ht, (Job.mem_checks_iff hcompile hslots).mpr hcheck⟩

/-- The steps of the task of a table are the checks of the class whose table it is. -/
theorem mem_steps_iff (h : Compilation o s a v) (hnames : ∀ c ∈ v.tableClasses, '/' ∉ c.name.toList)
    {p : Path} {step : CheckStep} :
    (∃ t ∈ a.plan.tasks, t.childTable = p ∧ step ∈ t.steps) ↔
      ∃ c ∈ v.tableClasses, Options.csvPath c.name = p ∧ ∃ slots, v.slots c.name = .ok slots ∧
        ∃ slot ∈ slots, ∃ target, Job.RefersTo ⟨v, o⟩ slot target ∧
          (slot.multivalued = true ∨ slot.required = false) ∧
          step = ⟨slot.columnTitle, target.table, target.idTitle,
            if slot.multivalued then some o.separator else none⟩ := by
  -- the child table of a task is written as that of any of its checks
  have hpath : ∀ t ∈ a.plan.tasks, ∀ c ∈ v.tableClasses, t.childTable.Same (Options.csvPath c.name) →
      t.childTable = Options.csvPath c.name := by
    intro t ht c hc hsame
    rw [h.plan] at ht
    obtain ⟨check, hcheck, htable⟩ := (CheckPlan.mem_tasks_ofChecks ht).1
    obtain ⟨d, hd, _, _, _, _, _, _, _, rfl⟩ := h.mem_manualChecks_iff.mp hcheck
    rw [← htable] at hsame ⊢
    rw [Options.eq_of_csvPath_same (hnames d hd) (hnames c hc) hsame]
  constructor
  · rintro ⟨t, ht, rfl, hstep⟩
    obtain ⟨check, hcheck, hsame, rfl⟩ := CheckPlan.exists_check_of_step (h.plan ▸ ht) hstep
    obtain ⟨c, hc, slots, hslots, slot, hslot, target, href, hmanual, rfl⟩ :=
      h.mem_manualChecks_iff.mp hcheck
    exact ⟨c, hc, (hpath t ht c hc hsame).symm, slots, hslots, slot, hslot, target, href, hmanual, rfl⟩
  · rintro ⟨c, hc, rfl, slots, hslots, slot, hslot, target, href, hmanual, rfl⟩
    have hcheck := h.mem_manualChecks_iff.mpr
      ⟨c, hc, slots, hslots, slot, hslot, target, href, hmanual, rfl⟩
    obtain ⟨t, ht, hsame, hstep⟩ := CheckPlan.exists_task_of_check o.validationDir hcheck
    rw [← h.plan] at ht
    exact ⟨t, ht, hpath t ht c hc hsame, hstep⟩

end Compilation

/-- Persons have any number of friends, who are persons. -/
def friendSchema : Schema where
  name := "friends"
  classPrefix := some "ex"
  prefixes := [("ex", "https://example.org/")]
  types := [{ name := "string" }]
  classes := [{ name := "Person", slots := ["id", "friends"] }]
  slots := [{ name := "id", required := true, identifier := true },
    { name := "friends", range := "Person", multivalued := true }]

def friendTable : String := "id*,friends\nann,ben|eve\nben,ann\neve,\n"

def friendStore : Store where
  items := [(["data"], .directory), (["data", "Person.csv"], .file (Text.Utf8.encode friendTable))]

def friendPlan : CheckPlan :=
  .ofChecks [⟨⟨"Person.csv"⟩, "friends", ⟨"Person.csv"⟩, "id*", some "|"⟩] ⟨"out/validation"⟩

end SchemaTables
