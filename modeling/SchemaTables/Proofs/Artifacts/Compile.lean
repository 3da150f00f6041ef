import SchemaTables.Artifacts
import SchemaTables.Proofs.Table.Relation

/-!
What a compilation that succeeds went through: the schema has a valid view, every table class has been
compiled, and the dependencies of the tables are closed.
-/

namespace SchemaTables

set_option autoImplicit false

/-- The artifacts are those of the schema, whose view is `v`. -/
structure Compilation (o : Options) (s : Schema) (a : Artifacts) (v : View) : Prop where
  inside : o.remoteDir.escapesRoot = false
  view : View.ofSchema s = .ok v
  valid : v.validate o.syntheticNames = .ok ()
  tables : List.Forall₂ (fun c t => Job.compileTable ⟨v, o⟩ c = .ok t) v.tableClasses a.tables
  closed : (directDependencies a.tables).close o.passLimit = (.settled a.passes, a.graph)
  descriptions : Job.descriptions ⟨v, o⟩ = .ok a.descriptions
  options : a.options = o
  schemaName : a.schemaName = s.name
  plan : a.plan = .ofChecks a.manualChecks o.validationDir

variable {o : Options} {s : Schema} {a : Artifacts} {v : View}

theorem compile_eq_ok_iff : compile o s = .ok a ↔ ∃ v, Compilation o s a v := by
  unfold compile
  split
  · rename_i hescapes
    constructor
    · intro h
      cases h
    · rintro ⟨v, h⟩
      rw [h.inside] at hescapes
      cases hescapes
  · rename_i hinside
    rw [Bool.not_eq_true] at hinside
    simp only [Except.bind_eq_ok_iff, Except.mapError_eq_ok_iff, Except.mapM_eq_ok_iff]
    constructor
    · rintro ⟨v, hview, _, hvalid, tables, htables, h⟩
      split at h
      · cases h
      · rename_i passes graph hclosed
        obtain ⟨descriptions, hdescriptions, h⟩ := Except.bind_eq_ok_iff.mp h
        cases h
        exact ⟨v, hinside, hview, hvalid, htables, hclosed,
          Except.mapError_eq_ok_iff.mp hdescriptions, rfl, rfl, rfl⟩
    · rintro ⟨v, h⟩
      refine ⟨v, h.view, (), h.valid, a.tables, h.tables, ?_⟩
      rw [h.closed]
      apply Except.bind_eq_ok_iff.mpr
      refine ⟨a.descriptions, Except.mapError_eq_ok_iff.mpr h.descriptions, ?_⟩
      have hplan := h.plan
      have hoptions := h.options
      have hname := h.schemaName
      cases a
      simp_all [Artifacts.manualChecks, pure, Except.pure]

/-- The reference document of a schema that has a view never fails. -/
theorem Job.exists_descriptions (hv : View.ofSchema s = .ok v) :
    ∃ text, Job.descriptions ⟨v, o⟩ = .ok text := by
  obtain ⟨_, _, _, hschema, _⟩ := View.ofSchema_eq_ok_iff.mp hv
  have hsections : ∃ sections,
      (v.schema.classes.mergeSort fun a b => a.name ≤ b.name).mapM
        (fun c => (Job.classSection ⟨v, o⟩ c).map (· ++ [""])) = .ok sections := by
    apply Except.exists_mapM_eq_ok
    intro c hc
    obtain ⟨slots, hslots⟩ := View.exists_slots hv (hschema ▸ List.mem_mergeSort.mp hc)
    exact ⟨_, Except.map_eq_ok_iff.mpr ⟨_, Except.bind_eq_ok_iff.mpr ⟨slots, hslots, rfl⟩, rfl⟩⟩
  obtain ⟨sections, hsections⟩ := hsections
  exact ⟨_, Except.bind_eq_ok_iff.mpr ⟨sections, hsections, rfl⟩⟩

/-- A schema with a valid view compiles when all its tables do and their dependencies can be closed. -/
theorem exists_compile {tables : List CompiledTable} {passes : Nat} {graph : DependencyGraph}
    (hinside : o.remoteDir.escapesRoot = false) (hview : View.ofSchema s = .ok v)
    (hvalid : v.validate o.syntheticNames = .ok ())
    (htables : v.tableClasses.mapM (Job.compileTable ⟨v, o⟩) = .ok tables)
    (hclosed : (directDependencies tables).close o.passLimit = (.settled passes, graph)) :
    ∃ text, compile o s = .ok ⟨o, s.name, tables, graph, passes,
      .ofChecks (tables.map CompiledTable.manualChecks).flatten o.validationDir, text⟩ := by
  obtain ⟨text, htext⟩ := Job.exists_descriptions (o := o) hview
  refine ⟨text, compile_eq_ok_iff.mpr ⟨v, hinside, hview, hvalid, ?_, hclosed, htext, rfl, rfl, rfl⟩⟩
  exact Except.mapM_eq_ok_iff.mp htables

namespace Compilation

variable {c : Class} {t : CompiledTable}

theorem exists_table (h : Compilation o s a v) (hc : c ∈ v.tableClasses) :
    ∃ t ∈ a.tables, Job.compileTable ⟨v, o⟩ c = .ok t :=
  h.tables.exists_of_mem_left hc

theorem exists_class (h : Compilation o s a v) (ht : t ∈ a.tables) :
    ∃ c ∈ v.tableClasses, Job.compileTable ⟨v, o⟩ c = .ok t :=
  h.tables.exists_of_mem_right ht

theorem locations (h : Compilation o s a v) :
    a.locations = v.tableClasses.map fun c => o.locate c.name := by
  refine (h.tables.map_eq_map ?_).symm
  intro c t hcompile
  exact (Job.location_of_compileTable hcompile).symm

theorem exists_identifier (h : Compilation o s a v) (hc : c ∈ v.tableClasses) :
    ∃ id, v.identifier c.name = .ok id :=
  (View.checkClass_eq_ok_iff.mp (View.validate_eq_ok_iff.mp h.valid c hc)).1

theorem mem_tableClasses (h : Compilation o s a v) (hc : c ∈ v.tableClasses) {slots : List Slot}
    (hslots : v.slots c.name = .ok slots) {slot : Slot} (hslot : slot ∈ slots) {d : Class}
    (hnone : o.synthetic? slot.range = none) (hrange : v.rangeOf slot = .cls d) :
    d ∈ v.tableClasses := by
  obtain ⟨_, slots', hslots', hchecks⟩ :=
    View.checkClass_eq_ok_iff.mp (View.validate_eq_ok_iff.mp h.valid c hc)
  cases hslots.symm.trans hslots'
  exact View.mem_tableClasses_of_rangeOf h.view (hchecks slot hslot).2
    (Options.notMem_syntheticNames hnone) hrange

/-- What a slot leads to has an identifier. -/
theorem exists_refersTo (h : Compilation o s a v) (hc : c ∈ v.tableClasses) {slots : List Slot}
    (hslots : v.slots c.name = .ok slots) {slot : Slot} (hslot : slot ∈ slots) {p : Path}
    (hleads : Job.LeadsTo ⟨v, o⟩ slot p) :
    ∃ target, Job.RefersTo ⟨v, o⟩ slot target ∧ target.table = p := by
  cases hleads with
  | synthetic ht => exact ⟨_, .synthetic ht, rfl⟩
  | ofClass hnone hrange =>
    obtain ⟨id, hid⟩ := h.exists_identifier (h.mem_tableClasses hc hslots hslot hnone hrange)
    exact ⟨_, .ofClass hnone hrange hid, rfl⟩

/-- What a slot refers to is a registered synthetic table or a class with a table. -/
theorem target_cases (h : Compilation o s a v) (hc : c ∈ v.tableClasses) {slots : List Slot}
    (hslots : v.slots c.name = .ok slots) {slot : Slot} (hslot : slot ∈ slots)
    {target : RelationTarget} (href : Job.RefersTo ⟨v, o⟩ slot target) :
    (∃ t ∈ o.syntheticTables, target = ⟨t.path, t.idColumn, t.idTitle⟩) ∨
    (∃ d ∈ v.tableClasses, ∃ id, v.identifier d.name = .ok id ∧
      target = ⟨Options.csvPath d.name, id.name, id.columnTitle⟩) := by
  cases href with
  | synthetic ht => exact Or.inl ⟨_, (Options.mem_of_synthetic? ht).1, rfl⟩
  | ofClass hnone hrange hid =>
    exact Or.inr ⟨_, h.mem_tableClasses hc hslots hslot hnone hrange, _, hid, rfl⟩

end Compilation

end SchemaTables
