import SchemaTables.Proofs.Artifacts.Metadata
import SchemaTables.Proofs.Dependency.Reordering
import SchemaTables.Proofs.Path.FileName
import SchemaTables.Proofs.Plan.Build
import SchemaTables.Proofs.Table.Reordering

/-!
The order in which a schema lists its classes, slots and types. Tables come in the order of their classes,
and so do the entries of tables in the metadata; nothing else sees the order. What is accumulated over the
tables (the graph and the groups of checks) takes each part from one table only, so that the tables may be
exchanged.
-/

namespace SchemaTables

set_option autoImplicit false

variable {o : Options} {s s' : Schema} {a a' : Artifacts} {v v' : View} {t u : CompiledTable}

/-- The tables have pairwise different classes, and the graph is told the same of each of them. -/
theorem directDependencies_eq_of_perm {tables tables' : List CompiledTable} (h : tables.Perm tables')
    (hnodup : (tables.map (·.className)).Nodup) : directDependencies tables = directDependencies tables' := by
  rw [directDependencies_eq, directDependencies_eq]
  apply DependencyGraph.ofEntries_eq_of_filter_eq
  intro cls
  rw [List.filter_flatMap, List.filter_flatMap]
  have hclass : ∀ t : CompiledTable, t.entries.filter (·.cls == cls) ≠ [] → t.className = cls := by
    intro t hne
    obtain ⟨e, he⟩ := List.exists_mem_of_ne_nil _ hne
    obtain ⟨hmem, hcls⟩ := List.mem_filter.mp he
    rw [← CompiledTable.cls_of_mem_entries hmem]
    simpa using hcls
  apply h.flatMap_eq
  intro t ht u hu ht' hu'
  exact List.inj_on_of_nodup_map hnodup ht hu ((hclass t ht').trans (hclass u hu').symm)

namespace Compilation

theorem classNames (h : Compilation o s a v) :
    a.tables.map (·.className) = v.tableClasses.map Class.name := by
  refine (h.tables.map_eq_map ?_).symm
  intro c t hcompile
  exact (Job.className_of_compileTable hcompile).symm

theorem classNames_nodup (h : Compilation o s a v) : (a.tables.map (·.className)).Nodup := by
  rw [h.classNames]
  exact View.tableClasses_names_nodup h.view

/-- The tables come in the order in which the schema lists their classes. -/
theorem classNames_sublist (h : Compilation o s a v) :
    (a.tables.map (·.className)).Sublist (s.classes.map Class.name) := by
  obtain ⟨_, _, _, hschema, _⟩ := View.ofSchema_eq_ok_iff.mp h.view
  rw [h.classNames, ← hschema]
  exact List.filter_sublist.map Class.name

theorem childTable_of_mem (h : Compilation o s a v) (ht : t ∈ a.tables) {check : ManualCheck}
    (hcheck : check ∈ t.manualChecks) : ∃ c ∈ s.classes, t.className = c.name ∧
      check.childTable = Options.csvPath c.name := by
  obtain ⟨c, hc, hcompile⟩ := h.exists_class ht
  obtain ⟨hmem, _, slots, hslots, _⟩ := View.mem_tableClasses_iff.mp hc
  obtain ⟨_, _, _, hschema, _⟩ := View.ofSchema_eq_ok_iff.mp h.view
  obtain ⟨slot, _, target, _, _, rfl⟩ := (Job.mem_checks_iff hcompile hslots).mp hcheck
  exact ⟨c, hschema ▸ hmem, Job.className_of_compileTable hcompile, rfl⟩

/-- Without slashes in their names, classes have tables with different paths, and the checks of a child table
all come from the table of one class. -/
theorem plan_eq_of_perm (h : Compilation o s a v) (hslash : ∀ c ∈ s.classes, '/' ∉ c.name.toList)
    {tables : List CompiledTable} (hperm : a.tables.Perm tables) :
    a.plan = .ofChecks (tables.map CompiledTable.manualChecks).flatten o.validationDir := by
  have hone : ∀ t ∈ a.tables, ∀ u ∈ a.tables, ∀ check ∈ t.manualChecks, ∀ check' ∈ u.manualChecks,
      check.childTable.Same check'.childTable → t = u := by
    intro t ht u hu check hcheck check' hcheck' hsame
    obtain ⟨c, hc, hname, hchild⟩ := h.childTable_of_mem ht hcheck
    obtain ⟨d, hd, hname', hchild'⟩ := h.childTable_of_mem hu hcheck'
    rw [hchild, hchild'] at hsame
    have heq := Options.eq_of_csvPath_same (hslash c hc) (hslash d hd) hsame
    rw [heq] at hname
    exact List.inj_on_of_nodup_map h.classNames_nodup ht hu (hname.trans hname'.symm)
  have hflat : ∀ tables : List CompiledTable, (tables.map CompiledTable.manualChecks).flatten =
      tables.flatMap CompiledTable.manualChecks := fun _ => List.flatMap_def.symm
  have hgroups : groupChecks a.manualChecks = groupChecks (tables.map CompiledTable.manualChecks).flatten := by
    rw [Artifacts.manualChecks, hflat, hflat]
    apply groupChecks_congr
    intro p
    rw [List.filter_flatMap, List.filter_flatMap]
    apply hperm.flatMap_eq
    intro t ht u hu ht' hu'
    obtain ⟨check, hcheck⟩ := List.exists_mem_of_ne_nil _ ht'
    obtain ⟨check', hcheck'⟩ := List.exists_mem_of_ne_nil _ hu'
    obtain ⟨hcheck, hsame⟩ := List.mem_filter.mp hcheck
    obtain ⟨hcheck', hsame'⟩ := List.mem_filter.mp hcheck'
    have hsame : p.Same check.childTable := by simpa using hsame
    have hsame' : p.Same check'.childTable := by simpa using hsame'
    exact hone t ht u hu check hcheck check' hcheck' (hsame.symm.trans hsame')
  rw [h.plan, CheckPlan.ofChecks, hgroups]
  rfl

/-- A schema in another order compiles to the same artifacts, with the tables in another order. -/
theorem exists_reordered (h : Compilation o s a v) (hs : s.Reordered s')
    (hslash : ∀ c ∈ s.classes, '/' ∉ c.name.toList) :
    ∃ tables v', a.tables.Perm tables ∧ Compilation o s' { a with tables := tables } v' := by
  obtain ⟨v', hv', hagrees⟩ := hs.exists_view h.view
  have hcompile : ∀ c, Job.compileTable ⟨v', o⟩ c = Job.compileTable ⟨v, o⟩ c := by
    intro c
    exact (hagrees.compileTable c).symm
  obtain ⟨tables, htables⟩ : ∃ tables, v'.tableClasses.mapM (Job.compileTable ⟨v', o⟩) = .ok tables := by
    apply Except.exists_mapM_eq_ok
    intro c hc
    obtain ⟨t, _, ht⟩ := h.exists_table (hagrees.tableClasses.mem_iff.mpr hc)
    exact ⟨t, (hcompile c).trans ht⟩
  have hforall := Except.mapM_eq_ok_iff.mp htables
  have hperm : a.tables.Perm tables := by
    apply hagrees.tableClasses.forall₂_ok h.tables
    exact hforall.imp fun c t ht => (hcompile c).symm.trans ht
  refine ⟨tables, v', hperm, ?_⟩
  exact {
    inside := h.inside
    view := hv'
    valid := hagrees.validate h.valid
    tables := hforall
    closed := (directDependencies_eq_of_perm hperm h.classNames_nodup) ▸ h.closed
    descriptions := hagrees.descriptions ▸ h.descriptions
    options := h.options
    schemaName := h.schemaName.trans hs.name
    plan := h.plan_eq_of_perm hslash hperm }

end Compilation

namespace Artifacts

/-- The tables that the metadata of a table lists. -/
def needed (a : Artifacts) (t : TableLocation) : PathSet := (a.graph.dependencies? t.className).getD []

/-- The entries of class tables in the metadata of a table. -/
def classEntries (a : Artifacts) (t : TableLocation) : List TableEntry :=
  (a.locations.filter fun u => (a.needed t).contains u.csvPath).map fun u => u.entry t a.options

def syntheticEntries (a : Artifacts) (t : TableLocation) : List TableEntry :=
  (a.options.syntheticTables.filter fun u => (a.needed t).contains u.path).map fun u => u.entry a.options

theorem metadata_eq (a : Artifacts) (t : TableLocation) :
    a.metadata t = ⟨a.classEntries t ++ a.syntheticEntries t⟩ := rfl

/-- The artifacts are the same but for the order of the tables, and of the entries of class tables in the
metadata. -/
structure SameUpToOrder (a a' : Artifacts) : Prop where
  schemaName : a.schemaName = a'.schemaName
  options : a.options = a'.options
  syntheticSchemas : a.options.syntheticSchemas = a'.options.syntheticSchemas
  table? : ∀ cls, a.table? cls = a'.table? cls
  tables : a.tables.Perm a'.tables
  graph : a.graph = a'.graph
  passes : a.passes = a'.passes
  plan : a.plan = a'.plan
  makefile : a.plan.makefile = a'.plan.makefile
  descriptions : a.descriptions = a'.descriptions
  metadata : ∀ t, a.metadata t = ⟨a.classEntries t ++ a.syntheticEntries t⟩ ∧
    a'.metadata t = ⟨a'.classEntries t ++ a'.syntheticEntries t⟩
  classEntries : ∀ t, (a.classEntries t).Perm (a'.classEntries t)
  syntheticEntries : ∀ t, a.syntheticEntries t = a'.syntheticEntries t

end Artifacts

theorem Compilation.sameUpToOrder {tables : List CompiledTable} (h : Compilation o s a v)
    (hperm : a.tables.Perm tables) : a.SameUpToOrder { a with tables := tables } where
  schemaName := rfl
  options := rfl
  syntheticSchemas := rfl
  table? := hperm.find?_key h.classNames_nodup
  tables := hperm
  graph := rfl
  passes := rfl
  plan := rfl
  makefile := rfl
  descriptions := rfl
  metadata := fun t => ⟨a.metadata_eq t, Artifacts.metadata_eq _ t⟩
  classEntries := by
    intro t
    exact ((hperm.map CompiledTable.toTableLocation).filter _).map _
  syntheticEntries := fun _ => rfl

/-- A schema that lists its classes, slots and types in another order compiles when this one does, and to the
same artifacts, but for the tables and their entries, which follow the order of the classes. -/
theorem compile_reordered (hs : s.Reordered s') (hslash : ∀ c ∈ s.classes, '/' ∉ c.name.toList) :
    ((∃ a, compile o s = .ok a) ↔ ∃ a', compile o s' = .ok a') ∧
    ∀ a a', compile o s = .ok a → compile o s' = .ok a' → a.SameUpToOrder a' ∧
      (a.tables.map (·.className)).Sublist (s.classes.map Class.name) ∧
      (a'.tables.map (·.className)).Sublist (s'.classes.map Class.name) := by
  have hslash' : ∀ c ∈ s'.classes, '/' ∉ c.name.toList := by
    intro c hc
    exact hslash c (hs.classes.mem_iff.mpr hc)
  constructor
  · constructor
    · rintro ⟨a, ha⟩
      obtain ⟨v, h⟩ := compile_eq_ok_iff.mp ha
      obtain ⟨tables, v', _, h'⟩ := h.exists_reordered hs hslash
      exact ⟨_, compile_eq_ok_iff.mpr ⟨v', h'⟩⟩
    · rintro ⟨a', ha'⟩
      obtain ⟨v', h'⟩ := compile_eq_ok_iff.mp ha'
      obtain ⟨tables, v, _, h⟩ := h'.exists_reordered hs.symm hslash'
      exact ⟨_, compile_eq_ok_iff.mpr ⟨v, h⟩⟩
  · intro a a' ha ha'
    obtain ⟨v, h⟩ := compile_eq_ok_iff.mp ha
    obtain ⟨tables, v', hperm, h'⟩ := h.exists_reordered hs hslash
    cases ha'.symm.trans (compile_eq_ok_iff.mpr ⟨v', h'⟩)
    exact ⟨h.sameUpToOrder hperm, h.classNames_sublist, h'.classNames_sublist⟩

/-- Guests have a host; both are things, which have no table of their own. -/
def guestSchema : Schema where
  name := "party"
  classPrefix := some "ex"
  prefixes := [("ex", "https://example.org/")]
  types := [{ name := "string" }]
  classes := [{ name := "Thing", slots := ["id"], isAbstract := true },
    { name := "Guest", parent := some "Thing", slots := ["host"] }, { name := "Host", parent := some "Thing" }]
  slots := [{ name := "id", required := true, identifier := true }, { name := "host", range := "Host" }]

theorem compile_reordered_guest : ∃ a a', compile {} guestSchema = .ok a ∧
    compile {} { guestSchema with
      classes := guestSchema.classes.reverse, slots := guestSchema.slots.reverse } = .ok a' ∧
    a.SameUpToOrder a' ∧ a.tables.map (·.className) = ["Guest", "Host"] := by
  obtain ⟨text, ha⟩ := exists_compile (o := {}) (s := guestSchema) (by decide) rfl rfl rfl rfl
  have hs : guestSchema.Reordered { guestSchema with
      classes := guestSchema.classes.reverse, slots := guestSchema.slots.reverse } :=
    ⟨rfl, rfl, rfl, rfl, .refl _, (List.reverse_perm _).symm, (List.reverse_perm _).symm⟩
  obtain ⟨hiff, hsame⟩ := compile_reordered hs (o := {}) (by decide +kernel)
  obtain ⟨a', ha'⟩ := hiff.mp ⟨_, ha⟩
  exact ⟨_, a', ha, ha', (hsame _ a' ha ha').1, rfl⟩

end SchemaTables
