import SchemaTables.Proofs.Schema.View
import SchemaTables.Table.Metadata

/-!
What is in a compiled table.
-/

namespace SchemaTables

set_option autoImplicit false

/-- The schema has a column of the name, and this column alone is its primary key. -/
def TableSchema.KeyedBy (s : TableSchema) (name : String) : Prop :=
  (∃ column ∈ s.columns, column.name = some name) ∧ s.primaryKey = [name]

instance (s : TableSchema) (name : String) : Decidable (s.KeyedBy name) :=
  inferInstanceAs (Decidable (_ ∧ _))

theorem SyntheticTable.keyedBy (t : SyntheticTable) (rowNamespace : String) :
    (t.tableSchema rowNamespace).KeyedBy t.idColumn :=
  ⟨⟨_, List.mem_singleton.mpr rfl, rfl⟩, rfl⟩

namespace Job

variable {j : Job} {c : Class} {slot : Slot} {t : CompiledTable} {row : String} {b : BuiltColumn}

theorem compileTable_eq_ok_iff :
    j.compileTable c = .ok t ↔ ∃ slots identifier built virtual,
      j.view.slots c.name = .ok slots ∧ j.view.identifier c.name = .ok identifier ∧
      List.Forall₂ (fun s b =>
        j.buildColumn c (rowTemplate j.options.rowNamespace identifier.name) s = .ok b) slots built ∧
      j.virtualColumns c (rowTemplate j.options.rowNamespace identifier.name) slots = .ok virtual ∧
      t = {
        toTableLocation := j.options.locate c.name
        header := slots.map Slot.columnTitle
        schema := {
          columns := built.map BuiltColumn.column ++ virtual
          aboutUrl := rowTemplate j.options.rowNamespace identifier.name
          primaryKey := (slots.filter Slot.identifier).map Slot.name
          foreignKeys := some (foreignKeys built) }
        manualChecks := manualChecks built
        dependencies := PathSet.ofList (Options.csvPath c.name :: targets built) } := by
  simp only [compileTable, Except.bind_eq_ok_iff, Except.mapM_eq_ok_iff, pure, Except.pure, Except.ok.injEq]
  constructor
  · rintro ⟨slots, hslots, identifier, hid, built, hbuilt, virtual, hvirtual, rfl⟩
    exact ⟨slots, identifier, built, virtual, hslots, hid, hbuilt, hvirtual, rfl⟩
  · rintro ⟨slots, identifier, built, virtual, hslots, hid, hbuilt, hvirtual, rfl⟩
    exact ⟨slots, hslots, identifier, hid, built, hbuilt, virtual, hvirtual, rfl⟩

theorem location_of_compileTable (h : j.compileTable c = .ok t) :
    t.toTableLocation = j.options.locate c.name := by
  obtain ⟨_, _, _, _, _, _, _, _, rfl⟩ := compileTable_eq_ok_iff.mp h
  rfl

theorem className_of_compileTable (h : j.compileTable c = .ok t) : t.className = c.name :=
  congrArg TableLocation.className (location_of_compileTable h)

theorem csvPath_of_compileTable (h : j.compileTable c = .ok t) : t.csvPath = Options.csvPath c.name :=
  congrArg TableLocation.csvPath (location_of_compileTable h)

theorem header_of_compileTable {slots : List Slot} (h : j.compileTable c = .ok t)
    (hslots : j.view.slots c.name = .ok slots) : t.header = slots.map Slot.columnTitle := by
  obtain ⟨slots', _, _, _, hslots', _, _, _, rfl⟩ := compileTable_eq_ok_iff.mp h
  cases hslots.symm.trans hslots'
  rfl

/-- The column shows the slot: it has its name, heading and marks, and a separator when the slot has
several values. -/
structure Shows (j : Job) (slot : Slot) (column : Column) : Prop where
  notVirtual : column.isVirtual = false
  name : column.name = some slot.name
  title : column.title = some slot.columnTitle
  required : column.required = slot.required
  suppressOutput : column.suppressOutput = slot.uri.isNone
  separator : column.separator = if slot.multivalued then some j.options.separator else none

theorem baseColumn_ok {column : Column} (h : j.baseColumn row slot = .ok column) :
    ∃ property, column = {
      name := some slot.name
      title := some slot.columnTitle
      required := slot.required
      suppressOutput := slot.uri.isNone
      aboutUrl := j.aboutUrl row slot
      propertyUrl := property } := by
  unfold baseColumn at h
  split at h
  · obtain ⟨property, _, h⟩ := Except.bind_eq_ok_iff.mp h
    cases h
    exact ⟨property, rfl⟩
  · cases h
    exact ⟨none, rfl⟩

theorem literalColumn_ok {type : LiteralType} {column column' : Column}
    (h : j.literalColumn slot type column = .ok column') (hseparator : column.separator = none) :
    column' = { column with
      valueUrl := column'.valueUrl
      datatype := column'.datatype
      separator := if slot.multivalued then some j.options.separator else none } := by
  simp only [literalColumn, Except.bind_eq_ok_iff] at h
  obtain ⟨_, _, _, _, _, _, h⟩ := h
  split at h
  · rename_i hsingle
    have hmultivalued : slot.multivalued = false := by simpa using hsingle.2.2
    cases h
    simp [hseparator, hmultivalued]
  · obtain ⟨_, _, h⟩ := Except.bind_eq_ok_iff.mp h
    cases h
    rfl

theorem separator_relation {target : RelationTarget} (childTable : Path)
    (childTitle rowNamespace separator parentUrl : String) :
    (slot.relation childTable childTitle target rowNamespace separator parentUrl).separator =
      if slot.multivalued then some separator else none := by
  unfold Slot.relation
  cases slot.multivalued <;> rfl

/-- A built column shows its slot, and carries the relation to the slot's target. -/
theorem buildColumn_ok (h : j.buildColumn c row slot = .ok b) :
    b.slot = slot ∧ j.Shows slot b.column ∧
    ∃ target?, j.target c slot = .ok target? ∧
      b.relation = target?.map fun target => (target, (slot.relation (Options.csvPath c.name)
        slot.columnTitle target j.options.rowNamespace j.options.separator
        (j.options.remoteUrl target.table)).enforcement) := by
  simp only [buildColumn, Except.bind_eq_ok_iff] at h
  obtain ⟨base, hbase, target?, htarget, h⟩ := h
  obtain ⟨property, rfl⟩ := baseColumn_ok hbase
  cases target? with
  | some target =>
    obtain ⟨_, _, h⟩ := Except.bind_eq_ok_iff.mp h
    cases h
    exact ⟨rfl, ⟨rfl, rfl, rfl, rfl, rfl, separator_relation _ _ _ _ _⟩, _, htarget, rfl⟩
  | none =>
    simp only at h
    split at h
    · obtain ⟨column, hcolumn, h⟩ := Except.bind_eq_ok_iff.mp h
      cases h
      refine ⟨rfl, ?_, _, htarget, rfl⟩
      rw [literalColumn_ok hcolumn rfl]
      exact ⟨rfl, rfl, rfl, rfl, rfl, rfl⟩
    · cases h
    · cases h

/-- What a column speaks about does not hang on the range of its slot. -/
theorem aboutUrl_of_buildColumn (h : j.buildColumn c row slot = .ok b) : b.column.aboutUrl = j.aboutUrl row slot := by
  simp only [buildColumn, Except.bind_eq_ok_iff] at h
  obtain ⟨base, hbase, target?, _, h⟩ := h
  obtain ⟨property, rfl⟩ := baseColumn_ok hbase
  cases target? with
  | some target =>
    obtain ⟨_, _, h⟩ := Except.bind_eq_ok_iff.mp h
    cases h
    rfl
  | none =>
    simp only at h
    split at h
    · obtain ⟨column, hcolumn, h⟩ := Except.bind_eq_ok_iff.mp h
      cases h
      rw [literalColumn_ok hcolumn rfl]
    · cases h
    · cases h

/-- A compiled table is keyed by the identifier of its class. -/
theorem keyedBy_of_compileTable {id : Slot} (h : j.compileTable c = .ok t)
    (hid : j.view.identifier c.name = .ok id) : t.schema.KeyedBy id.name := by
  obtain ⟨slots, _, built, virtual, hslots, _, hbuilt, _, rfl⟩ := compileTable_eq_ok_iff.mp h
  obtain ⟨slots', hslots', hfilter⟩ := View.identifier_eq_ok_iff.mp hid
  cases hslots.symm.trans hslots'
  have hmem : id ∈ slots := List.mem_of_mem_filter (hfilter ▸ List.mem_singleton.mpr rfl)
  obtain ⟨b, hb, hbuild⟩ := hbuilt.exists_of_mem_left hmem
  refine ⟨⟨b.column, List.mem_append_left _ (List.mem_map.mpr ⟨b, hb, rfl⟩), ?_⟩, ?_⟩
  · exact (buildColumn_ok hbuild).2.1.name
  · simp only [hfilter, List.map_cons, List.map_nil]

end Job

end SchemaTables
