import SchemaTables.Proofs.Artifacts.Metadata

/-!
Keys that loaders enforce lead somewhere. The metadata of a table has an entry for the table that a key
refers to. A class keeps its own schema document, which is keyed by the column that the key names. The
document of a synthetic table is written after the first table with the same schema file, so it is keyed
by the column of that one.
-/

namespace SchemaTables

set_option autoImplicit false

/-- The schema documents with their paths: those of classes, then those of synthetic tables. -/
def Artifacts.schemaDocuments (a : Artifacts) : List (Path × TableSchema) :=
  (a.tables.map fun t => (t.schemaPath, t.schema)) ++ a.options.syntheticSchemas

namespace Compilation

variable {o : Options} {s : Schema} {a : Artifacts} {v : View} {c d : Class} {p : Path}

/-- What a slot of a class refers to is among the closed dependencies of the class. -/
theorem needed_of_refersTo (h : Compilation o s a v) (hc : c ∈ v.tableClasses) {slots : List Slot}
    (hslots : v.slots c.name = .ok slots) {slot : Slot} (hslot : slot ∈ slots) {target : RelationTarget}
    (href : Job.RefersTo ⟨v, o⟩ slot target) :
    PathSet.contains ((a.graph.dependencies? c.name).getD []) target.table = true := by
  have hlisted : (directDependencies a.tables).Lists c.name target.table :=
    (h.lists_iff hc hslots).mpr (Or.inr ⟨slot, hslot, target, href, .refl _⟩)
  exact h.needed_contains_iff_needs.mpr (.listed hlisted)

theorem exists_entry_of_class (h : Compilation o s a v) (hd : d ∈ v.tableClasses)
    (hneeded : PathSet.contains ((a.graph.dependencies? c.name).getD []) (Options.csvPath d.name) = true) :
    ∃ e ∈ (a.metadata (o.locate c.name)).tables, e.url = o.remoteUrl (Options.csvPath d.name) ∧
      e.tableSchema = o.remoteUrl (o.schemaPath d.name) := by
  refine ⟨(o.locate d.name).entry (o.locate c.name) o, ?_, rfl, rfl⟩
  simp only [Artifacts.metadata, TableLocation.metadata, h.locations, h.options]
  apply List.mem_append_left
  refine List.mem_map.mpr ⟨o.locate d.name, List.mem_filter.mpr ⟨?_, hneeded⟩, rfl⟩
  exact List.mem_map.mpr ⟨d, hd, rfl⟩

theorem exists_entry_of_synthetic (h : Compilation o s a v) {t : SyntheticTable}
    (ht : t ∈ o.syntheticTables)
    (hneeded : PathSet.contains ((a.graph.dependencies? c.name).getD []) t.path = true) :
    ∃ e ∈ (a.metadata (o.locate c.name)).tables, e.url = o.remoteUrl t.path ∧
      e.tableSchema = o.remoteUrl (o.remoteFile t.schemaFile) := by
  refine ⟨t.entry o, ?_, rfl, rfl⟩
  simp only [Artifacts.metadata, TableLocation.metadata, h.options]
  apply List.mem_append_right
  exact List.mem_map.mpr ⟨t, List.mem_filter.mpr ⟨ht, hneeded⟩, rfl⟩

end Compilation

/-- Events happen at places, which are registered after agents and with the same schema file. -/
def eventSchema : Schema where
  name := "events"
  classPrefix := some "ex"
  prefixes := [("ex", "https://example.org/")]
  types := [{ name := "string" }]
  classes := [{ name := "Event", slots := ["id", "place"] }]
  slots := [{ name := "id", required := true, identifier := true },
    { name := "place", range := "Place", required := true }]

def eventOptions : Options where
  syntheticTables := [{ name := "Agent", path := ⟨"ids/agents.csv"⟩ },
    { name := "Place", path := ⟨"ids/places.csv"⟩, idColumn := "key" }]

end SchemaTables
