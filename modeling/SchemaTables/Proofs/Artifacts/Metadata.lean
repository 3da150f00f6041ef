import SchemaTables.Proofs.Artifacts.Compile
import SchemaTables.Proofs.Dependency.Closure
import SchemaTables.Proofs.Table.Metadata

/-!
What the metadata of a table lists. The graph that is closed has one list for every table class, namely
its own table and the tables its slots refer to. So what a class needs in the graph is what can be
reached from its table by following slots, and the metadata holds the entries of exactly these tables.
-/

namespace SchemaTables

set_option autoImplicit false

open DependencyGraph

/-- The paths that can be reached from a table by following the relational slots of table classes. A
path that is not the table of a class leads nowhere. -/
inductive Job.Reaches (j : Job) (start : Path) : Path → Prop where
  | start {p : Path} : start.Same p → Reaches j start p
  | follow {p q r : Path} {c : Class} {slots : List Slot} {slot : Slot} :
      Reaches j start p → c ∈ j.view.tableClasses → (Options.csvPath c.name).Same p →
      j.view.slots c.name = .ok slots → slot ∈ slots → j.LeadsTo slot q → q.Same r →
      Reaches j start r

theorem Job.Reaches.congr {j : Job} {start p q : Path} (h : j.Reaches start p) (hpq : p.Same q) :
    j.Reaches start q := by
  cases h with
  | start hsame => exact .start (hsame.trans hpq)
  | follow hp hc hown hslots hslot hleads hsame =>
    exact .follow hp hc hown hslots hslot hleads (hsame.trans hpq)

/-- No two table classes have the same table. -/
def View.TablesDistinct (v : View) : Prop :=
  ∀ c ∈ v.tableClasses, ∀ d ∈ v.tableClasses,
    (Options.csvPath c.name).Same (Options.csvPath d.name) → c = d

/-- What the graph is told of a table. -/
def CompiledTable.entries (t : CompiledTable) : List Entry :=
  .register t.className t.csvPath :: t.dependencies.map (.add t.className)

theorem directDependencies_eq (tables : List CompiledTable) :
    directDependencies tables = ofEntries (tables.flatMap CompiledTable.entries) := by
  rw [directDependencies, ofEntries, List.foldl_flatMap]
  congr 1
  funext g t
  simp only [CompiledTable.entries, List.foldl_cons, List.foldl_map, record]

namespace CompiledTable

variable {t : CompiledTable} {e : Entry} {p : Path}

theorem cls_of_mem_entries (he : e ∈ t.entries) : e.cls = t.className := by
  rcases List.mem_cons.mp he with rfl | he
  · rfl
  · obtain ⟨_, _, rfl⟩ := List.mem_map.mp he
    rfl

theorem exists_mem_entries_iff :
    (∃ e ∈ t.entries, p.Same e.table) ↔ p.Same t.csvPath ∨ t.dependencies.contains p = true := by
  simp only [entries, List.mem_cons, exists_eq_or_imp, List.mem_map, exists_exists_and_eq_and,
    PathSet.contains_iff]
  rfl

end CompiledTable

namespace Compilation

variable {o : Options} {s : Schema} {a : Artifacts} {v : View} {c : Class} {p : Path}

/-- The graph holds one list for every table class: its own table and what its slots refer to. -/
theorem lists_iff (h : Compilation o s a v) (hc : c ∈ v.tableClasses) {slots : List Slot}
    (hslots : v.slots c.name = .ok slots) :
    (directDependencies a.tables).Lists c.name p ↔ p.Same (Options.csvPath c.name) ∨
      ∃ slot ∈ slots, ∃ target, Job.RefersTo ⟨v, o⟩ slot target ∧ p.Same target.table := by
  rw [directDependencies_eq, lists_ofEntries_iff]
  constructor
  · rintro ⟨e, he, hcls, hsame⟩
    obtain ⟨t, ht, he⟩ := List.mem_flatMap.mp he
    obtain ⟨d, hd, hcompile⟩ := h.exists_class ht
    rw [CompiledTable.cls_of_mem_entries he, Job.className_of_compileTable hcompile] at hcls
    cases View.eq_of_name_eq h.view hc hd hcls
    have hentry := CompiledTable.exists_mem_entries_iff.mp ⟨e, he, hsame⟩
    rw [Job.contains_dependencies_iff hcompile hslots, Job.csvPath_of_compileTable hcompile] at hentry
    exact hentry.elim Or.inl id
  · intro hlisted
    obtain ⟨t, ht, hcompile⟩ := h.exists_table hc
    rw [← Job.contains_dependencies_iff hcompile hslots] at hlisted
    obtain ⟨e, he, hsame⟩ := CompiledTable.exists_mem_entries_iff.mpr (Or.inr hlisted)
    refine ⟨e, List.mem_flatMap.mpr ⟨t, ht, he⟩, ?_, hsame⟩
    rw [CompiledTable.cls_of_mem_entries he, Job.className_of_compileTable hcompile]

theorem register_mem_iff (h : Compilation o s a v) {cls : String} :
    .register cls p ∈ a.tables.flatMap CompiledTable.entries ↔
      ∃ d ∈ v.tableClasses, d.name = cls ∧ Options.csvPath d.name = p := by
  simp only [List.mem_flatMap, CompiledTable.entries, List.mem_cons, List.mem_map, reduceCtorEq,
    and_false, exists_false, or_false, Entry.register.injEq]
  constructor
  · rintro ⟨t, ht, rfl, rfl⟩
    obtain ⟨d, hd, hcompile⟩ := h.exists_class ht
    exact ⟨d, hd, (Job.className_of_compileTable hcompile).symm,
      (Job.csvPath_of_compileTable hcompile).symm⟩
  · rintro ⟨d, hd, rfl, rfl⟩
    obtain ⟨t, ht, hcompile⟩ := h.exists_table hd
    exact ⟨t, ht, (Job.className_of_compileTable hcompile).symm,
      (Job.csvPath_of_compileTable hcompile).symm⟩

/-- Where no two classes have one table, a table belongs to the class that it is the table of. -/
theorem owns_iff (h : Compilation o s a v) (hdistinct : v.TablesDistinct) {cls : String} :
    (directDependencies a.tables).Owns cls p ↔
      ∃ d ∈ v.tableClasses, d.name = cls ∧ (Options.csvPath d.name).Same p := by
  have htable : ∀ {cls q}, (directDependencies a.tables).table? cls = some q ↔
      ∃ d ∈ v.tableClasses, d.name = cls ∧ Options.csvPath d.name = q := by
    intro cls q
    rw [directDependencies_eq, table?_ofEntries_iff, h.register_mem_iff]
    intro q q' hq hq'
    obtain ⟨d, _, rfl, rfl⟩ := h.register_mem_iff.mp hq
    obtain ⟨d', _, hname, rfl⟩ := h.register_mem_iff.mp hq'
    rw [hname]
  constructor
  · rintro ⟨⟨own, hown, hsame⟩, _⟩
    obtain ⟨d, hd, rfl, rfl⟩ := htable.mp hown
    exact ⟨d, hd, rfl, hsame⟩
  · rintro ⟨d, hd, rfl, hsame⟩
    refine ⟨⟨_, htable.mpr ⟨d, hd, rfl, rfl⟩, hsame⟩, ?_⟩
    intro other own hother hsame'
    obtain ⟨d', hd', rfl, rfl⟩ := htable.mp hother
    rw [hdistinct d' hd' d hd (hsame'.trans hsame.symm)]
    exact String.lt_irrefl d.name

/-- Following the lists of the owners is following the slots of the classes. -/
theorem needs_iff_reaches (h : Compilation o s a v) (hdistinct : v.TablesDistinct)
    (hc : c ∈ v.tableClasses) :
    (directDependencies a.tables).Needs c.name p ↔
      Job.Reaches ⟨v, o⟩ (Options.csvPath c.name) p := by
  have hlists : ∀ {d : Class} {q : Path}, d ∈ v.tableClasses →
      Job.Reaches ⟨v, o⟩ (Options.csvPath c.name) (Options.csvPath d.name) →
      (directDependencies a.tables).Lists d.name q →
      Job.Reaches ⟨v, o⟩ (Options.csvPath c.name) q := by
    intro d q hd hreach hq
    obtain ⟨slots, hslots, _⟩ := (View.mem_tableClasses_iff.mp hd).2.2
    rcases (h.lists_iff hd hslots).mp hq with hsame | ⟨slot, hslot, target, href, hsame⟩
    · exact hreach.congr hsame.symm
    · exact .follow hreach hd (.refl _) hslots hslot href.leadsTo hsame.symm
  constructor
  · intro hneeds
    induction hneeds with
    | listed hp => exact hlists hc (.start (.refl _)) hp
    | ofOwner _ ho hq ih =>
      obtain ⟨d, hd, rfl, hsame⟩ := (h.owns_iff hdistinct).mp ho
      exact hlists hd (ih.congr hsame.symm) hq
  · intro hreach
    induction hreach with
    | start hsame =>
      obtain ⟨slots, hslots, _⟩ := (View.mem_tableClasses_iff.mp hc).2.2
      exact .listed ((h.lists_iff hc hslots).mpr (Or.inl hsame.symm))
    | follow _ hd hown hslots hslot hleads hsame ih =>
      obtain ⟨target, href, rfl⟩ := h.exists_refersTo hd hslots hslot hleads
      exact .ofOwner ih ((h.owns_iff hdistinct).mpr ⟨_, hd, rfl, hown⟩)
        ((h.lists_iff hd hslots).mpr (Or.inr ⟨_, hslot, _, href, hsame.symm⟩))

/-- The closed dependencies of a table class are what it needs in the graph. -/
theorem needed_contains_iff_needs (h : Compilation o s a v) :
    PathSet.contains ((a.graph.dependencies? c.name).getD []) p = true ↔
      (directDependencies a.tables).Needs c.name p := by
  have hwf : (directDependencies a.tables).WellFormed := by
    rw [directDependencies_eq]
    exact wellFormed_ofEntries _
  have hclosed : ((directDependencies a.tables).close o.passLimit).2.Lists c.name p ↔
      (directDependencies a.tables).Needs c.name p :=
    lists_close_iff hwf (congrArg Prod.fst h.closed)
  rw [h.closed] at hclosed
  rw [← hclosed, DependencyGraph.Lists]
  cases a.graph.dependencies? c.name <;> simp

theorem needed_contains_iff (h : Compilation o s a v) (hdistinct : v.TablesDistinct)
    (hc : c ∈ v.tableClasses) :
    PathSet.contains ((a.graph.dependencies? c.name).getD []) p = true ↔
      Job.Reaches ⟨v, o⟩ (Options.csvPath c.name) p :=
  h.needed_contains_iff_needs.trans (h.needs_iff_reaches hdistinct hc)

/-- Whatever a table class can reach is the table of a class or a registered synthetic table. -/
theorem reaches_cases (h : Compilation o s a v) (hc : c ∈ v.tableClasses)
    (hreach : Job.Reaches ⟨v, o⟩ (Options.csvPath c.name) p) :
    (∃ d ∈ v.tableClasses, (Options.csvPath d.name).Same p) ∨
      ∃ t ∈ o.syntheticTables, t.path.Same p := by
  cases hreach with
  | start hsame => exact Or.inl ⟨c, hc, hsame⟩
  | follow _ hd _ hslots hslot hleads hsame =>
    obtain ⟨target, href, rfl⟩ := h.exists_refersTo hd hslots hslot hleads
    rcases h.target_cases hd hslots hslot href with ⟨t, ht, rfl⟩ | ⟨d, hd, _, _, rfl⟩
    · exact Or.inr ⟨t, ht, hsame⟩
    · exact Or.inl ⟨d, hd, hsame⟩

open Classical in
/-- The entries of the metadata of a class: reachable class tables as they were compiled, then reachable
synthetic tables as they are registered. -/
theorem metadata_tables (h : Compilation o s a v) (hdistinct : v.TablesDistinct)
    (hc : c ∈ v.tableClasses) :
    (a.metadata (o.locate c.name)).tables =
      ((v.tableClasses.filter fun d =>
          Job.Reaches ⟨v, o⟩ (Options.csvPath c.name) (Options.csvPath d.name)).map fun d =>
        ⟨o.remoteUrl (Options.csvPath d.name), o.remoteUrl (o.schemaPath d.name), d.name ≠ c.name⟩) ++
      ((o.syntheticTables.filter fun t =>
          Job.Reaches ⟨v, o⟩ (Options.csvPath c.name) t.path).map fun t =>
        ⟨o.remoteUrl t.path, o.remoteUrl (o.remoteFile t.schemaFile), true⟩) := by
  have hneeded : ∀ p, PathSet.contains ((a.graph.dependencies? c.name).getD []) p =
      decide (Job.Reaches ⟨v, o⟩ (Options.csvPath c.name) p) := by
    intro p
    rw [Bool.eq_iff_iff, h.needed_contains_iff hdistinct hc, decide_eq_true_eq]
  simp only [Artifacts.metadata, TableLocation.metadata, h.locations, h.options, Options.locate,
    hneeded, List.filter_map, List.map_map]
  congr 1
  apply List.map_congr_left
  intro d hd
  have hown : (Options.csvPath d.name).Same (Options.csvPath c.name) ↔ d.name = c.name := by
    refine ⟨fun hsame => ?_, fun hname => hname ▸ .refl _⟩
    rw [hdistinct d (List.mem_filter.mp hd).1 c hc hsame]
  simp [TableLocation.entry, hown]

/-- Every path that a class can reach is the address of an entry of its metadata. -/
theorem exists_entry_of_reaches (h : Compilation o s a v) (hdistinct : v.TablesDistinct)
    (hc : c ∈ v.tableClasses) (hreach : Job.Reaches ⟨v, o⟩ (Options.csvPath c.name) p) :
    ∃ e ∈ (a.metadata (o.locate c.name)).tables, e.url = o.remoteUrl p := by
  rw [h.metadata_tables hdistinct hc]
  rcases h.reaches_cases hc hreach with ⟨d, hd, hsame⟩ | ⟨t, ht, hsame⟩
  · refine ⟨_, List.mem_append_left _ (List.mem_map.mpr ⟨d, ?_, rfl⟩), Options.remoteUrl_congr hsame⟩
    exact List.mem_filter.mpr ⟨hd, by simpa using hreach.congr hsame.symm⟩
  · refine ⟨_, List.mem_append_right _ (List.mem_map.mpr ⟨t, ?_, rfl⟩), Options.remoteUrl_congr hsame⟩
    exact List.mem_filter.mpr ⟨ht, by simpa using hreach.congr hsame.symm⟩

/-- The schema document of a class is among the files. -/
theorem exists_schemaFile_of_class (h : Compilation o s a v) (hc : c ∈ v.tableClasses) :
    ∃ t ∈ a.tables, t.className = c.name ∧ (o.schemaPath c.name, t.schema.toJson.document) ∈ a.files := by
  obtain ⟨t, ht, hcompile⟩ := h.exists_table hc
  have hpath : t.schemaPath = o.schemaPath c.name :=
    congrArg TableLocation.schemaPath (Job.location_of_compileTable hcompile)
  refine ⟨t, ht, Job.className_of_compileTable hcompile, ?_⟩
  have hfile : (t.schemaPath, t.schema.toJson.document) ∈ a.tableFiles t := by simp [Artifacts.tableFiles]
  rw [← hpath]
  exact List.mem_append_left _ (List.mem_append_left _
    (List.mem_flatten.mpr ⟨_, List.mem_map.mpr ⟨t, ht, rfl⟩, hfile⟩))

theorem mem_files_of_mem_syntheticSchemas (h : Compilation o s a v) {d : TableSchema}
    (hd : (p, d) ∈ o.syntheticSchemas) : (p, d.toJson.document) ∈ a.files := by
  rw [← h.options] at hd
  exact List.mem_append_left _ (List.mem_append_right _ (List.mem_map.mpr ⟨(p, d), hd, rfl⟩))

end Compilation

open Classical in
/-- The metadata of a class lists what the class can reach: first class tables, in the order they are
compiled, then synthetic tables, in the order they are registered. The entries have all the addresses
that can be reached, and name schema documents that are among the files. -/
theorem compile_metadata {o : Options} {s : Schema} {a : Artifacts} {v : View} {c : Class}
    (h : compile o s = .ok a) (hv : View.ofSchema s = .ok v) (hdistinct : v.TablesDistinct)
    (hc : c ∈ v.tableClasses) :
    a.locations = (v.tableClasses.map fun d => o.locate d.name) ∧
    (v.tableClasses.map Class.name).Nodup ∧
    (a.metadata (o.locate c.name)).tables =
      ((v.tableClasses.filter fun d =>
          Job.Reaches ⟨v, o⟩ (Options.csvPath c.name) (Options.csvPath d.name)).map fun d =>
        ⟨o.remoteUrl (Options.csvPath d.name), o.remoteUrl (o.schemaPath d.name), d.name ≠ c.name⟩) ++
      ((o.syntheticTables.filter fun t =>
          Job.Reaches ⟨v, o⟩ (Options.csvPath c.name) t.path).map fun t =>
        ⟨o.remoteUrl t.path, o.remoteUrl (o.remoteFile t.schemaFile), true⟩) ∧
    (∀ p, Job.Reaches ⟨v, o⟩ (Options.csvPath c.name) p →
      ∃ e ∈ (a.metadata (o.locate c.name)).tables, e.url = o.remoteUrl p) ∧
    (∀ d ∈ v.tableClasses, ∃ t ∈ a.tables, t.className = d.name ∧
      (o.schemaPath d.name, t.schema.toJson.document) ∈ a.files) ∧
    (∀ t ∈ o.syntheticTables, ∃ schema, (o.remoteFile t.schemaFile, schema) ∈ o.syntheticSchemas ∧
      (o.remoteFile t.schemaFile, schema.toJson.document) ∈ a.files) := by
  obtain ⟨v', h⟩ := compile_eq_ok_iff.mp h
  cases hv.symm.trans h.view
  refine ⟨h.locations, View.tableClasses_names_nodup hv, h.metadata_tables hdistinct hc, ?_, ?_, ?_⟩
  · intro p hreach
    exact h.exists_entry_of_reaches hdistinct hc hreach
  · intro d hd
    exact h.exists_schemaFile_of_class hd
  · intro t ht
    obtain ⟨first, _, _, hmem⟩ := Options.exists_first_of_file ht
    exact ⟨_, hmem, h.mem_files_of_mem_syntheticSchemas hmem⟩

/-- Books stand on shelves that are registered, and have authors who have friends. -/
def librarySchema : Schema where
  name := "library"
  classPrefix := some "ex"
  prefixes := [("ex", "https://example.org/")]
  types := [{ name := "string" }]
  classes := [{ name := "Book", slots := ["id", "author", "shelf"] },
    { name := "Person", slots := ["id", "friends"] }]
  slots := [{ name := "id", required := true, identifier := true },
    { name := "author", range := "Person", required := true }, { name := "shelf", range := "Shelf" },
    { name := "friends", range := "Person", multivalued := true }]

def libraryOptions : Options := { syntheticTables := [{ name := "Shelf", path := ⟨"ids/shelves.csv"⟩ }] }

/-- The metadata of the books has an entry for the shelves. -/
theorem compile_metadata_library : ∃ a, compile libraryOptions librarySchema = .ok a ∧
    ∃ e ∈ (a.metadata (libraryOptions.locate "Book")).tables,
      e.url = libraryOptions.remoteUrl ⟨"ids/shelves.csv"⟩ := by
  obtain ⟨text, ha⟩ := exists_compile (o := libraryOptions) (s := librarySchema) (by decide) rfl rfl rfl rfl
  have hmetadata := compile_metadata (c := { name := "Book", slots := ["id", "author", "shelf"] }) ha rfl
    (by unfold View.TablesDistinct; decide) (by decide)
  have hshelf : ∀ v : View, Job.LeadsTo ⟨v, libraryOptions⟩ { name := "shelf", range := "Shelf" }
      ⟨"ids/shelves.csv"⟩ := by
    intro v
    have hfound : (Job.mk v libraryOptions).options.synthetic? "Shelf" =
        some { name := "Shelf", path := ⟨"ids/shelves.csv"⟩ } := rfl
    exact .synthetic (t := { name := "Shelf", path := ⟨"ids/shelves.csv"⟩ }) hfound
  refine ⟨_, ha, hmetadata.2.2.2.1 ⟨"ids/shelves.csv"⟩ ?_⟩
  exact .follow (.start (.refl _)) (by decide) (.refl _) rfl (by decide) (hshelf _) (.refl _)

end SchemaTables
