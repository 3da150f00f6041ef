import SchemaTables.Proofs.Artifacts.Writing
import SchemaTables.Proofs.Artifacts.Compile
import SchemaTables.Proofs.Path.Inside
import SchemaTables.Proofs.Table.Metadata

/-!
Where the files of a compilation lie. The paths are known from the classes that have tables, the schema files of the
synthetic tables and the remote directory. The remote directory is inside the output directory, or nothing is compiled;
the names of classes and schema files are not looked at, and one that is no plain name may lead a file out.
-/

namespace SchemaTables

set_option autoImplicit false

namespace Options

/-- Where the three files of a class lie. -/
def tablePaths (o : Options) (cls : String) : List Path := [csvPath cls, o.schemaPath cls, o.metadataPath cls]

/-- Where the files lie that every compilation has. -/
def sharedPaths (o : Options) : List Path := [o.planPath, o.makefilePath, descriptionsPath]

def syntheticPaths (o : Options) : List Path := o.syntheticSchemas.map (·.1)

variable {o : Options} {p : Path} {cls : String}

theorem mem_syntheticPaths_iff :
    p ∈ o.syntheticPaths ↔ ∃ t ∈ o.syntheticTables, o.remoteFile t.schemaFile = p := by
  constructor
  · intro h
    obtain ⟨⟨q, d⟩, hmem, rfl⟩ := List.mem_map.mp h
    obtain ⟨t, hfind, rfl, _⟩ := mem_syntheticSchemas_iff.mp hmem
    exact ⟨t, List.mem_of_find?_eq_some hfind, rfl⟩
  · rintro ⟨t, ht, rfl⟩
    obtain ⟨first, _, _, hmem⟩ := exists_first_of_file ht
    exact List.mem_map.mpr ⟨_, hmem, rfl⟩

theorem inside_tablePaths_iff (hremote : o.remoteDir.Inside) :
    (∀ p ∈ o.tablePaths cls, p.Inside) ↔ (csvPath cls).Inside := by
  simp only [tablePaths, List.forall_mem_cons, List.not_mem_nil, false_implies, implies_true, and_true]
  constructor
  · exact fun h => h.1
  · intro h
    have hfile : ∀ ending : String, 2 < ending.toList.length → '/' ∉ ending.toList →
        (o.remoteFile (cls ++ ending)).Inside := fun ending hlong hslash =>
      hremote.join ((Path.inside_append_congr cls hlong (by decide) hslash (by decide)).mpr h)
    exact ⟨h, hfile ".schema.json" (by decide) (by decide), hfile ".csv-metadata.json" (by decide) (by decide)⟩

theorem inside_sharedPaths (hremote : o.remoteDir.Inside) : ∀ p ∈ o.sharedPaths, p.Inside := by
  simp only [sharedPaths, List.forall_mem_cons, List.not_mem_nil, false_implies, implies_true, and_true]
  have hplan : (⟨"foreign-keys.plan.json"⟩ : Path).Inside := by decide
  have hmakefile : (⟨"foreign-keys.mk"⟩ : Path).Inside := by decide
  exact ⟨hremote.join hplan, hremote.join hmakefile, by decide⟩

end Options

namespace Compilation

variable {o : Options} {s : Schema} {a : Artifacts} {v : View}

/-- All paths, in the order the files are written. -/
theorem paths_eq (h : Compilation o s a v) :
    a.files.map (·.1) = a.tables.flatMap (fun t => o.tablePaths t.className) ++ o.syntheticPaths ++ o.sharedPaths := by
  have htable : ∀ t ∈ a.tables, (a.tableFiles t).map (·.1) = o.tablePaths t.className := by
    intro t ht
    obtain ⟨c, _, hcompile⟩ := h.exists_class ht
    have hlocation := Job.location_of_compileTable hcompile
    rw [Job.className_of_compileTable hcompile]
    have hcsv := congrArg TableLocation.csvPath hlocation
    have hschema := congrArg TableLocation.schemaPath hlocation
    have hmetadata := congrArg TableLocation.metadataPath hlocation
    simp only [Options.locate] at hcsv hschema hmetadata
    simp [Artifacts.tableFiles, Options.tablePaths, hcsv, hschema, hmetadata]
  rw [Artifacts.files, h.options, List.map_append, List.map_append, List.map_flatten, List.map_map, List.map_map]
  congr 2
  exact congrArg List.flatten (List.map_congr_left htable)

theorem remote_inside (h : Compilation o s a v) : o.remoteDir.Inside := Path.escapesRoot_eq_false_iff.mp h.inside

/-- A file of a compilation can only lie outside when the table of a class or the schema of a synthetic table does. -/
theorem inside_iff (h : Compilation o s a v) : (∀ f ∈ a.files, f.1.Inside) ↔
    (∀ t ∈ a.tables, (Options.csvPath t.className).Inside) ∧
      ∀ t ∈ o.syntheticTables, (o.remoteFile t.schemaFile).Inside := by
  have hpaths : (∀ f ∈ a.files, f.1.Inside) ↔ ∀ p ∈ a.files.map (·.1), p.Inside := by simp
  have hsynthetic : (∀ p ∈ o.syntheticPaths, p.Inside) ↔
      ∀ t ∈ o.syntheticTables, (o.remoteFile t.schemaFile).Inside := by
    simp [Options.mem_syntheticPaths_iff]
  have htables : (∀ p ∈ a.tables.flatMap fun t => o.tablePaths t.className, p.Inside) ↔
      ∀ t ∈ a.tables, (Options.csvPath t.className).Inside := by
    rw [List.forall_mem_flatMap]
    exact forall₂_congr fun t _ => Options.inside_tablePaths_iff h.remote_inside
  rw [hpaths, h.paths_eq, List.forall_mem_append, List.forall_mem_append, htables, hsynthetic]
  exact and_iff_left (Options.inside_sharedPaths h.remote_inside)

end Compilation

/-- Classes and the schema files of synthetic tables have names that are no paths. -/
structure Artifacts.PlainNames (a : Artifacts) : Prop where
  classes : ∀ t ∈ a.tables, '/' ∉ t.className.toList
  schemas : ∀ u ∈ a.options.syntheticTables, (Component.name u.schemaFile).Plain

instance (a : Artifacts) : Decidable a.PlainNames :=
  decidable_of_iff ((∀ t ∈ a.tables, '/' ∉ t.className.toList) ∧
      ∀ u ∈ a.options.syntheticTables, (Component.name u.schemaFile).Plain)
    ⟨fun h => ⟨h.1, h.2⟩, fun h => ⟨h.classes, h.schemas⟩⟩

theorem Options.plain_csvPath {cls : String} (h : '/' ∉ cls.toList) : (Component.name (cls ++ ".csv")).Plain :=
  Component.plain_append h (by decide) (by decide)

/-- Every file of a compilation that is inside the output directory is found below it, and all are inside exactly when
the table of each class is and the schema of each synthetic table. So they are when the names are plain. -/
theorem compile_inside {o : Options} {s : Schema} {a : Artifacts} (h : compile o s = .ok a) :
    ((∀ f ∈ a.files, f.1.Inside) ↔
      (∀ t ∈ a.tables, (Options.csvPath t.className).Inside) ∧
        ∀ t ∈ o.syntheticTables, (o.remoteFile t.schemaFile).Inside) ∧
    (a.PlainNames → ∀ f ∈ a.files, f.1.Inside) ∧
    ∀ f ∈ a.files, f.1.Inside →
      ∀ store : Store, store.destination o.outDir <+: store.destination (o.outDir.join f.1) := by
  obtain ⟨v, h⟩ := compile_eq_ok_iff.mp h
  refine ⟨h.inside_iff, fun hplain => h.inside_iff.mpr ⟨fun t ht => ?_, fun u hu => ?_⟩, ?_⟩
  · exact Path.inside_of_plain (Options.plain_csvPath (hplain.classes t ht))
  · rw [← h.options] at hu
    exact h.remote_inside.join (Path.inside_of_plain (hplain.schemas u hu))
  · intro f _ hf store
    exact hf.prefix_destination store o.outDir

/-- The schema of the tags lies beside the other remote files. -/
def tagOptions : Options where
  outDir := ⟨"out"⟩
  syntheticTables := [{ name := "Tag", path := ⟨"tags.csv"⟩, schemaFile := "tags.schema.json" }]

/-- The files of the notes and the schema of the tags are found below the output directory. -/
theorem compile_inside_notes : ∃ a, compile tagOptions noteSchema = .ok a ∧
    (a.files.map (·.1)).contains ⟨"remote/tags.schema.json"⟩ = true ∧
    ∀ f ∈ a.files, ∀ store : Store, store.destination ⟨"out"⟩ <+: store.destination ((⟨"out"⟩ : Path).join f.1) := by
  have hnotes : (compile tagOptions noteSchema).toOption.any (fun a =>
      decide a.PlainNames && (a.files.map (·.1)).contains ⟨"remote/tags.schema.json"⟩) = true := by decide +kernel
  obtain ⟨a, ha, htests⟩ := Except.exists_eq_ok_of_any hnotes
  rw [Bool.and_eq_true, decide_eq_true_iff] at htests
  obtain ⟨_, hinside, hbelow⟩ := compile_inside ha
  exact ⟨a, ha, htests.2, fun f hf => hbelow f hf (hinside htests.1 f hf)⟩

def strayOptions : Options where
  outDir := ⟨"out"⟩
  syntheticTables := [{ name := "Tag", path := ⟨"tags.csv"⟩, schemaFile := "../../tags.schema.json" }]

/-- A compilation succeeds with a file that goes up more often than down, and lies beside the output directory. -/
theorem exists_file_outside : ∃ a, compile strayOptions noteSchema = .ok a ∧ ∃ f ∈ a.files, ¬ f.1.Inside ∧
    ∃ store : Store, ¬ store.destination strayOptions.outDir <+: store.destination (strayOptions.outDir.join f.1) := by
  have hstray : (compile strayOptions noteSchema).toOption.any
      (fun a => (a.files.map (·.1)).contains ⟨"remote/../../tags.schema.json"⟩) = true := by decide +kernel
  obtain ⟨a, ha, hfile⟩ := Except.exists_eq_ok_of_any hstray
  obtain ⟨f, hf, hpath⟩ := List.mem_map.mp (List.contains_iff_mem.mp hfile)
  refine ⟨a, ha, f, hf, ?_, {}, ?_⟩
  · rw [hpath]
    decide
  · rw [hpath]
    decide

end SchemaTables
