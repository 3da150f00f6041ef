import SchemaTables.Proofs.Artifacts.Places
import SchemaTables.Proofs.Files.Frame
import SchemaTables.Proofs.Text.Utf8

/-!
The files of a compilation that are written over each other. Files of different kinds have names with different
endings, so only files of one kind can meet, or the schema of a synthetic table any other. Where all names are plain and
the schema files have names of their own nothing meets, and what is written is what can be read.
-/

namespace SchemaTables

set_option autoImplicit false

namespace Options

variable {o : Options} {cls : String}

/-- How the names of the files of a class end. -/
def tableEndings : List String := [".csv", ".schema.json", ".csv-metadata.json"]

def tableNames (cls : String) : List String := tableEndings.map (cls ++ ·)

/-- The names of the files that every compilation has. -/
def sharedNames : List String := ["foreign-keys.plan.json", "foreign-keys.mk", "class-descriptions.md"]

def schemaNames (o : Options) : List String := (firstOfFiles [] o.syntheticTables).map SyntheticTable.schemaFile

theorem tablePaths_endings (o : Options) (cls : String) :
    List.Forall₂ Path.HasEnding (o.tablePaths cls) tableEndings := by
  have hfile : ∀ e : String, 2 < e.toList.length → '/' ∉ e.toList → (o.remoteFile (cls ++ e)).HasEnding e :=
    fun e hlong hslash => (Path.hasEnding_append cls hlong hslash).join o.remoteDir
  exact .cons (Path.hasEnding_append cls (by decide) (by decide))
    (.cons (hfile _ (by decide) (by decide)) (.cons (hfile _ (by decide) (by decide)) .nil))

theorem sharedPaths_endings (o : Options) : List.Forall₂ Path.HasEnding o.sharedPaths sharedNames := by
  have hfile : ∀ n : String, (Component.name n).Plain → (o.remoteFile n).HasEnding n :=
    fun n hn => (Path.hasEnding_of_plain hn).join o.remoteDir
  exact .cons (hfile _ (by decide)) (.cons (hfile _ (by decide)) (.cons (Path.hasEnding_of_plain (by decide)) .nil))

theorem tableEndings_apart : tableEndings.Pairwise Text.EndsApart := by decide

theorem sharedNames_apart : sharedNames.Pairwise Text.EndsApart := by decide

theorem tableEndings_sharedNames : ∀ e ∈ tableEndings, ∀ e' ∈ sharedNames, Text.EndsApart e e' := by decide

theorem tablePaths_sharedPaths (o : Options) (cls : String) :
    ∀ p ∈ o.tablePaths cls, ∀ q ∈ o.sharedPaths, ¬ p.Same q := by
  intro p hp
  obtain ⟨e, he, hpe⟩ := (o.tablePaths_endings cls).exists_of_mem_left hp
  exact hpe.not_same_of_mem o.sharedPaths_endings (tableEndings_sharedNames e he)

end Options

namespace Compilation

variable {o : Options} {s : Schema} {a : Artifacts} {v : View}

/-- Files can only be written over each other when they are files of one kind of two classes, or when one is the
schema of a synthetic table. -/
theorem paths_pairwise_iff (h : Compilation o s a v) : (a.files.map (·.1)).Pairwise (¬ ·.Same ·) ↔
    a.tables.Pairwise
      (fun t u => List.Forall₂ (¬ ·.Same ·) (o.tablePaths t.className) (o.tablePaths u.className)) ∧
    o.syntheticPaths.Pairwise (¬ ·.Same ·) ∧
    ∀ p ∈ o.syntheticPaths, ∀ q ∈ a.tables.flatMap (fun t => o.tablePaths t.className) ++ o.sharedPaths,
      ¬ p.Same q := by
  have htables : (a.tables.flatMap fun t => o.tablePaths t.className).Pairwise (¬ ·.Same ·) ↔ a.tables.Pairwise
      (fun t u => List.Forall₂ (¬ ·.Same ·) (o.tablePaths t.className) (o.tablePaths u.className)) := by
    have hown : ∀ t ∈ a.tables, (o.tablePaths t.className).Pairwise (¬ ·.Same ·) := fun t _ =>
      Path.pairwise_of_endings (o.tablePaths_endings t.className) Options.tableEndings_apart
    rw [List.pairwise_flatMap, and_iff_right hown]
    simp only [Path.apart_iff_of_endings (o.tablePaths_endings _) (o.tablePaths_endings _) Options.tableEndings_apart]
  have hshared : o.sharedPaths.Pairwise (¬ ·.Same ·) :=
    Path.pairwise_of_endings o.sharedPaths_endings Options.sharedNames_apart
  have hmixed : ∀ p ∈ a.tables.flatMap (fun t => o.tablePaths t.className), ∀ q ∈ o.sharedPaths, ¬ p.Same q := by
    rw [List.forall_mem_flatMap]
    exact fun t _ => o.tablePaths_sharedPaths t.className
  rw [h.paths_eq, List.pairwise_append, List.pairwise_append, htables]
  constructor
  · rintro ⟨⟨ht, hs, hts⟩, _, hrest⟩
    refine ⟨ht, hs, fun p hp => List.forall_mem_append.mpr ⟨fun q hq => ?_, hrest p (List.mem_append_right _ hp)⟩⟩
    exact fun hpq => hts q hq p hp hpq.symm
  · rintro ⟨ht, hs, hrest⟩
    refine ⟨⟨ht, hs, fun q hq p hp hqp => ?_⟩, hshared, List.forall_mem_append.mpr ⟨hmixed, fun p hp q hq => ?_⟩⟩
    · exact hrest p hp q (List.mem_append_left _ hq) hqp.symm
    · exact hrest p hp q (List.mem_append_right _ hq)

end Compilation

/-- Files with names of their own, none of which is another with the ending of siblings, are apart in every directory. -/
theorem Files.placesApart_of_names {files : List (Path × String)} {names : List String}
    (hnames : files.map (·.1.fileName?) = names.map some) (hnodup : names.Nodup)
    (htmp : ∀ n ∈ names, ∀ m ∈ names, n ≠ m ++ ".tmp") (s : Store) (dir : Path) :
    Files.PlacesApart s dir files := by
  have hname : ∀ f ∈ files, ∃ n ∈ names, f.1.fileName? = some n := by
    intro f hf
    have hmem : f.1.fileName? ∈ names.map some := hnames ▸ List.mem_map_of_mem (f := fun f => f.1.fileName?) hf
    obtain ⟨n, hn, heq⟩ := List.mem_map.mp hmem
    exact ⟨n, hn, heq.symm⟩
  have hlast : ∀ {f : Path × String} {n}, f.1.fileName? = some n →
      (s.destination (dir.join f.1)).getLast? = some n := fun hn =>
    Store.getLast?_destination_of_fileName? s (Path.fileName?_join dir hn)
  constructor
  · have hne : (files.map (·.1.fileName?)).Nodup := hnames ▸ hnodup.map (Option.some_injective _)
    refine (List.pairwise_map.mp hne).imp_of_mem fun {f g} hf hg hfg heq => ?_
    obtain ⟨n, _, hn⟩ := hname f hf
    obtain ⟨m, _, hm⟩ := hname g hg
    have hsame := (hlast hn).symm.trans ((congrArg List.getLast? heq).trans (hlast hm))
    exact hfg (hn.trans (hsame.trans hm.symm))
  · intro f hf g hg htemporary
    obtain ⟨m, hm, hfm⟩ := hname f hf
    obtain ⟨n, hn, hgn⟩ := hname g hg
    have hsibling := htemporary.getLast? (Path.fileName?_join dir hfm)
    exact htmp n hn m hm (Option.some.inj ((hlast hgn).symm.trans hsibling))

/-- The same path leads to the same place from every directory. -/
theorem Store.destination_join_congr {p q : Path} (s : Store) (dir : Path) (h : p.Same q) :
    s.destination (dir.join p) = s.destination (dir.join q) := by
  have hcomponents : p.components = q.components := h
  have habs : p.isAbsolute = q.isAbsolute := by
    rw [Bool.eq_iff_iff, Path.isAbsolute_iff, Path.isAbsolute_iff, hcomponents]
  by_cases hp : p.isAbsolute = true
  · have hq : q.isAbsolute = true := habs ▸ hp
    rw [Path.join, if_pos hp, Path.join, if_pos hq, destination_eq_moves, destination_eq_moves, hcomponents, start,
      start, habs]
  · rw [Bool.not_eq_true] at hp
    rw [destination_join s dir hp, destination_join s dir (habs ▸ hp), ← foldl_walk_filter, filter_parts, hcomponents,
      ← filter_parts, foldl_walk_filter]

/-- In one place there is one text. -/
theorem Store.eq_of_read {s : Store} {p q : Path} {t u : String} (h : s.destination p = s.destination q)
    (hp : s.read p = .ok (Text.Utf8.encode t)) (hq : s.read q = .ok (Text.Utf8.encode u)) : t = u := by
  obtain ⟨_, _, hpitem, _⟩ := locate_eq_ok_iff.mp (read_eq_ok_iff.mp hp)
  obtain ⟨_, _, hqitem, _⟩ := locate_eq_ok_iff.mp (read_eq_ok_iff.mp hq)
  rw [h, hqitem] at hpitem
  have hbytes : Text.Utf8.encode u = Text.Utf8.encode t := by
    injection hpitem with hitem
    injection hitem
  have hdecode := congrArg Text.Utf8.decode hbytes
  rw [Text.Utf8.decode_encode, Text.Utf8.decode_encode] at hdecode
  exact (Except.ok.inj hdecode).symm

theorem nodup_firstOfFiles (seen : List String) (l : List SyntheticTable) :
    ((firstOfFiles seen l).map SyntheticTable.schemaFile).Nodup := by
  induction l generalizing seen with
  | nil => exact .nil
  | cons t l ih =>
    unfold firstOfFiles
    split
    · exact ih seen
    · refine List.nodup_cons.mpr ⟨fun hmem => ?_, ih _⟩
      obtain ⟨u, hu, hfile⟩ := List.mem_map.mp hmem
      exact (mem_firstOfFiles_iff.mp hu).1 (hfile ▸ List.mem_cons_self)

namespace Options

variable {o : Options} {c d : String}

theorem nodup_tableNames (cls : String) : (tableNames cls).Nodup :=
  List.pairwise_map.mpr (tableEndings_apart.imp fun h => Text.append_ne_append h cls cls)

theorem disjoint_tableNames (h : c ≠ d) : (tableNames c).Disjoint (tableNames d) := by
  have hendings : ∀ e ∈ tableEndings, ∀ e' ∈ tableEndings, e ≠ e' → Text.EndsApart e e' := by decide
  intro n hc hd
  obtain ⟨e, he, rfl⟩ := List.mem_map.mp hc
  obtain ⟨e', he', heq⟩ := List.mem_map.mp hd
  by_cases hsame : e = e'
  · rw [hsame] at heq
    exact h ((String.append_left_inj _).mp heq).symm
  · exact Text.append_ne_append (hendings e he e' he' hsame) c d heq.symm

theorem disjoint_tableNames_sharedNames (cls : String) : (tableNames cls).Disjoint sharedNames := by
  intro n hcls hshared
  obtain ⟨e, he, rfl⟩ := List.mem_map.mp hcls
  have hapart := Text.append_ne_append (tableEndings_sharedNames e he _ hshared) cls ""
  exact hapart String.empty_append.symm

/-- No file that is not the schema of a synthetic table has the name of a sibling. -/
theorem ne_sibling_of_mem_tableNames {n : String} (h : n ∈ tableNames c) (m : String) : n ≠ m ++ ".tmp" := by
  have hendings : ∀ e ∈ tableEndings, Text.EndsApart e ".tmp" := by decide
  obtain ⟨e, he, rfl⟩ := List.mem_map.mp h
  exact Text.append_ne_append (hendings e he) c m

theorem ne_sibling_of_mem_sharedNames {n : String} (h : n ∈ sharedNames) (m : String) : n ≠ m ++ ".tmp" := by
  have hendings : ∀ e ∈ sharedNames, Text.EndsApart e ".tmp" := by decide
  have hne := Text.append_ne_append (hendings n h) "" m
  rwa [String.empty_append] at hne

theorem exists_of_mem_schemaNames {n : String} (h : n ∈ o.schemaNames) : ∃ u ∈ o.syntheticTables, u.schemaFile = n := by
  obtain ⟨u, hu, rfl⟩ := List.mem_map.mp h
  exact ⟨u, List.mem_of_find?_eq_some (mem_firstOfFiles_iff.mp hu).2, rfl⟩

theorem fileNames_tablePaths (o : Options) (h : '/' ∉ c.toList) :
    (o.tablePaths c).map Path.fileName? = (tableNames c).map some := by
  have hplain : ∀ e : String, 2 < e.toList.length → '/' ∉ e.toList → (⟨c ++ e⟩ : Path).fileName? = some (c ++ e) :=
    fun e hlong hslash => Path.fileName?_of_plain (Component.plain_append h hlong hslash)
  have hremote : ∀ e : String, 2 < e.toList.length → '/' ∉ e.toList →
      (o.remoteFile (c ++ e)).fileName? = some (c ++ e) :=
    fun e hlong hslash => Path.fileName?_join o.remoteDir (hplain e hlong hslash)
  have hcsv : (csvPath c).fileName? = some (c ++ ".csv") := hplain _ (by decide) (by decide)
  have hschema : (o.schemaPath c).fileName? = some (c ++ ".schema.json") := hremote _ (by decide) (by decide)
  have hmetadata : (o.metadataPath c).fileName? = some (c ++ ".csv-metadata.json") :=
    hremote _ (by decide) (by decide)
  simp [tablePaths, tableNames, tableEndings, hcsv, hschema, hmetadata]

theorem fileNames_sharedPaths (o : Options) : o.sharedPaths.map Path.fileName? = sharedNames.map some := by
  have hremote : ∀ n : String, (Component.name n).Plain → (o.remoteFile n).fileName? = some n :=
    fun n hn => Path.fileName?_join o.remoteDir (Path.fileName?_of_plain hn)
  have hplan : o.planPath.fileName? = some "foreign-keys.plan.json" := hremote _ (by decide)
  have hmakefile : o.makefilePath.fileName? = some "foreign-keys.mk" := hremote _ (by decide)
  have hdescriptions : descriptionsPath.fileName? = some "class-descriptions.md" := by decide
  simp [sharedPaths, sharedNames, hplan, hmakefile, hdescriptions]

theorem fileNames_syntheticPaths (h : ∀ u ∈ o.syntheticTables, (Component.name u.schemaFile).Plain) :
    o.syntheticPaths.map Path.fileName? = o.schemaNames.map some := by
  rw [syntheticPaths, syntheticSchemas, schemaNames, List.map_map, List.map_map, List.map_map]
  refine List.map_congr_left fun u hu => ?_
  have hmem := List.mem_of_find?_eq_some (mem_firstOfFiles_iff.mp hu).2
  exact Path.fileName?_join o.remoteDir (Path.fileName?_of_plain (h u hmem))

end Options

namespace Artifacts

/-- The names of all files but the schemas of synthetic tables. -/
def ownNames (a : Artifacts) : List String :=
  a.tables.flatMap (fun t => Options.tableNames t.className) ++ Options.sharedNames

/-- The names of all files, in the order they are written. -/
def fileNames (a : Artifacts) : List String :=
  a.tables.flatMap (fun t => Options.tableNames t.className) ++ a.options.schemaNames ++ Options.sharedNames

/-- The names are plain, and no schema file of a synthetic table has the name of another file or of its sibling. -/
structure NamesApart (a : Artifacts) : Prop extends a.PlainNames where
  own : ∀ u ∈ a.options.syntheticTables, u.schemaFile ∉ a.ownNames
  siblings : ∀ u ∈ a.options.syntheticTables,
    ∀ n ∈ a.ownNames ++ a.options.syntheticTables.map SyntheticTable.schemaFile, u.schemaFile ≠ n ++ ".tmp"

instance (a : Artifacts) : Decidable a.NamesApart :=
  decidable_of_iff (a.PlainNames ∧ (∀ u ∈ a.options.syntheticTables, u.schemaFile ∉ a.ownNames) ∧
      ∀ u ∈ a.options.syntheticTables,
        ∀ n ∈ a.ownNames ++ a.options.syntheticTables.map SyntheticTable.schemaFile, u.schemaFile ≠ n ++ ".tmp")
    ⟨fun h => ⟨h.1, h.2.1, h.2.2⟩, fun h => ⟨h.toPlainNames, h.own, h.siblings⟩⟩

theorem NamesApart.ne_sibling {a : Artifacts} (h : a.NamesApart) :
    ∀ n ∈ a.fileNames, ∀ m ∈ a.fileNames, n ≠ m ++ ".tmp" := by
  intro n hn m hm
  rcases List.mem_append.mp hn with hn | hshared
  · rcases List.mem_append.mp hn with htable | hschema
    · obtain ⟨t, _, htable⟩ := List.mem_flatMap.mp htable
      exact Options.ne_sibling_of_mem_tableNames htable m
    · obtain ⟨u, hu, rfl⟩ := Options.exists_of_mem_schemaNames hschema
      refine h.siblings u hu m ?_
      rcases List.mem_append.mp hm with hm | hshared
      · rcases List.mem_append.mp hm with htable | hschema
        · exact List.mem_append_left _ (List.mem_append_left _ htable)
        · obtain ⟨w, hw, rfl⟩ := Options.exists_of_mem_schemaNames hschema
          exact List.mem_append_right _ (List.mem_map_of_mem hw)
      · exact List.mem_append_left _ (List.mem_append_right _ hshared)
  · exact Options.ne_sibling_of_mem_sharedNames hshared m

end Artifacts

namespace Compilation

variable {o : Options} {s : Schema} {a : Artifacts} {v : View}

theorem fileNames_eq (h : Compilation o s a v) (hplain : a.PlainNames) :
    a.files.map (·.1.fileName?) = a.fileNames.map some := by
  have htables : (a.tables.flatMap fun t => o.tablePaths t.className).map Path.fileName? =
      (a.tables.flatMap fun t => Options.tableNames t.className).map some := by
    rw [List.map_flatMap, List.map_flatMap]
    exact List.flatMap_congr fun t ht => o.fileNames_tablePaths (hplain.classes t ht)
  have hschemas : o.syntheticPaths.map Path.fileName? = o.schemaNames.map some :=
    Options.fileNames_syntheticPaths (h.options ▸ hplain.schemas)
  have hpaths : a.files.map (·.1.fileName?) = (a.files.map (·.1)).map Path.fileName? := by rw [List.map_map]; rfl
  rw [hpaths, h.paths_eq, Artifacts.fileNames, h.options]
  simp only [List.map_append, htables, hschemas, o.fileNames_sharedPaths]

theorem nodup_fileNames (h : Compilation o s a v) (hnames : a.NamesApart) : a.fileNames.Nodup := by
  have hclasses : (a.tables.map fun t => t.className).Nodup := by
    have hmap : v.tableClasses.map Class.name = a.tables.map fun t => t.className :=
      h.tables.map_eq_map fun c t hcompile => (Job.className_of_compileTable hcompile).symm
    exact hmap ▸ View.tableClasses_names_nodup h.view
  have htables : (a.tables.flatMap fun t => Options.tableNames t.className).Nodup := by
    refine List.nodup_flatMap.mpr ⟨fun t _ => Options.nodup_tableNames t.className, ?_⟩
    exact (List.pairwise_map.mp hclasses).imp fun hne => Options.disjoint_tableNames hne
  have hmixed : (a.tables.flatMap fun t => Options.tableNames t.className).Disjoint Options.sharedNames := by
    intro n hn
    obtain ⟨t, _, hn⟩ := List.mem_flatMap.mp hn
    exact Options.disjoint_tableNames_sharedNames t.className hn
  have hschema : ∀ n ∈ a.options.schemaNames, n ∉ a.ownNames := by
    intro n hn
    obtain ⟨u, hu, rfl⟩ := Options.exists_of_mem_schemaNames hn
    exact hnames.own u hu
  refine List.nodup_append'.mpr ⟨List.nodup_append'.mpr ⟨htables, nodup_firstOfFiles _ _, ?_⟩, by decide, ?_⟩
  · exact fun n htable hn => hschema n hn (List.mem_append_left _ htable)
  · intro n hn hshared
    rcases List.mem_append.mp hn with htable | hn
    · exact hmixed htable hshared
    · exact hschema n hn (List.mem_append_right _ hshared)

end Compilation

/-- The paths of a compilation are pairwise different exactly when no file of a class meets the file of its kind of
another class, and no schema of a synthetic table meets any other file. Files with places of their own are read as they
were made after they are written; and so it is, in every directory, where the names are apart. -/
theorem compile_files_apart {o : Options} {s : Schema} {a : Artifacts} (h : compile o s = .ok a) :
    ((a.files.map (·.1)).Pairwise (¬ ·.Same ·) ↔
      a.tables.Pairwise
        (fun t u => List.Forall₂ (¬ ·.Same ·) (o.tablePaths t.className) (o.tablePaths u.className)) ∧
      o.syntheticPaths.Pairwise (¬ ·.Same ·) ∧
      ∀ p ∈ o.syntheticPaths, ∀ q ∈ a.tables.flatMap (fun t => o.tablePaths t.className) ++ o.sharedPaths,
        ¬ p.Same q) ∧
    (∀ store, Files.PlacesApart store o.outDir a.files → ∀ n store', (a.write o.outDir).Returns store n store' →
      ∀ f ∈ a.files, store'.read (o.outDir.join f.1) = .ok (Text.Utf8.encode f.2)) ∧
    (a.NamesApart → (a.files.map (·.1)).Pairwise (¬ ·.Same ·) ∧
      ∀ store, Files.PlacesApart store o.outDir a.files) := by
  obtain ⟨v, h⟩ := compile_eq_ok_iff.mp h
  refine ⟨h.paths_pairwise_iff, fun store hapart n store' hwrite f hf => ?_, fun hnames => ⟨?_, fun store => ?_⟩⟩
  · obtain ⟨r, hends, hok⟩ := Schema.replaceAll_of_write (Task.ends_of_returns hwrite)
    cases r with
    | error e => cases hok rfl
    | ok sizes => exact Files.read_replaceAll hends hapart hf
  · have hdistinct : (a.files.map (·.1.fileName?)).Nodup :=
      h.fileNames_eq hnames.toPlainNames ▸ (h.nodup_fileNames hnames).map (Option.some_injective _)
    refine List.pairwise_map.mpr ((List.pairwise_map.mp hdistinct).imp fun hne hsame => ?_)
    exact hne (Path.fileName?_congr hsame)
  · exact Files.placesApart_of_names (h.fileNames_eq hnames.toPlainNames) (h.nodup_fileNames hnames)
      hnames.ne_sibling store o.outDir

/-- The files of the notes and the schema of the tags are written into an empty store, and are what was made. -/
theorem compile_files_apart_notes : ∃ a n store, compile tagOptions noteSchema = .ok a ∧
    (a.write tagOptions.outDir).Returns {} n store ∧ (a.files.map (·.1)).Pairwise (¬ ·.Same ·) ∧
    ∀ f ∈ a.files, store.read (tagOptions.outDir.join f.1) = .ok (Text.Utf8.encode f.2) := by
  have hnotes : (compile tagOptions noteSchema).toOption.any (fun a => decide a.NamesApart &&
      ((a.write tagOptions.outDir).run.run {}).1.toOption.any fun _ => true) = true := by decide +kernel
  obtain ⟨a, ha, htests⟩ := Except.exists_eq_ok_of_any hnotes
  rw [Bool.and_eq_true, decide_eq_true_iff] at htests
  obtain ⟨n, store, hwrite, _⟩ := Task.exists_returns htests.2
  obtain ⟨_, hread, hapart⟩ := compile_files_apart ha
  obtain ⟨hpaths, hplaces⟩ := hapart htests.1
  exact ⟨a, n, store, ha, hwrite, hpaths, hread {} (hplaces {}) n store hwrite⟩

/-- The schemas of the tags and the marks are to lie in one file, which is spelled in two ways. -/
def twinOptions : Options where
  outDir := ⟨"out"⟩
  syntheticTables := [{ name := "Tag", path := ⟨"tags.csv"⟩, schemaFile := "ids.schema.json" },
    { name := "Mark", path := ⟨"marks.csv"⟩, schemaFile := "./ids.schema.json", idColumn := "key" }]

/-- Two paths of a compilation are the same, and whatever has been written, some file is not what was made. -/
theorem exists_file_overwritten : ∃ a, compile twinOptions noteSchema = .ok a ∧
    ¬ (a.files.map (·.1)).Pairwise (¬ ·.Same ·) ∧
    ∀ store : Store, ∃ f ∈ a.files, store.read (twinOptions.outDir.join f.1) ≠ .ok (Text.Utf8.encode f.2) := by
  have htwins : (compile twinOptions noteSchema).toOption.any (fun a =>
      decide (¬ (a.files.map (·.1)).Pairwise (¬ ·.Same ·)) &&
        decide (∃ f ∈ a.files, f.1 = ⟨"remote/ids.schema.json"⟩ ∧
          ∃ g ∈ a.files, g.1 = ⟨"remote/./ids.schema.json"⟩ ∧ f.2 ≠ g.2)) = true := by decide +kernel
  obtain ⟨a, ha, htests⟩ := Except.exists_eq_ok_of_any htwins
  simp only [Bool.and_eq_true, decide_eq_true_iff] at htests
  obtain ⟨hpaths, f, hf, hfpath, g, hg, hgpath, hne⟩ := htests
  have hsame : f.1.Same g.1 := by
    rw [hfpath, hgpath]
    decide
  refine ⟨a, ha, hpaths, fun store => ?_⟩
  by_cases hread : store.read (twinOptions.outDir.join f.1) = .ok (Text.Utf8.encode f.2)
  · refine ⟨g, hg, fun hread' => hne ?_⟩
    exact Store.eq_of_read (store.destination_join_congr twinOptions.outDir hsame) hread hread'
  · exact ⟨f, hf, hread⟩

end SchemaTables
