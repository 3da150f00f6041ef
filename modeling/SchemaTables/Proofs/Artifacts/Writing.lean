import SchemaTables.Generation
import SchemaTables.Proofs.Files.Replace

/-!
What is on disk after files have been generated, whatever goes wrong meanwhile. The compilation comes before any
request that changes something, so a schema or options with a fault leave everything as it is. After that each file
has its old content or all of what was made for it, and no file is touched but those that are replaced and
their siblings, which are gone when all goes well.
-/

namespace SchemaTables

set_option autoImplicit false

open Files (IsTemporary)

variable {s s' : Store} {dir : Path} {files : List (Path × String)} {l : Location}

/-- Replaces files below a directory one after the other. -/
def Files.replaceAll (dir : Path) (files : List (Path × String)) : Task FileError (List Nat) :=
  files.mapM fun f => Files.replace (dir.join f.1) (Text.Utf8.encode f.2)

theorem Task.ends_mapM_cons_iff {ε α β : Type} {f : α → Task ε β} {a : α} {rest : List α} {r : Except ε (List β)} :
    ((a :: rest).mapM f).Ends s r s' ↔ (∃ e, r = .error e ∧ (f a).Ends s (.error e) s') ∨
      ∃ b m r', (f a).Ends s (.ok b) m ∧ (rest.mapM f).Ends m r' s' ∧ r = r'.map (b :: ·) := by
  rw [List.mapM_cons, Task.ends_bind_iff]
  refine or_congr_right ?_
  constructor
  · rintro ⟨b, m, hb, h⟩
    rcases Task.ends_bind_iff.mp h with ⟨e, rfl, hrest⟩ | ⟨bs, m', hrest, h⟩
    · exact ⟨b, m, _, hb, hrest, rfl⟩
    · obtain ⟨rfl, rfl⟩ := Task.ends_pure_iff.mp h
      exact ⟨b, m, _, hb, hrest, rfl⟩
  · rintro ⟨b, m, r', hb, hrest, rfl⟩
    refine ⟨b, m, hb, Task.ends_bind_iff.mpr ?_⟩
    cases r' with
    | error e => exact Or.inl ⟨e, rfl, hrest⟩
    | ok bs => exact Or.inr ⟨bs, s', hrest, Task.ends_pure_iff.mpr ⟨rfl, rfl⟩⟩

namespace Files

theorem replaceAll_nil {r : Except FileError (List Nat)} (h : (replaceAll dir []).Ends s r s') : s' = s :=
  (Task.ends_pure_iff.mp h).2.symm

/-- However it ends, every location that is no file's sibling has its old content or all that is written there. -/
theorem content?_replaceAll {r : Except FileError (List Nat)} (h : (replaceAll dir files).Ends s r s')
    (hl : ∀ f ∈ files, ¬ IsTemporary s (dir.join f.1) l) :
    s'.content? l = s.content? l ∨
      ∃ f ∈ files, s.destination (dir.join f.1) = l ∧ s'.content? l = some (Text.Utf8.encode f.2) := by
  induction files generalizing s r with
  | nil => exact Or.inl (by rw [replaceAll_nil h])
  | cons f rest ih =>
    rw [List.forall_mem_cons] at hl
    have hfirst : ∀ {r m}, (replace (dir.join f.1) (Text.Utf8.encode f.2)).Ends s r m →
        m.content? l = s.content? l ∨ ∃ g ∈ f :: rest, s.destination (dir.join g.1) = l ∧
          m.content? l = some (Text.Utf8.encode g.2) := fun hends =>
      (content?_replace hends hl.1).imp_right fun hnew => ⟨f, List.mem_cons_self, hnew⟩
    rcases Task.ends_mapM_cons_iff.mp h with ⟨e, _, hf⟩ | ⟨_, m, _, hf, hrest, _⟩
    · exact hfirst hf
    · have hhere := (replace_keeps hf).here
      have hlater := ih hrest fun g hg => by
        rw [isTemporary_congr hhere]
        exact hl.2 g hg
      rcases hlater with hsame | ⟨g, hg, hdest, hcontent⟩
      · rw [hsame]
        exact hfirst hf
      · rw [Store.destination_congr hhere] at hdest
        exact Or.inr ⟨g, List.mem_cons_of_mem f hg, hdest, hcontent⟩

theorem replaceAll_ok_cons {f : Path × String} {rest : List (Path × String)} {sizes : List Nat}
    (h : (replaceAll dir (f :: rest)).Ends s (.ok sizes) s') : ∃ size m sizes',
      (replace (dir.join f.1) (Text.Utf8.encode f.2)).Ends s (.ok size) m ∧
      (replaceAll dir rest).Ends m (.ok sizes') s' ∧ m.here = s.here := by
  rcases Task.ends_mapM_cons_iff.mp h with ⟨_, herror, _⟩ | ⟨size, m, r, hf, hrest, hr⟩
  · cases herror
  · cases r with
    | error e => cases hr
    | ok sizes' => exact ⟨size, m, sizes', hf, hrest, (replace_keeps hf).here⟩

/-- Where nothing is and nothing is written there is nothing when all has gone well, though a sibling may have been
there in between. -/
theorem content?_eq_none_of_replaceAll {sizes : List Nat} (h : (replaceAll dir files).Ends s (.ok sizes) s')
    (hdest : ∀ f ∈ files, s.destination (dir.join f.1) ≠ l) (hnone : s.content? l = none) :
    s'.content? l = none := by
  induction files generalizing s sizes with
  | nil => rw [replaceAll_nil h, hnone]
  | cons f rest ih =>
    rw [List.forall_mem_cons] at hdest
    obtain ⟨_, m, _, hf, hrest, hhere⟩ := replaceAll_ok_cons h
    refine ih hrest (fun g hg => ?_) ?_
    · rw [Store.destination_congr hhere]
      exact hdest.2 g hg
    · by_cases htmp : IsTemporary s (dir.join f.1) l
      · exact (read_replace hf).2 htmp
      · rcases content?_replace hf htmp with hsame | ⟨hl, _⟩
        · rw [hsame, hnone]
        · exact absurd hl hdest.1

/-- No file lies where a sibling lies through which one of the files is replaced. -/
def SiblingsFree (s : Store) (dir : Path) (files : List (Path × String)) : Prop :=
  ∀ f ∈ files, ∀ g ∈ files, ¬ IsTemporary s (dir.join f.1) (s.destination (dir.join g.1))

instance (s : Store) (dir : Path) (files : List (Path × String)) : Decidable (SiblingsFree s dir files) :=
  inferInstanceAs (Decidable (∀ f ∈ files, ∀ g ∈ files, _))

theorem SiblingsFree.tail {f : Path × String} {m : Store} (h : SiblingsFree s dir (f :: files))
    (hhere : m.here = s.here) : SiblingsFree m dir files := by
  intro g hg k hk
  rw [isTemporary_congr hhere, Store.destination_congr hhere]
  exact h g (List.mem_cons_of_mem f hg) k (List.mem_cons_of_mem f hk)

/-- When all has gone well the siblings are gone. -/
theorem siblings_gone {sizes : List Nat} (h : (replaceAll dir files).Ends s (.ok sizes) s')
    (hfree : SiblingsFree s dir files) {f : Path × String} (hf : f ∈ files)
    (hl : IsTemporary s (dir.join f.1) l) : s'.content? l = none := by
  induction files generalizing s sizes with
  | nil => cases hf
  | cons first rest ih =>
    obtain ⟨_, m, _, hfirst, hrest, hhere⟩ := replaceAll_ok_cons h
    rcases List.mem_cons.mp hf with rfl | hmem
    · apply content?_eq_none_of_replaceAll hrest
      · rintro g hg heq
        rw [Store.destination_congr hhere] at heq
        rw [← heq] at hl
        exact hfree f List.mem_cons_self g (List.mem_cons_of_mem f hg) hl
      · exact (read_replace hfirst).2 hl
    · refine ih hrest (hfree.tail hhere) hmem ?_
      rwa [isTemporary_congr hhere]

/-- What can be read where nothing is written can be read when all has gone well. -/
theorem read_of_replaceAll {p : Path} {content : Bytes} {sizes : List Nat}
    (h : (replaceAll dir files).Ends s (.ok sizes) s') (hread : s.read p = .ok content)
    (hother : ∀ f ∈ files, s.destination (dir.join f.1) ≠ s.destination p ∧
      ¬ IsTemporary s (dir.join f.1) (s.destination p)) : s'.read p = .ok content := by
  induction files generalizing s sizes with
  | nil => rwa [replaceAll_nil h]
  | cons f rest ih =>
    rw [List.forall_mem_cons] at hother
    obtain ⟨_, m, _, hf, hrest, hhere⟩ := replaceAll_ok_cons h
    refine ih hrest ((replace_keeps hf).read hread ?_) fun g hg => ?_
    · rintro (hdest | htmp)
      · exact hother.1.1 hdest.symm
      · exact hother.1.2 htmp
    · rw [Store.destination_congr hhere, Store.destination_congr hhere, isTemporary_congr hhere]
      exact hother.2 g hg

/-- Each file has a place of its own, and none lies where a sibling lies through which one of them is replaced. -/
structure PlacesApart (s : Store) (dir : Path) (files : List (Path × String)) : Prop where
  places : files.Pairwise fun f g => s.destination (dir.join f.1) ≠ s.destination (dir.join g.1)
  siblings : SiblingsFree s dir files

/-- When all has gone well, files with places of their own are read as they were made. -/
theorem read_replaceAll {sizes : List Nat} (h : (replaceAll dir files).Ends s (.ok sizes) s')
    (hapart : PlacesApart s dir files) {f : Path × String} (hf : f ∈ files) :
    s'.read (dir.join f.1) = .ok (Text.Utf8.encode f.2) := by
  induction files generalizing s sizes with
  | nil => cases hf
  | cons first rest ih =>
    obtain ⟨hplaces, hfree⟩ := hapart
    rw [List.pairwise_cons] at hplaces
    obtain ⟨_, m, _, hfirst, hrest, hhere⟩ := replaceAll_ok_cons h
    rcases List.mem_cons.mp hf with rfl | hmem
    · refine read_of_replaceAll hrest (read_replace hfirst (l := [])).1 fun g hg => ?_
      rw [Store.destination_congr hhere, Store.destination_congr hhere, isTemporary_congr hhere]
      exact ⟨(hplaces.1 g hg).symm, hfree g (List.mem_cons_of_mem f hg) f List.mem_cons_self⟩
    · refine ih hrest ⟨hplaces.2.imp fun hne => ?_, hfree.tail hhere⟩ hmem
      rwa [Store.destination_congr hhere, Store.destination_congr hhere]

end Files

namespace Task

theorem ends_elapsed {ε : Type} {r : Except ε Nat} (h : (elapsed : Task ε Nat).Ends s r s') :
    s' = s ∧ ∃ n, r = .ok n := by
  obtain ⟨fault, hend⟩ := Script.ends_ask_iff.mp h
  obtain ⟨rfl, rfl⟩ := Script.ends_done_iff.mp hend
  exact ⟨by cases fault <;> rfl, _, rfl⟩

theorem ends_ofExcept_iff {ε δ α : Type} {wrap : δ → ε} {x : Except δ α} {r : Except ε α} :
    (Task.ofExcept wrap x).Ends s r s' ↔ r = x.mapError wrap ∧ s = s' := by
  refine Script.ends_done_iff.trans ?_
  rw [eq_comm]

end Task

namespace Schema

variable {schema : Schema} {o : Options} {runId : String} {r : Except GenerationError GenerationSummary}

theorem replaceAll_of_write {a : Artifacts} {r : Except FileError Nat} (h : (a.write dir).Ends s r s') :
    ∃ r', (Files.replaceAll dir a.files).Ends s r' s' ∧ (r.isOk → r'.isOk) := by
  rcases Task.ends_bind_iff.mp h with ⟨e, rfl, hfailed⟩ | ⟨sizes, m, hsizes, hend⟩
  · exact ⟨_, hfailed, id⟩
  · obtain ⟨_, rfl⟩ := Task.ends_pure_iff.mp hend
    exact ⟨_, hsizes, fun _ => rfl⟩

/-- Generating files compiles the schema, and then replaces the files. -/
theorem generate_cases (h : (schema.generate o runId).Ends s r s') :
    (∃ cause, compile o schema = .error cause ∧ r = .error (.compile cause) ∧ s' = s) ∨
    ∃ a r', compile o schema = .ok a ∧ (Files.replaceAll o.outDir a.files).Ends s r' s' ∧ (r.isOk → r'.isOk) ∧
      ∀ cause, r ≠ .error (.compile cause) := by
  rcases Task.ends_bind_iff.mp h with ⟨_, _, hstart⟩ | ⟨start, m, hstart, hcompiled⟩
  · obtain ⟨_, _, herror⟩ := Task.ends_elapsed hstart
    cases herror
  obtain ⟨rfl, _⟩ := Task.ends_elapsed hstart
  rcases Task.ends_bind_iff.mp hcompiled with ⟨e, rfl, hfault⟩ | ⟨a, m', hresult, hrest⟩
  · obtain ⟨herror, rfl⟩ := Task.ends_ofExcept_iff.mp hfault
    cases hcompile : compile o schema with
    | error cause =>
      rw [hcompile] at herror
      have hcause : e = .compile cause := Except.error.inj herror
      exact Or.inl ⟨cause, rfl, by rw [hcause], rfl⟩
    | ok a =>
      rw [hcompile] at herror
      cases herror
  · obtain ⟨hok, rfl⟩ := Task.ends_ofExcept_iff.mp hresult
    have hcompile : compile o schema = .ok a := Except.mapError_eq_ok_iff.mp hok.symm
    refine Or.inr ⟨a, ?_⟩
    rcases Task.ends_bind_iff.mp hrest with ⟨e, rfl, hfailed⟩ | ⟨bytes, m', hwritten, hend⟩
    · obtain ⟨r', hwrite, herror⟩ := Task.ends_wrap_iff.mp hfailed
      obtain ⟨r'', hreplace, _⟩ := replaceAll_of_write hwrite
      refine ⟨r'', hcompile, hreplace, nofun, ?_⟩
      rintro cause heq
      cases r' with
      | error e' =>
        cases heq
        cases herror
      | ok n => cases herror
    · obtain ⟨r', hwrite, hbytes⟩ := Task.ends_wrap_iff.mp hwritten
      obtain ⟨r'', hreplace, hok'⟩ := replaceAll_of_write hwrite
      rw [Except.mapError_eq_ok_iff] at hbytes
      rcases Task.ends_bind_iff.mp hend with ⟨_, _, helapsed⟩ | ⟨_, n, helapsed, hsummary⟩
      · obtain ⟨_, _, herror⟩ := Task.ends_elapsed helapsed
        cases herror
      · obtain ⟨rfl, _⟩ := Task.ends_elapsed helapsed
        obtain ⟨rfl, rfl⟩ := Task.ends_pure_iff.mp hsummary
        exact ⟨r'', hcompile, hreplace, fun _ => hok' (by rw [hbytes]; rfl), nofun⟩

/-- Generating files is all or nothing, file by file, whatever requests go wrong. A fault of the schema or the
options leaves everything as it is. Otherwise no file is created or changed but those that are written and their
siblings; and if no file lies where another's sibling lies, each has its old content or all of what was made for
its place, and in the end no sibling is left when all goes well. -/
theorem generate_whole_or_old {faults : List (Option Fault)}
    (hrun : (schema.generate o runId).run.runWith faults s = (r, s')) :
    (∀ cause, r = .error (.compile cause) → compile o schema = .error cause ∧ s' = s) ∧
    ((∀ cause, r ≠ .error (.compile cause)) → ∃ a, compile o schema = .ok a ∧
      (∀ l, (∀ f ∈ a.files, s.destination (o.outDir.join f.1) ≠ l ∧ ¬ IsTemporary s (o.outDir.join f.1) l) →
        s'.content? l = s.content? l) ∧
      (Files.SiblingsFree s o.outDir a.files →
        (∀ f ∈ a.files, s'.content? (s.destination (o.outDir.join f.1)) =
            s.content? (s.destination (o.outDir.join f.1)) ∨
          ∃ g ∈ a.files, s.destination (o.outDir.join g.1) = s.destination (o.outDir.join f.1) ∧
            s'.content? (s.destination (o.outDir.join f.1)) = some (Text.Utf8.encode g.2)) ∧
        (r.isOk → ∀ f ∈ a.files, ∀ l, IsTemporary s (o.outDir.join f.1) l → s'.content? l = none))) := by
  rcases generate_cases ⟨faults, hrun⟩ with ⟨cause, hcompile, rfl, rfl⟩ | ⟨a, r', hcompile, hreplace, hok, hnot⟩
  · refine ⟨fun _ h => ?_, fun h => absurd rfl (h cause)⟩
    cases h
    exact ⟨hcompile, rfl⟩
  · refine ⟨fun cause h => absurd h (hnot cause), fun _ => ⟨a, hcompile, fun l hl => ?_, fun hfree => ⟨?_, ?_⟩⟩⟩
    · rcases Files.content?_replaceAll hreplace fun f hf => (hl f hf).2 with hsame | ⟨g, hg, hdest, _⟩
      · exact hsame
      · exact absurd hdest (hl g hg).1
    · intro f hf
      exact Files.content?_replaceAll hreplace fun g hg => hfree g hg f hf
    · intro hdone f hf l hl
      cases r' with
      | error e => cases hok hdone
      | ok sizes => exact Files.siblings_gone hreplace hfree hf hl

end Schema

def noteSchema : Schema where
  name := "notes"
  classPrefix := some "ex"
  prefixes := [("ex", "https://example.org/")]
  types := [{ name := "string" }]
  classes := [{ name := "Note", slots := ["id"] }]
  slots := [{ name := "id", required := true, identifier := true }]

/-- The schema of the notes is there, from another time. -/
def earlierNotes : Store where
  items := [(["remote"], .directory), (["remote", "Note.schema.json"], .file [123, 125])]

/-- The disk is full when the second file is written. -/
def fullDisk : List (Option Fault) := List.replicate 11 none ++ [some ⟨.other "No space left on device", 5⟩]

/-- With a full disk the notes have their table, and the old schema. -/
theorem Schema.generate_whole_or_old_full :
    ∃ r s', (noteSchema.generate {} "run").run.runWith fullDisk earlierNotes = (r, s') ∧ r.isOk = false ∧
      s'.content? ["Note.csv"] = some (Text.Utf8.encode "\"id*\"\n") ∧
      (s'.content? ["remote", "Note.schema.json"] = earlierNotes.content? ["remote", "Note.schema.json"] ∨
        ∃ a, compile {} noteSchema = .ok a ∧ ∃ g ∈ a.files,
          s'.content? ["remote", "Note.schema.json"] = some (Text.Utf8.encode g.2)) := by
  have hfailed : ((noteSchema.generate {} "run").run.runWith fullDisk earlierNotes).1.isOk = false := by decide +kernel
  have htable : ((noteSchema.generate {} "run").run.runWith fullDisk earlierNotes).2.content? ["Note.csv"] =
      some (Text.Utf8.encode "\"id*\"\n") := by decide +kernel
  have hfree : (compile {} noteSchema).toOption.any
      (fun a => decide (Files.SiblingsFree earlierNotes (Options.outDir {}) a.files)) = true := by decide +kernel
  have hschema : (compile {} noteSchema).toOption.any
      (fun a => (a.files.map (·.1)).contains ⟨"remote/Note.schema.json"⟩) = true := by decide +kernel
  generalize hrun : (noteSchema.generate {} "run").run.runWith fullDisk earlierNotes = ends at hfailed htable ⊢
  obtain ⟨r, s'⟩ := ends
  obtain ⟨hfault, hwhole⟩ := Schema.generate_whole_or_old hrun
  have hnot : ∀ cause, r ≠ .error (.compile cause) := by
    intro cause heq
    rw [(hfault cause heq).1] at hfree
    cases hfree
  obtain ⟨a, ha, _, hwhole⟩ := hwhole hnot
  rw [ha] at hfree hschema
  obtain ⟨hold, _⟩ := hwhole (by simpa [Except.toOption] using hfree)
  obtain ⟨f, hf, hpath⟩ := List.mem_map.mp (List.contains_iff_mem.mp hschema)
  have hplace : earlierNotes.destination ((Options.outDir {}).join f.1) = ["remote", "Note.schema.json"] := by
    rw [hpath]
    decide
  have hcontent := hold f hf
  rw [hplace] at hcontent
  refine ⟨r, s', rfl, hfailed, htable, hcontent.imp_right ?_⟩
  rintro ⟨g, hg, _, hnew⟩
  exact ⟨a, ha, g, hg, hnew⟩

end SchemaTables
