import SchemaTables.CommandLine.Run
import SchemaTables.Proofs.Check.Run
import SchemaTables.Proofs.Check.Separator
import SchemaTables.Proofs.Files.Directory
import SchemaTables.Proofs.Plan.Command

/-!
What the command of a step finds, next to what the run of the plan finds. Both read the same two columns. But
a step without a separator leaves the option out, and so the command falls back on the separator that the
program takes by default: it takes cells apart that the run of the plan leaves whole.
-/

namespace SchemaTables

set_option autoImplicit false

/-- The check of a request, as the program makes it. -/
def CheckRequest.check (q : CheckRequest) : Task TableError CheckOutcome :=
  Check.columns q.childTable q.childColumn q.parentTable q.parentColumn (some q.separator)

/-- The command makes the check of its request once its record is open, and ends with what the check finds. -/
theorem Command.runCheck_returns {c : Circumstances} {runDir : Path} {q : CheckRequest} {s s' : Store}
    {e : Ending} (h : (Command.runCheck c runDir q).Returns s e s') : ∃ files m outcome,
      ((c.start CommandLine.checkForm.name runDir none q.toJson).open c.isLogging).Returns s files m ∧
      q.check.run.run m = (.ok outcome, m) ∧ e = ⟨outcome.text, outcome.passed⟩ := by
  obtain ⟨files, m, hopen, h⟩ := Task.returns_bind_iff.mp h
  obtain ⟨outcome, m', hcheck, h⟩ := Task.returns_bind_iff.mp h
  obtain ⟨_, _, _, h⟩ := Task.returns_bind_iff.mp h
  obtain ⟨_, _, _, h⟩ := Task.returns_bind_iff.mp h
  obtain ⟨rfl, _⟩ := Task.returns_pure_iff.mp h
  obtain ⟨r, hrun, _⟩ := Check.columns_run m q.childTable q.parentTable q.childColumn q.parentColumn
    (some q.separator)
  have hfound : q.check.run.run m = (.ok outcome, m') := Task.returns_wrap_iff.mp hcheck
  have hsame : m' = m := congrArg Prod.snd (hfound.symm.trans hrun)
  rw [hsame] at hfound
  exact ⟨files, m, outcome, hopen, hfound, rfl⟩

/-- The values that a check finds missing, unless it fails. -/
def Check.missing? (r : Except TableError CheckOutcome) : Option (List String) :=
  r.toOption.map CheckOutcome.missing

section Directory

variable {s : Store} {dir p : Path} {l : Location}

theorem Csv.column_eq_ok_congr (p q : Path) {title : String} {content : Bytes} {cells : List String} :
    column p title content = .ok cells ↔ column q title content = .ok cells := by
  unfold column
  simp only [Except.bind_eq_ok_iff]
  refine exists_congr fun header => and_congr_right fun _ => ?_
  cases header.idxOf? title with
  | none => simp
  | some position => rfl

theorem Store.hasColumn_startingAt {title : String} {cells : List String}
    (hdir : s.locate dir = .ok (l, .directory)) (hp : p.text ≠ "")
    (hshort : (dir.join p).text.utf8ByteSize ≤ maxPath) :
    (s.startingAt l).HasColumn p title cells ↔ s.HasColumn (dir.join p) title cells := by
  unfold Store.HasColumn
  rw [read_join hdir hp hshort]
  refine exists_congr fun content => and_congr_right fun _ => ?_
  exact Csv.column_eq_ok_congr _ _

end Directory

namespace CheckStep

variable {t : CheckTask} {step : CheckStep} {s : Store} {dataDir : Path} {l : Location}

/-- The request that the command of a step comes to. -/
def request (t : CheckTask) (step : CheckStep) : CheckRequest where
  childTable := t.childTable
  childColumn := step.childColumn
  parentTable := step.parentTable
  parentColumn := step.parentColumn
  separator := step.separator.getD "|"

theorem invocation_arguments (h : step.Plain t) :
    CommandLine.invocation (CommandLine.checkForm.name :: step.arguments t) =
      .ok ⟨⟨"tablewright.toml"⟩, ⟨"runs"⟩, false, .check (step.request t)⟩ :=
  CommandLine.invocation_check h.childTable h.parentTable h.values

/-- The separator that the program takes by default makes no difference exactly when the cells that have it
and their pieces are missed alike. -/
theorem missingValues_default_iff (separator : Option String) (child parent : List String) :
    Check.missingValues (some (separator.getD "|")) child parent = Check.missingValues separator child parent ↔
      (separator = none → Check.SplitsAlike '|' child parent) := by
  cases separator with
  | some text => simp
  | none =>
    have hbar : String.singleton '|' = "|" := by decide
    have hiff := Check.missingValues_separator_iff (c := '|') child parent (by decide)
    rw [hbar] at hiff
    simpa using hiff

/-- The command of a step, given in the directory of the data, reads what the run of the step reads, and
fails where it fails. It finds the same values missing when the step has a separator. When it has none, the
command still takes the cells apart at `|`, which makes no difference exactly when the cells with that
character and their pieces are missed alike. -/
theorem command_finds (hplain : step.Plain t) (hdir : s.locate dataDir = .ok (l, .directory))
    (hchild : (dataDir.join t.childTable).text.utf8ByteSize ≤ Store.maxPath)
    (hparent : (dataDir.join step.parentTable).text.utf8ByteSize ≤ Store.maxPath) :
    ∃ arguments q, Shell.words (step.command t) = programVariable :: arguments ∧
      CommandLine.invocation (CommandLine.checkForm.name :: arguments) =
        .ok ⟨⟨"tablewright.toml"⟩, ⟨"runs"⟩, false, .check q⟩ ∧
      ∃ r r', q.check.run.run (s.startingAt l) = (r, s.startingAt l) ∧
        (Check.columns (dataDir.join t.childTable) step.childColumn (dataDir.join step.parentTable)
          step.parentColumn step.separator).run.run s = (r', s) ∧
        (step.run dataDir (dataDir.join t.childTable)).run s = (step.failure? r', s) ∧
        r.isOk = r'.isOk ∧
        (Check.missing? r = Check.missing? r' ↔ ∀ child,
          s.HasColumn (dataDir.join t.childTable) step.childColumn child → ∀ parent,
          s.HasColumn (dataDir.join step.parentTable) step.parentColumn parent →
          step.separator = none → Check.SplitsAlike '|' child parent) := by
  refine ⟨step.arguments t, step.request t, words_command hplain, invocation_arguments hplain, ?_⟩
  have hrun : ∀ {r}, (Check.columns (dataDir.join t.childTable) step.childColumn (dataDir.join step.parentTable)
      step.parentColumn step.separator).run.run s = (r, s) →
      (step.run dataDir (dataDir.join t.childTable)).run s = (step.failure? r, s) := by
    intro r hr
    rw [run, Script.run_bind, hr]
    rfl
  have hchild_iff : ∀ cells, (s.startingAt l).HasColumn t.childTable step.childColumn cells ↔
      s.HasColumn (dataDir.join t.childTable) step.childColumn cells := by
    intro cells
    exact Store.hasColumn_startingAt hdir hplain.childTable hchild
  have hparent_iff : ∀ cells, (s.startingAt l).HasColumn step.parentTable step.parentColumn cells ↔
      s.HasColumn (dataDir.join step.parentTable) step.parentColumn cells := by
    intro cells
    exact Store.hasColumn_startingAt hdir hplain.parentTable hparent
  by_cases hread : ∃ child parent, s.HasColumn (dataDir.join t.childTable) step.childColumn child ∧
      s.HasColumn (dataDir.join step.parentTable) step.parentColumn parent
  · obtain ⟨child, parent, hc, hp⟩ := hread
    have hfinds := Check.columns_run_of_hasColumn step.separator hc hp
    refine ⟨_, _, Check.columns_run_of_hasColumn _ ((hchild_iff _).mpr hc) ((hparent_iff _).mpr hp), hfinds,
      hrun hfinds, rfl, ?_⟩
    simp only [hc.forall_iff, hp.forall_iff, ← missingValues_default_iff]
    exact Option.some_inj
  · have hread' : ¬ ∃ child parent, (s.startingAt l).HasColumn t.childTable step.childColumn child ∧
        (s.startingAt l).HasColumn step.parentTable step.parentColumn parent := by
      simpa only [hchild_iff, hparent_iff] using hread
    obtain ⟨e, hfails⟩ := Check.columns_run_of_missing hread
    obtain ⟨e', hfails'⟩ := Check.columns_run_of_missing hread'
    refine ⟨_, _, hfails', hfails, hrun hfails, rfl, iff_of_true rfl ?_⟩
    intro child hc parent hp
    exact absurd ⟨child, parent, hc, hp⟩ hread

end CheckStep

/-- The identifier of the only parent has the character in it that separates values by default. -/
def barStep : CheckStep where
  childColumn := "ref"
  parentTable := ⟨"parent.csv"⟩
  parentColumn := "id"

def barTask : CheckTask where
  name := "child"
  childTable := ⟨"child.csv"⟩
  dependsOn := [⟨"child.csv"⟩, ⟨"parent.csv"⟩]
  errorLog := ⟨"out/child.err.log"⟩
  successLog := ⟨"out/child.success.log"⟩
  steps := [barStep]

def barStore : Store where
  items := [(["parent.csv"], .file (Text.Utf8.encode "id\na|b\n")),
    (["child.csv"], .file (Text.Utf8.encode "ref\na|b\n"))]

namespace CheckStep

theorem command_finds_bar : ∃ arguments q, Shell.words (barStep.command barTask) = programVariable :: arguments ∧
    CommandLine.invocation (CommandLine.checkForm.name :: arguments) =
      .ok ⟨⟨"tablewright.toml"⟩, ⟨"runs"⟩, false, .check q⟩ ∧
    ∃ r r', (q.check.run.run barStore).1 = r ∧
      (barStep.run ⟨"."⟩ ⟨"./child.csv"⟩).run barStore = (barStep.failure? r', barStore) ∧
      Check.missing? r ≠ Check.missing? r' := by
  have hplain : barStep.Plain barTask := by decide
  have hdir : barStore.locate ⟨"."⟩ = .ok ([], .directory) := by rfl
  obtain ⟨arguments, q, hwords, hinvocation, r, r', hr, _, hrun, _, hmissing⟩ :=
    command_finds hplain hdir (by decide) (by decide)
  refine ⟨arguments, q, hwords, hinvocation, r, r', congrArg Prod.fst hr, hrun, ?_⟩
  rw [ne_eq, hmissing]
  intro halike
  have hchild : barStore.HasColumn ⟨"./child.csv"⟩ "ref" ["a|b"] := ⟨_, rfl, by decide +kernel⟩
  have hparent : barStore.HasColumn ⟨"./parent.csv"⟩ "id" ["a|b"] := ⟨_, rfl, by decide +kernel⟩
  have hbar : Check.SplitsAlike '|' ["a|b"] ["a|b"] := halike _ hchild _ hparent rfl
  revert hbar
  decide

/-- The step passes when the plan is run, while its command tells of missing values. -/
theorem exists_command_of_other_values : ∃ t step s c, step ∈ CheckTask.steps t ∧ step.Plain t ∧
    Shell.words (step.command t) = programVariable :: step.arguments t ∧
    ((step.run ⟨"."⟩ (Path.join ⟨"."⟩ t.childTable)).run s).1 = none ∧
    ((CommandLine.run (CommandLine.checkForm.name :: step.arguments t) c).run s).1.exitCode = 1 := by
  have hplain : barStep.Plain barTask := by decide
  refine ⟨barTask, barStep, barStore, ⟨⟨⟨2026, 1, 1⟩, 0, 0, 0, 0⟩, "run", "run", false⟩, List.mem_cons_self,
    hplain, words_command hplain, ?_, ?_⟩
  · decide +kernel
  · decide +kernel

end CheckStep

end SchemaTables
