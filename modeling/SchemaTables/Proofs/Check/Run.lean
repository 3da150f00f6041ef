import SchemaTables.Check.Run
import SchemaTables.Proofs.Check.Column
import SchemaTables.Proofs.Files.Whole

/-!
What the run of a plan reports. A run writes to nothing but the logs of its tasks, so every step finds the
tables as they were when the run began, as long as no table is a log. A report that passes says that every
step passes on these tables.
-/

namespace SchemaTables

set_option autoImplicit false

variable {written : Location → Prop} {allowed : Path → Prop} {s s' : Store} {dataDir childTable : Path}

namespace CheckStep

variable {step : CheckStep}

/-- Both columns are there, and each value of the child that is not blank is a cell of the parent. -/
def Passes (step : CheckStep) (s : Store) (dataDir childTable : Path) : Prop :=
  ∃ child parent, s.HasColumn childTable step.childColumn child ∧
    s.HasColumn (dataDir.join step.parentTable) step.parentColumn parent ∧
    ∀ cell ∈ child, ∀ value ∈ Check.cellValues step.separator cell,
      Text.allBlank value = false → value ∈ parent

/-- Both columns are there, in files that are not written to. -/
structure Readable (written : Location → Prop) (s : Store) (dataDir childTable : Path)
    (step : CheckStep) : Prop where
  child : ∃ cells, s.HasColumn childTable step.childColumn cells
  child_free : ¬ written (s.destination childTable)
  parent : ∃ cells, s.HasColumn (dataDir.join step.parentTable) step.parentColumn cells
  parent_free : ¬ written (s.destination (dataDir.join step.parentTable))

theorem Readable.passes_iff (h : step.Readable written s dataDir childTable)
    (hkeeps : s.Keeps written s') :
    step.Passes s' dataDir childTable ↔ step.Passes s dataDir childTable := by
  obtain ⟨child, hchild⟩ := h.child
  obtain ⟨parent, hparent⟩ := h.parent
  have hchild' := hchild.keeps hkeeps h.child_free
  have hparent' := hparent.keeps hkeeps h.parent_free
  constructor
  · rintro ⟨child', parent', hc, hp, hall⟩
    rw [hc.unique hchild', hp.unique hparent'] at hall
    exact ⟨child, parent, hchild, hparent, hall⟩
  · rintro ⟨child', parent', hc, hp, hall⟩
    rw [hc.unique hchild, hp.unique hparent] at hall
    exact ⟨child, parent, hchild', hparent', hall⟩

/-- A step changes nothing, and has no failure to tell when it passes. -/
theorem run_run (step : CheckStep) (s : Store) (dataDir childTable : Path) :
    ∃ f, (step.run dataDir childTable).run s = (f, s) ∧ (f = none ↔ step.Passes s dataDir childTable) := by
  obtain ⟨r, hr, hr_iff⟩ := Check.columns_run s childTable (dataDir.join step.parentTable) step.childColumn
    step.parentColumn step.separator
  refine ⟨step.failure? r, ?_, ?_⟩
  · rw [run, Script.run_bind, hr]
    rfl
  · cases r with
    | error e =>
      have hnot : ¬ step.Passes s dataDir childTable := by
        rintro ⟨child, parent, hchild, hparent, _⟩
        cases (hr_iff _).mpr ⟨child, parent, hchild, hparent, rfl⟩
      simp [failure?, hnot]
    | ok outcome =>
      obtain ⟨child, parent, hchild, hparent, rfl⟩ := (hr_iff outcome).mp rfl
      simp only [failure?, CheckOutcome.passed, List.isEmpty_iff, Check.missingValues_eq_nil_iff]
      split
      · rename_i hall
        exact ⟨fun _ => ⟨child, parent, hchild, hparent, hall⟩, fun _ => rfl⟩
      · rename_i hnot
        refine iff_of_false (Option.some_ne_none _) ?_
        rintro ⟨child', parent', hchild', hparent', hall⟩
        rw [hchild'.unique hchild, hparent'.unique hparent] at hall
        exact absurd hall hnot

theorem run_writesOnly : (step.run dataDir childTable).WritesOnly allowed := by
  have hread : ∀ p title, (Check.readColumn p title).WritesOnly allowed := fun p title =>
    .bind (.request trivial) fun _ => trivial
  exact Script.WritesOnly.bind (Task.WritesOnly.bind (hread _ _) fun _ => .bind (hread _ _) fun _ => .pure _)
    fun _ => trivial

end CheckStep

namespace CheckTask

variable {t : CheckTask} {step : CheckStep} {errorLog : Path}

theorem runStep_writesOnly (h : allowed errorLog) :
    (runStep dataDir childTable errorLog step).WritesOnly allowed := by
  refine .bind (Script.WritesOnly.bind step.run_writesOnly fun _ => trivial) fun f => ?_
  cases f with
  | none => exact .pure _
  | some failure =>
    exact .bind Files.makeParent_writesOnly fun _ => .bind (Files.addLine_writesOnly h) fun _ => .pure _

theorem runStep_returns {f : Option StepFailure}
    (h : (runStep dataDir childTable errorLog step).Returns s f s') :
    f = none ↔ step.Passes s dataDir childTable := by
  obtain ⟨f', hrun, hpasses⟩ := step.run_run s dataDir childTable
  obtain ⟨found, m, hfound, h⟩ := Task.returns_bind_iff.mp h
  rw [Task.returns_lift_iff, hrun] at hfound
  cases hfound
  rw [← hpasses]
  cases f' with
  | none =>
    obtain ⟨rfl, _⟩ := Task.returns_pure_iff.mp h
    rfl
  | some failure =>
    obtain ⟨_, _, _, h⟩ := Task.returns_bind_iff.mp h
    obtain ⟨_, _, _, h⟩ := Task.returns_bind_iff.mp h
    obtain ⟨rfl, _⟩ := Task.returns_pure_iff.mp h
    simp

/-- The logs of a task are all that it writes to. -/
theorem run_writesOnly (herror : allowed (dataDir.join t.errorLog))
    (hsuccess : allowed (dataDir.join t.successLog)) : (t.run dataDir).WritesOnly allowed := by
  refine .bind (Files.removeIfThere_writesOnly herror) fun _ => ?_
  refine .bind (Files.removeIfThere_writesOnly hsuccess) fun _ => ?_
  refine .bind (.mapM fun step _ => runStep_writesOnly herror) fun failures => ?_
  simp only
  split
  · exact .bind Files.makeParent_writesOnly fun _ =>
      .bind (Files.writeText_writesOnly hsuccess) fun _ => .pure _
  · exact .pure _

/-- A task that begins with the tables as they were passes when all its steps pass on them. -/
theorem run_returns {m m' : Store} {o : TaskOutcome} (h : (t.run dataDir).Returns m o m')
    (hkeeps : s.Keeps written m) (herror : written (s.destination (dataDir.join t.errorLog)))
    (hsuccess : written (s.destination (dataDir.join t.successLog)))
    (hread : ∀ step ∈ t.steps, step.Readable written s dataDir (dataDir.join t.childTable)) :
    m.Keeps written m' ∧
      (o.passed = true ↔ ∀ step ∈ t.steps, step.Passes s dataDir (dataDir.join t.childTable)) := by
  have hallowed : ∀ {n : Store}, s.Keeps written n → ∀ p, written (s.destination p) →
      written (n.destination p) := by
    intro n hn p hp
    rwa [Store.destination_congr hn.here]
  refine ⟨(run_writesOnly herror hsuccess).keeps h (hallowed hkeeps), ?_⟩
  obtain ⟨_, m₁, h₁, h⟩ := Task.returns_bind_iff.mp h
  have hkeeps₁ := hkeeps.trans ((Files.removeIfThere_writesOnly herror).keeps h₁ (hallowed hkeeps))
  obtain ⟨_, m₂, h₂, h⟩ := Task.returns_bind_iff.mp h
  have hkeeps₂ := hkeeps₁.trans ((Files.removeIfThere_writesOnly hsuccess).keeps h₂ (hallowed hkeeps₁))
  obtain ⟨failures, m₃, h₃, h⟩ := Task.returns_bind_iff.mp h
  have hsteps : List.Forall₂ (fun step f => step.Passes s dataDir (dataDir.join t.childTable) ↔ f = none)
      t.steps failures := by
    refine And.right (a := m₂.Keeps written m₃) (Task.forall₂_of_mapM h₃ ?_)
    intro step hstep n f n' hn hrun
    have hkeepsn := hkeeps₂.trans hn
    refine ⟨(runStep_writesOnly herror).keeps hrun (hallowed hkeepsn), ?_⟩
    rw [runStep_returns hrun, (hread step hstep).passes_iff hkeepsn]
  have hfailures : o.failures = failures.filterMap id := by
    simp only at h
    split at h
    · obtain ⟨_, _, _, h⟩ := Task.returns_bind_iff.mp h
      obtain ⟨_, _, _, h⟩ := Task.returns_bind_iff.mp h
      obtain ⟨rfl, _⟩ := Task.returns_pure_iff.mp h
      rfl
    · obtain ⟨rfl, _⟩ := Task.returns_pure_iff.mp h
      rfl
  rw [hsteps.forall_mem_iff, TaskOutcome.passed, hfailures, List.isEmpty_iff, List.filterMap_eq_nil_iff]
  rfl

end CheckTask

/-- The locations of the logs of a plan. -/
def CheckPlan.Writes (plan : CheckPlan) (s : Store) (dataDir : Path) (l : Location) : Prop :=
  ∃ t ∈ plan.tasks, l = s.destination (dataDir.join t.errorLog) ∨ l = s.destination (dataDir.join t.successLog)

/-- A report passes when every step passes on the tables as they were before the run. -/
theorem CheckPlan.run_returns {plan : CheckPlan} {runId : String} {o : PlanOutcome}
    (h : (plan.run dataDir runId).Returns s o s')
    (hread : ∀ t ∈ plan.tasks, ∀ step ∈ t.steps,
      step.Readable (plan.Writes s dataDir) s dataDir (dataDir.join t.childTable)) :
    o.passed = true ↔
      ∀ t ∈ plan.tasks, ∀ step ∈ t.steps, step.Passes s dataDir (dataDir.join t.childTable) := by
  obtain ⟨_, m₀, h₀, h⟩ := Task.returns_bind_iff.mp h
  have hclock : ∀ {n n' : Store} {ms : Nat}, (Task.elapsed : Task FileError Nat).Returns n ms n' → n' = n :=
    fun hn => (congrArg Prod.snd hn).symm
  obtain ⟨_, m₁, h₁, h⟩ := Task.returns_bind_iff.mp h
  have hkeeps₁ : s.Keeps (plan.Writes s dataDir) m₁ := by
    have honly : (Files.makeDirectories (dataDir.join plan.validationDir)).WritesOnly fun _ => False :=
      Files.makeDirectories_writesOnly
    rw [hclock h₀] at h₁
    exact honly.keeps h₁ fun _ hp => hp.elim
  obtain ⟨tasks, m₂, h₂, h⟩ := Task.returns_bind_iff.mp h
  obtain ⟨_, _, _, h⟩ := Task.returns_bind_iff.mp h
  obtain ⟨rfl, _⟩ := Task.returns_pure_iff.mp h
  have htasks := (Task.forall₂_of_mapM h₂ fun t ht n o n' hn hrun =>
    CheckTask.run_returns hrun (hkeeps₁.trans hn) ⟨t, ht, Or.inl rfl⟩ ⟨t, ht, Or.inr rfl⟩ (hread t ht)).2
  rw [PlanOutcome.passed, List.all_eq_true]
  exact (List.Forall₂.forall_mem_iff (htasks.imp fun _ _ hiff => hiff.symm)).symm

end SchemaTables
