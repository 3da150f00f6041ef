import SchemaTables.Proofs.Check.Footprint
import SchemaTables.Proofs.Check.Run
import SchemaTables.Proofs.Files.Apart
import SchemaTables.Proofs.Text.Utf8

/-!
What a task leaves in its logs. The error log is missing when the steps begin, and each step that fails
adds its message, so in the end it holds the messages of the failures, one a line. There is a success log
when there is no failure.
-/

namespace SchemaTables

set_option autoImplicit false

/-- The log holds the lines, and is missing when there are none. -/
def Store.LogHolds (s : Store) (log : Path) (lines : List String) : Prop :=
  if lines = [] then s.Absent log else s.read log = .ok (Text.Utf8.encode (String.join (lines.map (· ++ "\n"))))

variable {s s' m : Store} {dataDir childTable log : Path} {lines : List String}

namespace Store.LogHolds

theorem of_absent (h : s.Absent log) : s.LogHolds log [] := by
  rw [LogHolds, if_pos rfl]
  exact h

theorem differsBy {files ways : List Path} (h : s.LogHolds log lines) (hd : s.DiffersBy files ways m)
    (hlog : s.Spares files ways log) : m.LogHolds log lines := by
  unfold LogHolds at h ⊢
  split at h
  · rename_i hnil
    rw [if_pos hnil]
    exact hd.absent hlog h
  · rename_i hne
    rw [if_neg hne]
    exact hd.read hlog h

/-- A line is added to what the log holds. -/
theorem addLine {line : String} (h : s.LogHolds log lines) (hparent : (Files.makeParent log).Returns s () m)
    (hadd : (Files.addLine log line).Returns m () s') : s'.LogHolds log (lines ++ [line]) := by
  have hdiffers := Files.makeParent_differs hparent
  obtain ⟨before, hread, hbefore⟩ := Files.read_addLine hadd
  rw [destination_congr hdiffers.here, hdiffers.file_iff not_false] at hbefore
  have hholds : before = Text.Utf8.encode (String.join (lines.map (· ++ "\n"))) := by
    unfold LogHolds at h
    rcases hbefore with ⟨hmissing, rfl⟩ | hfile
    · split at h
      · rename_i hnil
        rw [hnil]
        rfl
      · have hthere := hdiffers.item (item?_of_read h) (Or.inr not_false)
        rw [hmissing] at hthere
        cases hthere
    · split at h
      · rcases h with hempty | hnone
        · have hcheck := (locate_eq_ok_iff.mp (read_eq_ok_iff.mp hread)).1
          exact absurd hcheck (checkPath_ne_ok hempty)
        · rw [hnone] at hfile
          cases hfile
      · have hthere := item?_of_read h
        rw [hfile] at hthere
        cases hthere
        rfl
  have hline : String.join [line ++ "\n"] = line ++ "\n" := by simp [String.join]
  rw [LogHolds, if_neg (by simp), List.map_append, String.join_append, List.map_singleton, hline,
    Text.Utf8.encode_append (String.join _), ← hholds, hread]

end Store.LogHolds

namespace CheckStep

variable {step : CheckStep}

/-- What the check of a step comes to on a store. -/
def result (step : CheckStep) (s : Store) (dataDir childTable : Path) : Except TableError CheckOutcome :=
  ((Check.columns childTable step.childColumn (dataDir.join step.parentTable) step.parentColumn
    step.separator).run.run s).1

theorem run_eq (step : CheckStep) (s : Store) (dataDir childTable : Path) :
    (step.run dataDir childTable).run s = (step.failure? (step.result s dataDir childTable), s) := by
  obtain ⟨r, hr, _⟩ := Check.columns_run s childTable (dataDir.join step.parentTable) step.childColumn
    step.parentColumn step.separator
  rw [run, Script.run_bind, result, hr]
  rfl

/-- A check succeeds alike where the same tables can be read. -/
theorem result_eq_ok_congr
    (hchild : ∀ content, m.read childTable = .ok content ↔ s.read childTable = .ok content)
    (hparent : ∀ content, m.read (dataDir.join step.parentTable) = .ok content ↔
      s.read (dataDir.join step.parentTable) = .ok content) (outcome : CheckOutcome) :
    step.result m dataDir childTable = .ok outcome ↔ step.result s dataDir childTable = .ok outcome := by
  obtain ⟨r, hr, hiff⟩ := Check.columns_run s childTable (dataDir.join step.parentTable) step.childColumn
    step.parentColumn step.separator
  obtain ⟨r', hr', hiff'⟩ := Check.columns_run m childTable (dataDir.join step.parentTable) step.childColumn
    step.parentColumn step.separator
  rw [result, result, hr, hr', hiff, hiff']
  simp only [Store.HasColumn, hchild, hparent]

/-- A check comes to the same where reading the tables does. -/
theorem result_congr (hchild : m.read childTable = s.read childTable)
    (hparent : m.read (dataDir.join step.parentTable) = s.read (dataDir.join step.parentTable)) :
    step.result m dataDir childTable = step.result s dataDir childTable := by
  have hcolumn : ∀ p title, m.read p = s.read p → ∃ r,
      (Check.readColumn p title).run.run m = (r, m) ∧ (Check.readColumn p title).run.run s = (r, s) := by
    intro p title hread
    have hrequest : ∀ n : Store, (Task.request (.ofFile p) (.read p) : Task TableError Bytes).run.run n =
        ((n.read p).mapError (.ofFile p), n) := fun _ => rfl
    rw [Check.readColumn, Task.run_bind, Task.run_bind, hrequest, hrequest, hread]
    cases s.read p <;> exact ⟨_, rfl, rfl⟩
  obtain ⟨parent, hm, hs⟩ := hcolumn _ step.parentColumn hparent
  obtain ⟨child, hm', hs'⟩ := hcolumn _ step.childColumn hchild
  rw [result, result, Check.columns, Task.run_bind, Task.run_bind, hm, hs]
  cases parent with
  | error e => rfl
  | ok cells =>
    simp only
    rw [Task.run_bind, Task.run_bind, hm', hs']
    cases child <;> rfl

end CheckStep

namespace CheckTask

variable {step : CheckStep} {f : Option StepFailure}

theorem runStep_returns_iff : (runStep dataDir childTable log step).Returns s f s' ↔
    f = step.failure? (step.result s dataDir childTable) ∧ match f with
      | none => s' = s
      | some failure => ∃ m, (Files.makeParent log).Returns s () m ∧
          (Files.addLine log failure.message).Returns m () s' := by
  rw [runStep, Task.returns_bind_iff]
  simp only [Task.returns_lift_iff, step.run_eq, Prod.mk.injEq]
  constructor
  · rintro ⟨_, _, ⟨rfl, rfl⟩, h⟩
    split at h
    · rename_i hnone
      obtain ⟨rfl, rfl⟩ := Task.returns_pure_iff.mp h
      exact ⟨hnone.symm, rfl⟩
    · rename_i failure hsome
      obtain ⟨_, m, hparent, h⟩ := Task.returns_bind_iff.mp h
      obtain ⟨_, _, hadd, h⟩ := Task.returns_bind_iff.mp h
      obtain ⟨rfl, rfl⟩ := Task.returns_pure_iff.mp h
      exact ⟨hsome.symm, m, hparent, hadd⟩
  · rintro ⟨hf, h⟩
    refine ⟨_, _, ⟨rfl, rfl⟩, ?_⟩
    rw [← hf]
    cases f with
    | none => exact Task.returns_pure_iff.mpr ⟨rfl, h.symm⟩
    | some failure =>
      obtain ⟨m, hparent, hadd⟩ := h
      refine Task.returns_bind_iff.mpr ⟨(), m, hparent, Task.returns_bind_iff.mpr ⟨(), s', hadd, ?_⟩⟩
      exact Task.returns_pure_iff.mpr ⟨rfl, rfl⟩

theorem runStep_differsBy (h : (runStep dataDir childTable log step).Returns s f s') : s.DiffersBy [log] [log] s' := by
  have htouches : (runStep dataDir childTable log step).Touches (· ∈ [log]) fun q => ∃ p ∈ [log], q.OnWayOf p :=
    runStep_touches childTable step List.mem_cons_self fun _ hq => ⟨log, List.mem_cons_self, hq⟩
  exact htouches.differsBy h

/-- What a step leaves, when the log holds the messages of the failures before it. -/
theorem logHolds_runStep (h : s.LogHolds log lines) (hrun : (runStep dataDir childTable log step).Returns s f s') :
    s'.LogHolds log (lines ++ (f.map (·.message)).toList) := by
  obtain ⟨_, hf⟩ := runStep_returns_iff.mp hrun
  cases f with
  | none =>
    rw [hf]
    simpa using h
  | some failure =>
    obtain ⟨m, hparent, hadd⟩ := hf
    exact h.addLine hparent hadd

/-- The step found what its check comes to on some store that differs by the files only. -/
def FoundBy (s : Store) (files : List Path) (dataDir childTable : Path) (step : CheckStep) (f : Option StepFailure) :
    Prop :=
  ∃ n : Store, n.Sound ∧ s.DiffersBy files files n ∧ f = step.failure? (step.result n dataDir childTable)

/-- The steps of a task, one after the other, from a log that is missing. -/
theorem runStep_mapM {steps : List CheckStep} {found : List (Option StepFailure)} (hs : s.Sound) (h : s.Absent log)
    (hrun : (steps.mapM (runStep dataDir childTable log)).Returns s found s') :
    s.DiffersBy [log] [log] s' ∧ s'.LogHolds log ((found.filterMap id).map (·.message)) ∧
      List.Forall₂ (FoundBy s [log] dataDir childTable) steps found := by
  have hall : s'.Sound ∧ s.DiffersBy [log] [log] s' ∧ s'.LogHolds log ((found.filterMap id).map (·.message)) ∧
      List.Forall₂ (FoundBy s [log] dataDir childTable) steps found := by
    apply Task.mapM_invariant (P := fun done outs n => n.Sound ∧ s.DiffersBy [log] [log] n ∧
      n.LogHolds log ((outs.filterMap id).map (·.message)) ∧
      List.Forall₂ (FoundBy s [log] dataDir childTable) done outs) hrun
    · exact ⟨hs, .refl s, .of_absent h, .nil⟩
    · rintro done step rest outs n f n' - ⟨hn, hd, hlog, hall⟩ hone
      refine ⟨hn.returns hone, hd.trans (runStep_differsBy hone), ?_, ?_⟩
      · have hnext := logHolds_runStep hlog hone
        rw [List.filterMap_append, List.map_append]
        cases f <;> exact hnext
      · obtain ⟨hf, _⟩ := runStep_returns_iff.mp hone
        exact List.rel_append hall (.cons ⟨n, hn, hd, hf⟩ .nil)
  exact hall.2

/-- What a task reports, given its failures. -/
def outcome (t : CheckTask) (failures : List StepFailure) : TaskOutcome where
  name := t.name
  childTable := t.childTable
  steps := t.steps.length
  failures := failures
  errorLog := t.errorLog
  successLog := t.successLog

/-- The run of a task, taken apart. -/
theorem run_returns_iff {t : CheckTask} {o : TaskOutcome} : (t.run dataDir).Returns s o s' ↔
    ∃ s₁ s₂ s₃ found, (Files.removeIfThere (dataDir.join t.errorLog)).Returns s () s₁ ∧
      (Files.removeIfThere (dataDir.join t.successLog)).Returns s₁ () s₂ ∧
      (t.steps.mapM (runStep dataDir (dataDir.join t.childTable) (dataDir.join t.errorLog))).Returns s₂ found s₃ ∧
      o = t.outcome (found.filterMap id) ∧
      if found.filterMap id = [] then
        ∃ m, (Files.makeParent (dataDir.join t.successLog)).Returns s₃ () m ∧
          (Files.writeText (dataDir.join t.successLog) "").Returns m () s'
      else s' = s₃ := by
  simp only [run, Task.returns_bind_iff]
  constructor
  · rintro ⟨_, s₁, herror, _, s₂, hsuccess, found, s₃, hsteps, h⟩
    refine ⟨s₁, s₂, s₃, found, herror, hsuccess, hsteps, ?_⟩
    split at h
    · rename_i hnone
      simp only [Task.returns_bind_iff, Task.returns_pure_iff] at h
      obtain ⟨_, m, hparent, _, _, hwrite, rfl, rfl⟩ := h
      rw [if_pos (List.isEmpty_iff.mp hnone)]
      exact ⟨rfl, m, hparent, hwrite⟩
    · rename_i hsome
      obtain ⟨rfl, rfl⟩ := Task.returns_pure_iff.mp h
      rw [if_neg fun hnil => hsome (List.isEmpty_iff.mpr hnil)]
      exact ⟨rfl, rfl⟩
  · rintro ⟨s₁, s₂, s₃, found, herror, hsuccess, hsteps, rfl, h⟩
    refine ⟨(), s₁, herror, (), s₂, hsuccess, found, s₃, hsteps, ?_⟩
    by_cases hnil : found.filterMap id = []
    · rw [if_pos hnil] at h
      obtain ⟨m, hparent, hwrite⟩ := h
      simp only [hnil, List.isEmpty_nil, if_true, Task.returns_bind_iff, Task.returns_pure_iff]
      exact ⟨(), m, hparent, (), s', hwrite, rfl, rfl⟩
    · rw [if_neg hnil] at h
      have hsome : (found.filterMap id).isEmpty = false := by simpa using hnil
      simp only [hsome, Bool.false_eq_true, if_false, Task.returns_pure_iff]
      exact ⟨rfl, h.symm⟩

/-- What the logs of a task hold after it, given its failures. -/
structure Leaves (t : CheckTask) (dataDir : Path) (failures : List StepFailure) (s : Store) : Prop where
  errorLog : s.LogHolds (dataDir.join t.errorLog) (failures.map (·.message))
  successLog : if failures = [] then s.read (dataDir.join t.successLog) = .ok []
    else s.Absent (dataDir.join t.successLog)

theorem Leaves.differsBy {t : CheckTask} {failures : List StepFailure} {files ways : List Path}
    (h : t.Leaves dataDir failures s) (hd : s.DiffersBy files ways m)
    (hlogs : ∀ log ∈ t.logs dataDir, s.Spares files ways log) : t.Leaves dataDir failures m := by
  have hsuccess := hlogs _ (t.successLog_mem_logs dataDir)
  refine ⟨h.errorLog.differsBy hd (hlogs _ (t.errorLog_mem_logs dataDir)), ?_⟩
  have hheld := h.successLog
  split at hheld
  · rename_i hnil
    rw [if_pos hnil]
    exact hd.read hsuccess hheld
  · rename_i hne
    rw [if_neg hne]
    exact hd.absent hsuccess hheld

/-- The logs of a task, which lie apart. -/
structure LogsApart (t : CheckTask) (s : Store) (dataDir : Path) : Prop where
  errorLog : s.Grounded (dataDir.join t.errorLog)
  successLog : s.Grounded (dataDir.join t.successLog)
  apart : s.Apart (dataDir.join t.errorLog) (dataDir.join t.successLog)

namespace LogsApart

variable {t : CheckTask} (h : t.LogsApart s dataDir)
include h

theorem spares_errorLog : s.Spares [dataDir.join t.successLog] [dataDir.join t.successLog] (dataDir.join t.errorLog) :=
  .of_apart h.errorLog (by simpa using ⟨h.successLog, h.apart.symm⟩)

theorem spares_successLog : s.Spares [dataDir.join t.errorLog] [dataDir.join t.errorLog] (dataDir.join t.successLog) :=
  .of_apart h.successLog (by simpa using ⟨h.errorLog, h.apart⟩)

theorem differsBy {files ways : List Path} (hd : s.DiffersBy files ways m) : t.LogsApart m dataDir :=
  ⟨hd.grounded h.errorLog, hd.grounded h.successLog, (Store.apart_congr hd.here).mpr h.apart⟩

end LogsApart

/-- A task begins without logs. -/
theorem absent_of_removals {t : CheckTask} (hs : s.Sound) (ht : t.LogsApart s dataDir)
    (herror : (Files.removeIfThere (dataDir.join t.errorLog)).Returns s () m)
    (hsuccess : (Files.removeIfThere (dataDir.join t.successLog)).Returns m () s') :
    s'.Sound ∧ s.DiffersBy (t.logs dataDir) (t.logs dataDir) s' ∧ ∀ log ∈ t.logs dataDir, s'.Absent log := by
  have hd := Files.removeIfThere_differsBy herror
  have hd' := Files.removeIfThere_differsBy hsuccess
  have hm := hs.returns herror
  have hnoError : s'.Absent (dataDir.join t.errorLog) :=
    hd'.absent (ht.spares_errorLog.differsBy hd) (Files.absent_of_removeIfThere hs ht.errorLog herror)
  have hnoSuccess : s'.Absent (dataDir.join t.successLog) :=
    Files.absent_of_removeIfThere hm (hd.grounded ht.successLog) hsuccess
  refine ⟨hm.returns hsuccess, ?_, by simp [logs, hnoError, hnoSuccess]⟩
  have hsub := t.errorLog_subset_logs dataDir
  have hsub' := t.successLog_subset_logs dataDir
  exact (hd.mono hsub hsub).trans (hd'.mono hsub' hsub')

/-- What a task leaves in its logs are the failures that its steps have found. -/
theorem run_leaves {t : CheckTask} {o : TaskOutcome} (hs : s.Sound) (ht : t.LogsApart s dataDir)
    (hrun : (t.run dataDir).Returns s o s') : ∃ found, o = t.outcome (found.filterMap id) ∧
      t.Leaves dataDir (found.filterMap id) s' ∧
      List.Forall₂ (FoundBy s (t.logs dataDir) dataDir (dataDir.join t.childTable)) t.steps found := by
  obtain ⟨s₁, s₂, s₃, found, herror, hsuccess, hsteps, ho, hend⟩ := run_returns_iff.mp hrun
  obtain ⟨hs₂, hd₂, hnone⟩ := absent_of_removals hs ht herror hsuccess
  have ht₂ := ht.differsBy hd₂
  obtain ⟨hd₃, hheld, hfound⟩ := runStep_mapM hs₂ (hnone _ (t.errorLog_mem_logs dataDir)) hsteps
  refine ⟨found, ho, ?_, ?_⟩
  · split at hend
    · rename_i hnil
      obtain ⟨m, hparent, hwrite⟩ := hend
      have hd₄ : s₃.DiffersBy _ _ s' := (Files.makeParent_differsBy hparent).trans (Files.writeText_differsBy hwrite)
      refine ⟨hheld.differsBy hd₄ (ht₂.spares_errorLog.differsBy hd₃), ?_⟩
      rw [if_pos hnil]
      exact Files.read_writeText hwrite
    · rename_i hne
      subst hend
      refine ⟨hheld, ?_⟩
      rw [if_neg hne]
      exact hd₃.absent ht₂.spares_successLog (hnone _ (t.successLog_mem_logs dataDir))
  · apply hfound.imp
    rintro step f ⟨n, hn, hd, hf⟩
    have hsub := t.errorLog_subset_logs dataDir
    exact ⟨n, hn, hd₂.trans (hd.mono hsub hsub), hf⟩

theorem run_differsBy {t : CheckTask} {o : TaskOutcome} (h : (t.run dataDir).Returns s o s') :
    s.DiffersBy (t.logs dataDir) (t.logs dataDir) s' := by
  have htouches : (t.run dataDir).Touches (· ∈ t.logs dataDir) fun q => ∃ p ∈ t.logs dataDir, q.OnWayOf p :=
    run_touches (fun _ hlog => hlog) fun log hlog _ hq => ⟨log, hlog, hq⟩
  exact htouches.differsBy h

end CheckTask

end SchemaTables
