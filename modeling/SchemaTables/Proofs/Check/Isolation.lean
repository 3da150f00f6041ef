import SchemaTables.Proofs.Check.Ready
import SchemaTables.Proofs.Text.Search

/-!
What a run reports, and what it leaves in its logs. Where the logs of the tasks lie apart from each other and
from the tables, no task shows in what another finds or leaves: a report tells of each task what its checks
come to on the tables as they were before the run, and the tasks may run in any order.
-/

namespace SchemaTables

set_option autoImplicit false

variable {s s' m : Store} {dataDir childTable : Path} {t : CheckTask} {plan : CheckPlan}

/-- What a step has to say when its check on the store passes, finds values missing or fails. -/
def CheckStep.Finds (step : CheckStep) (s : Store) (dataDir childTable : Path) : Option StepFailure → Prop
  | none => ∃ outcome, step.result s dataDir childTable = .ok outcome ∧ outcome.missing = []
  | some f =>
    (∃ outcome, step.result s dataDir childTable = .ok outcome ∧ outcome.missing ≠ [] ∧
      f = step.failure outcome.missing outcome.text) ∨
    (∀ outcome, step.result s dataDir childTable ≠ .ok outcome) ∧ ∃ e : TableError, f = step.failure [] e.message

theorem CheckStep.finds_of_result {step : CheckStep} {r : Except TableError CheckOutcome}
    (h : ∀ outcome, r = .ok outcome ↔ step.result s dataDir childTable = .ok outcome) :
    step.Finds s dataDir childTable (step.failure? r) := by
  cases r with
  | error e =>
    refine Or.inr ⟨?_, e, rfl⟩
    intro outcome hok
    cases (h outcome).mpr hok
  | ok outcome =>
    have hok := (h outcome).mp rfl
    unfold failure?
    simp only
    split
    · rename_i hpassed
      exact ⟨outcome, hok, List.isEmpty_iff.mp hpassed⟩
    · rename_i hmissing
      refine Or.inl ⟨outcome, hok, ?_, rfl⟩
      intro hnil
      exact hmissing (List.isEmpty_iff.mpr hnil)

/-- What a run between two stores reports of a task, and leaves in its logs. -/
structure CheckTask.Reports (t : CheckTask) (dataDir : Path) (s s' : Store) (o : TaskOutcome) : Prop where
  task : o = t.outcome o.failures
  failures : ∃ found, List.Forall₂ (fun step f => step.Finds s dataDir (dataDir.join t.childTable) f) t.steps found ∧
    o.failures = found.filterMap id
  errorLog_iff : s'.isThere (dataDir.join t.errorLog) = true ↔ o.failures ≠ []
  errorLog : o.failures ≠ [] → s'.read (dataDir.join t.errorLog) =
    .ok (Text.Utf8.encode (String.join (o.failures.map fun f => f.message ++ "\n")))
  successLog_iff : s'.isThere (dataDir.join t.successLog) = true ↔ o.failures = []
  successLog : o.failures = [] → s'.read (dataDir.join t.successLog) = .ok []

/-- The task has found what it could on stores that differ by the files, and its logs hold that. -/
def CheckTask.Settles (t : CheckTask) (dataDir : Path) (s : Store) (files : List Path) (o : TaskOutcome) (n : Store) :
    Prop :=
  ∃ found, o = t.outcome (found.filterMap id) ∧ t.Leaves dataDir (found.filterMap id) n ∧
    List.Forall₂ (CheckTask.FoundBy s files dataDir (dataDir.join t.childTable)) t.steps found

theorem Store.isThere_of_read {p : Path} {content : Bytes} (h : s.read p = .ok content) : s.isThere p = true := by
  rw [isThere, read_eq_ok_iff.mp h]
  rfl

theorem CheckTask.Settles.reports {files : List Path} {o : TaskOutcome} (h : t.Settles dataDir m files o s')
    (hread : ∀ n : Store, m.DiffersBy files files n → ∀ table ∈ t.tables dataDir, ∀ content,
      n.read table = .ok content ↔ s.read table = .ok content) : t.Reports dataDir s s' o := by
  obtain ⟨found, rfl, hleaves, hfound⟩ := h
  have herror := hleaves.errorLog
  have hsuccess := hleaves.successLog
  simp only [Store.LogHolds, List.map_eq_nil_iff, List.map_map] at herror
  have hfinds : List.Forall₂ (fun step f => step.Finds s dataDir (dataDir.join t.childTable) f) t.steps found := by
    apply hfound.imp_of_mem
    rintro step hstep f ⟨n, _, hd, rfl⟩
    apply CheckStep.finds_of_result
    intro outcome
    apply CheckStep.result_eq_ok_congr
    · exact hread n hd _ List.mem_cons_self
    · exact hread n hd _ (List.mem_cons_of_mem _ (List.mem_map_of_mem hstep))
  by_cases hnil : found.filterMap id = []
  · rw [if_pos hnil] at herror hsuccess
    have hnone := Bool.eq_false_iff.mp herror.isThere
    have hthere := Store.isThere_of_read hsuccess
    exact ⟨rfl, ⟨found, hfinds, rfl⟩, iff_of_false hnone (not_not_intro hnil), fun hne => absurd hnil hne,
      iff_of_true hthere hnil, fun _ => hsuccess⟩
  · rw [if_neg hnil] at herror hsuccess
    have hthere := Store.isThere_of_read herror
    have hnone := Bool.eq_false_iff.mp hsuccess.isThere
    exact ⟨rfl, ⟨found, hfinds, rfl⟩, iff_of_true hthere hnil, fun _ => herror,
      iff_of_false hnone hnil, fun hne => absurd hne hnil⟩

namespace CheckPlan

theorem logs_perm {tasks : List CheckTask} (h : tasks.Perm plan.tasks) (dataDir : Path) :
    ({ plan with tasks := tasks }.logs dataDir).Perm (plan.logs dataDir) := h.flatMap_right _

theorem tables_perm {tasks : List CheckTask} (h : tasks.Perm plan.tasks) (dataDir : Path) :
    ({ plan with tasks := tasks }.tables dataDir).Perm (plan.tables dataDir) := h.flatMap_right _

theorem logs_subset (ht : t ∈ plan.tasks) : t.logs dataDir ⊆ plan.logs dataDir :=
  fun _ hlog => List.mem_flatMap.mpr ⟨t, ht, hlog⟩

/-- The logs of the tasks lie apart, from each other and from the tables. -/
structure Separated (plan : CheckPlan) (s : Store) (dataDir : Path) : Prop where
  logs : (plan.logs dataDir).Pairwise s.Apart
  tables : ∀ log ∈ plan.logs dataDir, ∀ table ∈ plan.tables dataDir, s.Apart log table
  grounded : ∀ p ∈ plan.logs dataDir ++ plan.tables dataDir, s.Grounded p

namespace Separated

variable {done rest : List CheckTask} (h : plan.Separated s dataDir)
include h

theorem differsBy {files ways : List Path} (hd : s.DiffersBy files ways m) : plan.Separated m dataDir := by
  refine ⟨?_, ?_, ?_⟩
  · exact h.logs.imp fun hapart => (Store.apart_congr hd.here).mpr hapart
  · intro log hlog table htable
    exact (Store.apart_congr hd.here).mpr (h.tables log hlog table htable)
  · intro p hp
    exact hd.grounded (h.grounded p hp)

theorem perm {tasks : List CheckTask} (hperm : tasks.Perm plan.tasks) :
    { plan with tasks := tasks }.Separated s dataDir := by
  have hlogs := logs_perm hperm dataDir
  have htables := tables_perm hperm dataDir
  refine ⟨?_, ?_, ?_⟩
  · exact (hlogs.pairwise_iff fun hapart => hapart.symm).mpr h.logs
  · intro log hlog table htable
    exact h.tables log (hlogs.subset hlog) table (htables.subset htable)
  · intro p hp
    exact h.grounded p ((hlogs.append htables).subset hp)

theorem grounded_log {log : Path} (hlog : log ∈ plan.logs dataDir) : s.Grounded log :=
  h.grounded log (List.mem_append_left _ hlog)

theorem grounded_table (ht : t ∈ plan.tasks) {table : Path} (htable : table ∈ t.tables dataDir) : s.Grounded table :=
  h.grounded table (List.mem_append_right _ (List.mem_flatMap.mpr ⟨t, ht, htable⟩))

theorem spares_table (ht : t ∈ plan.tasks) {table : Path} (htable : table ∈ t.tables dataDir) :
    s.Spares (plan.logs dataDir) (plan.logs dataDir) table := by
  have hmem : table ∈ plan.tables dataDir := List.mem_flatMap.mpr ⟨t, ht, htable⟩
  apply Store.Spares.of_apart (h.grounded_table ht htable)
  intro log hlog
  exact ⟨h.grounded_log hlog, h.tables log hlog table hmem⟩

theorem logsApart (ht : t ∈ plan.tasks) : t.LogsApart s dataDir := by
  have hmem : t.logs dataDir ⊆ plan.logs dataDir := logs_subset ht
  have hpair := (List.pairwise_flatMap.mp h.logs).1 t ht
  rw [CheckTask.logs, List.pairwise_pair] at hpair
  exact ⟨h.grounded_log (hmem (t.errorLog_mem_logs dataDir)), h.grounded_log (hmem (t.successLog_mem_logs dataDir)), hpair⟩

section Order
variable (hl : plan.tasks = done ++ t :: rest)
include hl

theorem apart_of_done {log log' : Path} (hlog' : log' ∈ done.flatMap (·.logs dataDir)) (hlog : log ∈ t.logs dataDir) :
    s.Apart log' log := by
  have hpairs := (List.pairwise_flatMap.mp h.logs).2
  rw [hl, List.pairwise_append] at hpairs
  obtain ⟨t', ht', hlog'⟩ := List.mem_flatMap.mp hlog'
  exact hpairs.2.2 t' ht' t List.mem_cons_self log' hlog' log hlog

theorem grounded_of_done {log : Path} (hlog : log ∈ done.flatMap (·.logs dataDir)) : s.Grounded log := by
  apply h.grounded_log
  have hmem : log ∈ plan.tasks.flatMap (·.logs dataDir) := by
    rw [hl, List.flatMap_append]
    exact List.mem_append_left _ hlog
  exact hmem

/-- The tasks before do not show at the logs of a task. -/
theorem spares_log {log : Path} (hlog : log ∈ t.logs dataDir) :
    s.Spares (done.flatMap (·.logs dataDir)) (done.flatMap (·.logs dataDir)) log := by
  have hmem : log ∈ plan.logs dataDir := List.mem_flatMap.mpr ⟨t, by simp [hl], hlog⟩
  apply Store.Spares.of_apart (h.grounded_log hmem)
  intro log' hlog'
  exact ⟨h.grounded_of_done hl hlog', h.apart_of_done hl hlog' hlog⟩

/-- A task does not show at the logs of those before it. -/
theorem spares_done {log' : Path} (hlog' : log' ∈ done.flatMap (·.logs dataDir)) :
    s.Spares (t.logs dataDir) (t.logs dataDir) log' := by
  apply Store.Spares.of_apart (h.grounded_of_done hl hlog')
  intro log hlog
  have hmem : log ∈ plan.logs dataDir := List.mem_flatMap.mpr ⟨t, by simp [hl], hlog⟩
  exact ⟨h.grounded_log hmem, (h.apart_of_done hl hlog' hlog).symm⟩

end Order

end Separated

/-- The tasks of a plan, one after the other: each leaves in its logs what its steps have found, and the
logs stay as they are. -/
theorem mapM_run_settles {outs : List TaskOutcome} (hs : s.Sound) (h : plan.Separated s dataDir)
    (hrun : (plan.tasks.mapM fun t : CheckTask => t.run dataDir).Returns s outs s') :
    List.Forall₂ (fun t o => t.Settles dataDir s (plan.logs dataDir) o s') plan.tasks outs := by
  have hall : s'.Sound ∧ s.DiffersBy (plan.logs dataDir) (plan.logs dataDir) s' ∧
      List.Forall₂ (fun t o => t.Settles dataDir s (plan.logs dataDir) o s') plan.tasks outs := by
    -- The settled tasks are said of the store that comes last, so each new task has to spare their logs.
    apply Task.mapM_invariant (P := fun done outs n => n.Sound ∧ s.DiffersBy (plan.logs dataDir) (plan.logs dataDir) n ∧
      List.Forall₂ (fun t o => t.Settles dataDir s (plan.logs dataDir) o n) done outs) hrun
    · exact ⟨hs, .refl s, .nil⟩
    · rintro done t rest outs n o n' hl ⟨hn, hd, hall⟩ hone
      have ht : t ∈ plan.tasks := by simp [hl]
      have hsub : t.logs dataDir ⊆ plan.logs dataDir := logs_subset ht
      have hd' := CheckTask.run_differsBy hone
      have hsep := h.differsBy hd
      obtain ⟨found, ho, hleaves, hfound⟩ := CheckTask.run_leaves hn (hsep.logsApart ht) hone
      have hlast : t.Settles dataDir s (plan.logs dataDir) o n' := by
        refine ⟨found, ho, hleaves, ?_⟩
        apply hfound.imp
        rintro step f ⟨k, hk, hdk, hf⟩
        exact ⟨k, hk, hd.trans (hdk.mono hsub hsub), hf⟩
      refine ⟨hn.returns hone, hd.trans (hd'.mono hsub hsub), List.rel_append ?_ (.cons hlast .nil)⟩
      apply hall.imp_of_mem
      rintro t' ht' o' ⟨found', ho', hleaves', hfound'⟩
      refine ⟨found', ho', hleaves'.differsBy hd' ?_, hfound'⟩
      intro log hlog
      exact hsep.spares_done hl (List.mem_flatMap.mpr ⟨t', ht', hlog⟩)
  exact hall.2.2

theorem differsBy_concat {done : List CheckTask} {n : Store} {o : TaskOutcome}
    (hd : s.DiffersBy (done.flatMap (·.logs dataDir)) (done.flatMap (·.logs dataDir)) n)
    (hone : (t.run dataDir).Returns n o s') :
    s.DiffersBy ((done ++ [t]).flatMap (·.logs dataDir)) ((done ++ [t]).flatMap (·.logs dataDir)) s' := by
  have hd' := CheckTask.run_differsBy hone
  rw [List.flatMap_append, List.flatMap_singleton]
  have hleft := List.subset_append_left (done.flatMap (·.logs dataDir)) (t.logs dataDir)
  have hright := List.subset_append_right (done.flatMap (·.logs dataDir)) (t.logs dataDir)
  exact (hd.mono hleft hleft).trans (hd'.mono hright hright)

theorem short_log (hshort : ∀ p ∈ plan.logs dataDir ++ plan.tables dataDir, Store.Short p) (ht : t ∈ plan.tasks)
    {log : Path} (hlog : log ∈ t.logs dataDir) : Store.Short log :=
  hshort log (List.mem_append_left _ (logs_subset ht hlog))

section Turns
variable {done rest : List CheckTask} {outs : List TaskOutcome} {n : Store} (h : plan.Separated s dataDir)
  (hshort : ∀ p ∈ plan.logs dataDir ++ plan.tables dataDir, Store.Short p)
include h hshort

theorem undisturbed_tables {files : List Path} (hfiles : files ⊆ plan.logs dataDir) (ht : t ∈ plan.tasks) :
    s.Undisturbed files (t.tables dataDir) := by
  intro table htable
  refine ⟨(h.spares_table ht htable).mono hfiles hfiles, hshort table (List.mem_append_right _ ?_)⟩
  exact List.mem_flatMap.mpr ⟨t, ht, htable⟩

/-- When it is the turn of a task it is as ready as it was, and has the same failures. -/
theorem turn_congr (hl : plan.tasks = done ++ t :: rest) (hs : s.Sound) (hn : n.Sound)
    (hd : s.DiffersBy (done.flatMap (·.logs dataDir)) (done.flatMap (·.logs dataDir)) n) :
    t.failures n dataDir = t.failures s dataDir ∧ (t.Ready n dataDir ↔ t.Ready s dataDir) := by
  have ht : t ∈ plan.tasks := by simp [hl]
  have hfiles : done.flatMap (·.logs dataDir) ⊆ plan.logs dataDir := by
    intro log hlog
    obtain ⟨t', ht', hlog⟩ := List.mem_flatMap.mp hlog
    exact logs_subset (by simp [hl, ht']) hlog
  have htables := undisturbed_tables h hshort hfiles ht
  have hlogs : s.Undisturbed (done.flatMap (·.logs dataDir)) (t.logs dataDir) := fun log hlog =>
    ⟨h.spares_log hl hlog, short_log hshort ht hlog⟩
  exact ⟨CheckTask.failures_eq hs hn hd htables, CheckTask.ready_iff hs hn hd htables hlogs⟩

/-- Each of the tasks that have run was ready before the first. -/
theorem ready_of_mapM_run (hs : s.Sound) (hrun : (plan.tasks.mapM fun t : CheckTask => t.run dataDir).Returns s outs s') :
    outs = plan.tasks.map (fun t => t.outcome (t.failures s dataDir)) ∧ ∀ t ∈ plan.tasks, t.Ready s dataDir := by
  have hall : s'.Sound ∧ s.DiffersBy (plan.tasks.flatMap (·.logs dataDir)) (plan.tasks.flatMap (·.logs dataDir)) s' ∧
      outs = plan.tasks.map (fun t => t.outcome (t.failures s dataDir)) ∧ ∀ t ∈ plan.tasks, t.Ready s dataDir := by
    apply Task.mapM_invariant (P := fun done outs n => n.Sound ∧
      s.DiffersBy (done.flatMap (·.logs dataDir)) (done.flatMap (·.logs dataDir)) n ∧
      outs = done.map (fun t => t.outcome (t.failures s dataDir)) ∧ ∀ t ∈ done, t.Ready s dataDir) hrun
    · exact ⟨hs, .refl s, rfl, by simp⟩
    · rintro done t rest outs n o n' hl ⟨hn, hd, rfl, hready⟩ hone
      have ht : t ∈ plan.tasks := by simp [hl]
      have hsep : plan.Separated n dataDir := h.differsBy hd
      obtain ⟨hfailures, hiff⟩ := turn_congr h hshort hl hs hn hd
      have htables := undisturbed_tables hsep hshort (logs_subset ht) ht
      obtain ⟨hready', ho⟩ := CheckTask.ready_of_returns hn (hsep.logsApart ht) htables
        (fun log hlog => short_log hshort ht hlog) hone
      refine ⟨hn.returns hone, differsBy_concat hd hone, ?_, ?_⟩
      · rw [ho, hfailures, List.map_append]
        rfl
      · intro t' ht'
        rcases List.mem_append.mp ht' with hdone | hlast
        · exact hready t' hdone
        · rw [List.mem_singleton.mp hlast]
          exact hiff.mp hready'
  exact hall.2.2

/-- Tasks that are ready run in their order. -/
theorem exists_mapM_run (hs : s.Sound) (hready : ∀ t ∈ plan.tasks, t.Ready s dataDir) :
    ∃ s', (plan.tasks.mapM fun t : CheckTask => t.run dataDir).Returns s
      (plan.tasks.map fun t => t.outcome (t.failures s dataDir)) s' := by
  apply Task.exists_mapM_returns (P := fun done n => n.Sound ∧
    s.DiffersBy (done.flatMap (·.logs dataDir)) (done.flatMap (·.logs dataDir)) n)
  · exact ⟨hs, .refl s⟩
  · rintro done t rest n hl ⟨hn, hd⟩
    have ht : t ∈ plan.tasks := by simp [hl]
    have hsep : plan.Separated n dataDir := h.differsBy hd
    obtain ⟨hfailures, hiff⟩ := turn_congr h hshort hl hs hn hd
    have htables := undisturbed_tables hsep hshort (logs_subset ht) ht
    obtain ⟨n', hone⟩ := (hiff.mpr (hready t ht)).exists_returns hn (hsep.logsApart ht) htables
      fun log hlog => short_log hshort ht hlog
    refine ⟨n', by rw [← hfailures]; exact hone, hn.returns hone, differsBy_concat hd hone⟩

end Turns

/-- A run makes the directory of the logs, and then it runs the tasks. -/
theorem run_returns_iff {runId : String} {o : PlanOutcome} : (plan.run dataDir runId).Returns s o s' ↔
    ∃ m outs, (Files.makeDirectories (dataDir.join plan.validationDir)).Returns s () m ∧
      (plan.tasks.mapM fun t : CheckTask => t.run dataDir).Returns m outs s' ∧ o = ⟨runId, outs, 0⟩ := by
  have hclock : ∀ {n n' : Store} {ms : Nat}, (Task.elapsed : Task FileError Nat).Returns n ms n' ↔ ms = 0 ∧ n' = n := by
    intro n n' ms
    have hrun : (Task.elapsed : Task FileError Nat).run.run n = (.ok 0, n) := rfl
    rw [Task.Returns, hrun, Prod.mk.injEq, Except.ok.injEq]
    exact and_congr eq_comm eq_comm
  simp only [run, Task.returns_bind_iff, hclock, Task.returns_pure_iff]
  constructor
  · rintro ⟨_, _, ⟨rfl, rfl⟩, _, m, hmade, outs, m', htasks, _, _, ⟨rfl, rfl⟩, rfl, rfl⟩
    exact ⟨m, outs, hmade, htasks, rfl⟩
  · rintro ⟨m, outs, hmade, htasks, rfl⟩
    exact ⟨0, s, ⟨rfl, rfl⟩, (), m, hmade, outs, s', htasks, 0, s', ⟨rfl, rfl⟩, rfl, rfl⟩

/-- A run reports what the checks come to on the tables as they were, whatever the tasks before a task have
done, and the logs tell the same; and in any other order the tasks run as well and report the same. -/
theorem run_isolated {runId : String} {o : PlanOutcome} (hs : s.Sound) (hsep : plan.Separated s dataDir)
    (hrun : (plan.run dataDir runId).Returns s o s') :
    List.Forall₂ (fun t out => t.Reports dataDir s s' out) plan.tasks o.tasks ∧
      ((∀ p ∈ plan.logs dataDir ++ plan.tables dataDir, Store.Short p) →
        ∃ outcome : CheckTask → TaskOutcome, o.tasks = plan.tasks.map outcome ∧
          ∀ tasks : List CheckTask, tasks.Perm plan.tasks → ∃ o' s'',
            ({ plan with tasks := tasks }.run dataDir runId).Returns s o' s'' ∧ o'.tasks = tasks.map outcome) := by
  obtain ⟨m, outs, hmade, htasks, rfl⟩ := run_returns_iff.mp hrun
  have hd : s.DiffersBy [] [dataDir.join plan.validationDir] m := by
    have htouches : (Files.makeDirectories (dataDir.join plan.validationDir)).Touches (· ∈ ([] : List Path))
        fun q => ∃ p ∈ [dataDir.join plan.validationDir], q.OnWayOf p :=
      Files.makeDirectoriesFrom_touches fun q hq => ⟨_, List.mem_cons_self, hq⟩
    exact htouches.differsBy hmade
  have hm := hs.returns hmade
  have hsep' := hsep.differsBy hd
  constructor
  · apply (mapM_run_settles hm hsep' htasks).imp_of_mem
    intro t ht o hsettled
    apply hsettled.reports
    intro n hdn table htable content
    have hspares := hsep'.spares_table ht htable
    have hground := hsep.grounded_table ht htable
    rw [hdn.read_iff hm hspares.grounded hspares.files, hd.read_iff hs hground (by simp)]
  · intro hshort
    obtain ⟨houts, hready⟩ := ready_of_mapM_run hsep' hshort hm htasks
    refine ⟨fun t => t.outcome (t.failures m dataDir), houts, ?_⟩
    intro tasks hperm
    have hready' : ∀ t ∈ tasks, t.Ready m dataDir := fun t ht => hready t (hperm.subset ht)
    have hpaths := (logs_perm hperm dataDir).append (tables_perm hperm dataDir)
    obtain ⟨s'', htasks'⟩ := exists_mapM_run (hsep'.perm hperm) (fun p hp => hshort p (hpaths.subset hp)) hm hready'
    exact ⟨_, s'', run_returns_iff.mpr ⟨m, _, hmade, htasks', rfl⟩, rfl⟩

/-- Two tasks on three tables, of which the first passes and the second finds a value missing. -/
def pair (table errorLog errorLog' : Path) : CheckPlan where
  version := planVersion
  validationDir := ⟨"out"⟩
  tasks := [first, second]
where
  first : CheckTask := ⟨"first", table, [⟨"keys.csv"⟩], errorLog, ⟨"first.ok.log"⟩, [⟨"key", ⟨"keys.csv"⟩, "id", none⟩]⟩
  second : CheckTask :=
    ⟨"second", ⟨"second.csv"⟩, [⟨"keys.csv"⟩], errorLog', ⟨"second.ok.log"⟩, [⟨"key", ⟨"keys.csv"⟩, "id", none⟩]⟩

/-- The tables of the two tasks, and a log from an earlier run. -/
def pairStore : Store where
  items := [(["keys.csv"], .file (Text.Utf8.encode "id\n1\n")), (["first.csv"], .file (Text.Utf8.encode "key\n1\n")),
    (["second.csv"], .file (Text.Utf8.encode "key\n2\n")), (["second.err.log"], .file (Text.Utf8.encode "old\n"))]

theorem run_isolated_pair : ∃ o s',
    ((pair ⟨"first.csv"⟩ ⟨"out/first.err.log"⟩ ⟨"second.err.log"⟩).run ⟨"."⟩ "run").Returns pairStore o s' ∧
      o.passed = false ∧ List.Forall₂ (fun t out => t.Reports ⟨"."⟩ pairStore s' out)
        (pair ⟨"first.csv"⟩ ⟨"out/first.err.log"⟩ ⟨"second.err.log"⟩).tasks o.tasks ∧
      ∃ outcome : CheckTask → TaskOutcome,
        o.tasks = (pair ⟨"first.csv"⟩ ⟨"out/first.err.log"⟩ ⟨"second.err.log"⟩).tasks.map outcome := by
  have hsep : (pair ⟨"first.csv"⟩ ⟨"out/first.err.log"⟩ ⟨"second.err.log"⟩).Separated pairStore ⟨"."⟩ :=
    ⟨by decide +kernel, by decide +kernel, by decide +kernel⟩
  obtain ⟨o, s', hrun, hpassed⟩ := Task.exists_returns (p := fun o : PlanOutcome => !o.passed)
    (t := (pair ⟨"first.csv"⟩ ⟨"out/first.err.log"⟩ ⟨"second.err.log"⟩).run ⟨"."⟩ "run") (s := pairStore)
    (by decide +kernel)
  obtain ⟨hreports, hordered⟩ := run_isolated (by decide +kernel) hsep hrun
  obtain ⟨outcome, htasks, _⟩ := hordered (by decide +kernel)
  exact ⟨o, s', hrun, by simpa using hpassed, hreports, outcome, htasks⟩

/-- A name one byte longer than a name may be. -/
def longName : String := String.ofList (List.replicate 256 'a')

theorem chars_longName : longName.toList = List.replicate 256 'a' := String.toList_ofList

theorem notMem_longName {c : Char} (h : c ≠ 'a') : c ∉ longName.toList := by
  rw [chars_longName]
  exact fun hmem => h (List.eq_of_mem_replicate hmem)

theorem size_longName : longName.utf8ByteSize = 256 := by decide +kernel

theorem ne_longName : longName ≠ "." ∧ longName ≠ ".." := by
  have hsize := size_longName
  constructor
  · intro heq
    rw [heq] at hsize
    cases hsize
  · intro heq
    rw [heq] at hsize
    cases hsize

/-- A log with a name that is too long. -/
def longLog : Path := ⟨"logs/" ++ longName⟩

theorem isAbsolute_longLog : longLog.isAbsolute = false := by
  have hchars : longLog.chars = 'l' :: ("ogs/".toList ++ longName.toList) := String.toList_append
  rw [Path.isAbsolute, hchars]
  rfl

theorem text_longLog : (Path.join ⟨"."⟩ longLog).text = "./logs/" ++ longName := by
  rw [Path.join, if_neg (by simp [isAbsolute_longLog]), if_neg (by decide)]
  exact String.append_assoc.symm

theorem chars_longLog : (Path.join ⟨"."⟩ longLog).chars = "./logs".toList ++ '/' :: longName.toList := by
  have hdir : "./logs/".toList = "./logs".toList ++ ['/'] := by decide +kernel
  rw [Path.chars, text_longLog, String.toList_append, hdir, List.append_assoc, List.singleton_append]

theorem parts_longLog : Store.parts (Path.join ⟨"."⟩ longLog) = [".", "logs", longName] := by
  have hdirs : Text.splitAt '/' "./logs".toList = [".".toList, "logs".toList] := by decide +kernel
  rw [Store.parts, chars_longLog, Text.splitAt_append_cons, Text.splitAt_of_notMem (notMem_longName (by decide)), hdirs,
    chars_longName]
  rfl

theorem checkPath_longLog : Store.checkPath (Path.join ⟨"."⟩ longLog) = .ok () := by
  have hnull : '\x00' ∉ (Path.join ⟨"."⟩ longLog).chars := by
    rw [chars_longLog, List.mem_append, List.mem_cons, not_or, not_or]
    exact ⟨by decide, by decide, notMem_longName (by decide)⟩
  have hsize : (Path.join ⟨"."⟩ longLog).text.utf8ByteSize = 263 := by
    rw [text_longLog, String.utf8ByteSize_append, size_longName]
    rfl
  have hne : (Path.join ⟨"."⟩ longLog).text ≠ "" := by
    intro hempty
    rw [hempty] at hsize
    cases hsize
  rw [Store.checkPath, if_neg (by simpa using hnull), if_neg (by simpa using hne), if_neg (by rw [hsize]; decide)]

/-- The name is looked at in a directory that is there, and only then. -/
theorem locate_longLog (h : s.here = []) : s.locate (Path.join ⟨"."⟩ longLog) =
    match s.item? ["logs"] with
    | some .directory => .error .nameTooLong
    | some (.file _) => .error .notADirectory
    | none => .error .notFound := by
  have hlong : Store.maxName < longName.utf8ByteSize := by rw [size_longName]; decide
  have hnone : longName ≠ "." ∧ longName ≠ ".." := ne_longName
  have hstart : s.start (Path.join ⟨"."⟩ longLog) = [] := by rw [Store.start, h, ite_self]
  have hroot : s.item? [] = some .directory := rfl
  have hlogs : s.follow [] "logs" = if (s.item? ["logs"]).isSome then .ok ["logs"] else .error .notFound := by
    rw [Store.follow, hroot]
    rfl
  have hdot : s.follow [] "." = .ok [] := by
    rw [Store.follow, hroot]
    rfl
  rw [Store.locate, checkPath_longLog, parts_longLog, hstart]
  simp only [List.foldlM_cons, hdot, hlogs, bind, Except.bind]
  cases hitem : s.item? ["logs"] with
  | none => rfl
  | some i => cases i <;> simp [Store.follow, hitem, hlong, hnone]

theorem returns_longLog (hs : s.Sound) (h : s.here = []) (hnone : s.item? ["logs"] = none) :
    (Files.removeIfThere (Path.join ⟨"."⟩ longLog)).Returns s () s := by
  refine (Files.removeIfThere_returns_iff hs).mpr (Or.inr ⟨?_, rfl⟩)
  rw [locate_longLog h, hnone]

theorem not_returns_longLog (hs : s.Sound) (h : s.here = []) (hdir : s.item? ["logs"] = some .directory) :
    ¬ (Files.removeIfThere (Path.join ⟨"."⟩ longLog)).Returns s () s' := by
  rw [Files.removeIfThere_returns_iff hs, locate_longLog h, hdir]
  rintro (⟨⟨_, hl⟩, _⟩ | ⟨hl, _⟩) <;> cases hl

theorem destination_longLog (h : s.here = []) : s.destination (Path.join ⟨"."⟩ longLog) = ["logs", longName] := by
  have hnone : longName ≠ "." ∧ longName ≠ ".." := ne_longName
  rw [Store.destination, parts_longLog, Store.start, h, ite_self]
  simp [Store.walk, hnone]

theorem apart_longLog {p : Path} (h : s.here = []) (hp : s.destination p ∉ [[], ["logs"]])
    (hshort : ∀ part ∈ s.destination p, part.utf8ByteSize ≤ Store.maxName) : s.Apart (Path.join ⟨"."⟩ longLog) p := by
  have hlong : longName ∉ s.destination p := fun hmem => absurd (hshort _ hmem) (by rw [size_longName]; decide)
  rw [Store.Apart, destination_longLog h]
  constructor
  · intro hbelow
    exact hlong (hbelow.subset (by simp))
  · intro habove
    rw [← List.mem_inits] at habove
    change s.destination p ∈ [[], ["logs"], ["logs", longName]] at habove
    rcases List.mem_append.mp (show s.destination p ∈ [[], ["logs"]] ++ [["logs", longName]] from habove) with hdir | hlog
    · exact hp hdir
    · exact hlong (by simp [List.mem_singleton.mp hlog])

theorem grounded_longLog : s.Grounded (Path.join ⟨"."⟩ longLog) := by
  intro qs hqs
  have hup : ".." ∈ [".", "logs", longName] := by
    rw [← parts_longLog]
    exact hqs.subset (by simp)
  simp [ne_longName.2.symm] at hup

theorem separated_longLog : (pair ⟨"first.csv"⟩ longLog ⟨"logs/second.err.log"⟩).Separated pairStore ⟨"."⟩ := by
  let others : List Path := ["first.ok.log", "logs/second.err.log", "second.ok.log"].map fun p => Path.join ⟨"."⟩ ⟨p⟩
  let tables : List Path := ["first.csv", "keys.csv", "second.csv", "keys.csv"].map fun p => Path.join ⟨"."⟩ ⟨p⟩
  have hshort : ∀ p ∈ others ++ tables, pairStore.destination p ∉ [[], ["logs"]] ∧
      ∀ part ∈ pairStore.destination p, part.utf8ByteSize ≤ Store.maxName := by decide +kernel
  have hapart : ∀ p ∈ others ++ tables, pairStore.Apart (Path.join ⟨"."⟩ longLog) p := fun p hp =>
    apart_longLog rfl (hshort p hp).1 (hshort p hp).2
  have hlogs : (Path.join ⟨"."⟩ longLog :: others).Pairwise pairStore.Apart :=
    List.pairwise_cons.mpr ⟨fun p hp => hapart p (List.mem_append_left _ hp), by decide +kernel⟩
  have htables : ∀ log ∈ Path.join ⟨"."⟩ longLog :: others, ∀ table ∈ tables, pairStore.Apart log table :=
    List.forall_mem_cons.mpr ⟨fun p hp => hapart p (List.mem_append_right _ hp), by decide +kernel⟩
  have hgrounded : ∀ p ∈ (Path.join ⟨"."⟩ longLog :: others) ++ tables, pairStore.Grounded p :=
    List.forall_mem_cons.mpr ⟨grounded_longLog, by decide +kernel⟩
  exact ⟨hlogs, htables, hgrounded⟩

section Order
variable {log : Path}

/-- The first task runs while nobody has made the directory of its log. -/
theorem pair_returns (hlog : ∀ n : Store, n.Sound → n.here = [] → n.item? ["logs"] = none →
    (Files.removeIfThere (Path.join ⟨"."⟩ log)).Returns n () n) :
    ∃ o s', ((pair ⟨"first.csv"⟩ log ⟨"logs/second.err.log"⟩).run ⟨"."⟩ "run").Returns pairStore o s' := by
  let n : Store := { pairStore with items := (["out"], .directory) :: pairStore.items }
  have hmade : (Files.makeDirectories (Path.join ⟨"."⟩ ⟨"out"⟩)).Returns pairStore () n := rfl
  have hremoved := hlog n (by decide +kernel) rfl rfl
  have hsuccess : (Files.removeIfThere (Path.join ⟨"."⟩ ⟨"first.ok.log"⟩)).Returns n () n := rfl
  have hsteps : ((pair.first ⟨"first.csv"⟩ log).steps.mapM (CheckTask.runStep ⟨"."⟩ (Path.join ⟨"."⟩ ⟨"first.csv"⟩)
      (Path.join ⟨"."⟩ log))).Returns n [none] n := rfl
  have hparent : (Files.makeParent (Path.join ⟨"."⟩ ⟨"first.ok.log"⟩)).Returns n () n := rfl
  have hwrite : (Files.writeText (Path.join ⟨"."⟩ ⟨"first.ok.log"⟩) "").Returns n ()
    { n with items := (["first.ok.log"], .file []) :: n.items } := rfl
  have hfirst : ((pair.first ⟨"first.csv"⟩ log).run ⟨"."⟩).Returns n ((pair.first ⟨"first.csv"⟩ log).outcome []) _ :=
    CheckTask.run_returns_iff.mpr ⟨_, _, _, _, hremoved, hsuccess, hsteps, rfl, _, hparent, hwrite⟩
  obtain ⟨o, s', hsecond, _⟩ := Task.exists_returns (p := fun _ => true)
    (t := (pair.second ⟨"logs/second.err.log"⟩).run ⟨"."⟩)
    (s := { n with items := (["first.ok.log"], .file []) :: n.items }) (by decide +kernel)
  have htasks : ([pair.first ⟨"first.csv"⟩ log, pair.second ⟨"logs/second.err.log"⟩].mapM fun t : CheckTask =>
      t.run ⟨"."⟩).Returns n [_, o] s' :=
    Task.returns_mapM_cons_iff.mpr ⟨_, _, _, hfirst, Task.returns_mapM_cons_iff.mpr ⟨_, _, _, hsecond,
      Task.returns_pure_iff.mpr ⟨rfl, rfl⟩, rfl⟩, rfl⟩
  exact ⟨_, s', run_returns_iff.mpr ⟨n, _, hmade, htasks, rfl⟩⟩

/-- With the tasks in the other order the directory of the first log is there. -/
theorem pair_reverse_not_returns (hlog : ∀ n n' : Store, n.Sound → n.here = [] → n.item? ["logs"] = some .directory →
    ¬ (Files.removeIfThere (Path.join ⟨"."⟩ log)).Returns n () n') :
    ¬ ∃ o s', ({ pair ⟨"first.csv"⟩ log ⟨"logs/second.err.log"⟩ with
      tasks := [pair.second ⟨"logs/second.err.log"⟩, pair.first ⟨"first.csv"⟩ log] }.run ⟨"."⟩ "run").Returns
        pairStore o s' := by
  rintro ⟨o, s', hrun⟩
  obtain ⟨m, outs, hmade, htasks, _⟩ := run_returns_iff.mp hrun
  obtain ⟨_, n, _, hsecond, hrest, _⟩ := Task.returns_mapM_cons_iff.mp htasks
  obtain ⟨_, _, _, hfirst, _⟩ := Task.returns_mapM_cons_iff.mp hrest
  obtain ⟨_, _, _, _, hremoved, _⟩ := CheckTask.run_returns_iff.mp hfirst
  have hs : pairStore.Sound := by decide +kernel
  have hm : ((Files.makeDirectories (Path.join ⟨"."⟩ ⟨"out"⟩)).run.run pairStore).2 = m := congrArg Prod.snd hmade
  have hn : (((pair.second ⟨"logs/second.err.log"⟩).run ⟨"."⟩).run.run m).2 = n := congrArg Prod.snd hsecond
  have hdir : n.here = [] ∧ n.item? ["logs"] = some .directory := by
    rw [← hn, ← hm]
    decide +kernel
  exact hlog n _ ((hs.returns hmade).returns hsecond) hdir.1 hdir.2 hremoved

end Order

/-- Directories that are new in a run may open the way to a table or a log, and may make a name too long. -/
theorem exists_run_not_isolated :
    (∃ (plan : CheckPlan) (s : Store) (o : PlanOutcome) (s' : Store), s.Sound ∧
      (plan.logs ⟨"."⟩).Pairwise s.Apart ∧ (∀ log ∈ plan.logs ⟨"."⟩, ∀ table ∈ plan.tables ⟨"."⟩, s.Apart log table) ∧
      (plan.run ⟨"."⟩ "run").Returns s o s' ∧
      (∃ reported ∈ plan.tasks.zip o.tasks, reported.2.failures = [] ∧
        ∃ step ∈ reported.1.steps, (step.result s ⟨"."⟩ (Path.join ⟨"."⟩ reported.1.childTable)).isOk = false) ∧
      ∃ reported ∈ plan.tasks.zip o.tasks, reported.2.failures ≠ [] ∧ s'.read (Path.join ⟨"."⟩ reported.1.errorLog) ≠
        .ok (Text.Utf8.encode (String.join (reported.2.failures.map fun f => f.message ++ "\n")))) ∧
    ∃ (plan : CheckPlan) (s : Store), s.Sound ∧ plan.Separated s ⟨"."⟩ ∧
      (∃ o s', (plan.run ⟨"."⟩ "run").Returns s o s') ∧ ∃ tasks : List CheckTask, tasks.Perm plan.tasks ∧
        ¬ ∃ o s', ({ plan with tasks := tasks }.run ⟨"."⟩ "run").Returns s o s' := by
  constructor
  · -- The run makes `out`, by which the first table is found, and makes `logs` only when it has tried to
    -- remove the second log.
    let plan := pair ⟨"out/../first.csv"⟩ ⟨"out/first.err.log"⟩ ⟨"logs/../second.err.log"⟩
    obtain ⟨o, s', hrun, hends⟩ := Task.exists_returns_and (t := plan.run ⟨"."⟩ "run") (s := pairStore)
      (p := fun o s' => decide ((∃ reported ∈ plan.tasks.zip o.tasks, reported.2.failures = [] ∧
          ∃ step ∈ reported.1.steps, (step.result pairStore ⟨"."⟩ (Path.join ⟨"."⟩ reported.1.childTable)).isOk = false) ∧
        ∃ reported ∈ plan.tasks.zip o.tasks, reported.2.failures ≠ [] ∧ s'.read (Path.join ⟨"."⟩ reported.1.errorLog) ≠
          .ok (Text.Utf8.encode (String.join (reported.2.failures.map fun f => f.message ++ "\n"))))) (by decide +kernel)
    obtain ⟨hfirst, hsecond⟩ := of_decide_eq_true hends
    exact ⟨plan, pairStore, o, s', by decide +kernel, by decide +kernel, by decide +kernel, hrun, hfirst, hsecond⟩
  · -- The second task makes `logs`, where the name of the first log is refused.
    refine ⟨_, pairStore, by decide +kernel, separated_longLog, pair_returns fun n => returns_longLog, _,
      List.Perm.swap _ _ [], pair_reverse_not_returns fun n n' => not_returns_longLog⟩

end CheckPlan

end SchemaTables
