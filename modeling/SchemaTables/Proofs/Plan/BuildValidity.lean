import SchemaTables.Proofs.Path.FileName
import SchemaTables.Proofs.Path.Join
import SchemaTables.Proofs.Plan.Build
import SchemaTables.Proofs.Plan.Validity

/-!
When a plan that is made from checks keeps the rules. Tasks have different child tables, and declare exactly the parent
tables of their steps; but logs are named after the stems of the tables, so tables with one stem get the same logs.
-/

namespace SchemaTables

set_option autoImplicit false

variable {validationDir p q : Path} {checks : List ManualCheck}

theorem plain_logName (table : Path) {ending : String} (hlong : 2 < ending.toList.length)
    (hslash : '/' ∉ ending.toList) :
    (Component.name (tableStem table ++ "-csv-list-column-foreign-key" ++ ending)).Plain := by
  apply Component.plain_append _ hlong hslash
  simp [slash_notMem_tableStem]

/-- Logs of one kind are the same for tables with one stem. -/
theorem logPath_same_iff {ending : String} (hlong : 2 < ending.toList.length) (hslash : '/' ∉ ending.toList) :
    (logPath validationDir p ending).Same (logPath validationDir q ending) ↔ tableStem p = tableStem q := by
  rw [logPath, logPath, Path.join_same_iff (plain_logName p hlong hslash) (plain_logName q hlong hslash),
    String.append_left_inj, String.append_left_inj]

theorem errorLogPath_same_iff :
    (errorLogPath validationDir p).Same (errorLogPath validationDir q) ↔ tableStem p = tableStem q :=
  logPath_same_iff (by decide) (by decide)

theorem successLogPath_same_iff :
    (successLogPath validationDir p).Same (successLogPath validationDir q) ↔ tableStem p = tableStem q :=
  logPath_same_iff (by decide) (by decide)

/-- An error log is no success log. -/
theorem errorLogPath_not_same_successLogPath :
    ¬ (errorLogPath validationDir p).Same (successLogPath validationDir q) := by
  rw [errorLogPath, successLogPath, logPath, logPath,
    Path.join_same_iff (plain_logName p (by decide) (by decide)) (plain_logName q (by decide) (by decide))]
  exact Text.append_ne_append (by decide) _ _

theorem tableStem_congr (h : p.Same q) : tableStem p = tableStem q := by
  rw [tableStem, tableStem, Path.fileStem?, Path.fileStem?, Path.fileName?_congr h]

namespace CheckTask

variable {t u : CheckTask}

/-- The logs of the task are named after its child table. -/
def NamesLogs (t : CheckTask) (validationDir : Path) : Prop :=
  t.logPaths = [errorLogPath validationDir t.childTable, successLogPath validationDir t.childTable]

theorem NamesLogs.pairwise (h : t.NamesLogs validationDir) : t.logPaths.Pairwise (¬ ·.Same ·) := by
  rw [h, List.pairwise_pair]
  exact errorLogPath_not_same_successLogPath

/-- The logs of two tasks are apart exactly when the stems of their tables differ. -/
theorem NamesLogs.apart_iff (ht : t.NamesLogs validationDir) (hu : u.NamesLogs validationDir) :
    (∀ x ∈ t.logPaths, ∀ y ∈ u.logPaths, ¬ x.Same y) ↔ tableStem t.childTable ≠ tableStem u.childTable := by
  have hother : ¬ (successLogPath validationDir t.childTable).Same (errorLogPath validationDir u.childTable) :=
    fun h => errorLogPath_not_same_successLogPath h.symm
  rw [ht, hu]
  simp [errorLogPath_same_iff, successLogPath_same_iff, errorLogPath_not_same_successLogPath, hother]

end CheckTask

namespace CheckPlan

variable {t : CheckTask}

theorem namesLogs_of_mem (ht : t ∈ (ofChecks checks validationDir).tasks) : t.NamesLogs validationDir := by
  rw [(mem_tasks_ofChecks ht).2]
  rfl

theorem pairwise_childTables_ofChecks (checks : List ManualCheck) (validationDir : Path) :
    ((ofChecks checks validationDir).tasks.map CheckTask.childTable).Pairwise (¬ ·.Same ·) := by
  have hkeys : (ofChecks checks validationDir).tasks.map CheckTask.childTable =
      (groupChecks checks).map Prod.fst := List.map_map
  rw [hkeys]
  refine (increasing_groupChecks checks).imp ?_
  intro p q hlt hsame
  rw [Path.compare_eq_iff.mpr hsame] at hlt
  cases hlt

theorem covers_of_mem (ht : t ∈ (ofChecks checks validationDir).tasks) : t.Covers checks := by
  obtain ⟨⟨p, group⟩, hgroup, rfl⟩ := List.mem_map.mp ht
  exact CheckTask.ofChecks_covers hgroup

/-- Tables with different paths have different stems, which tells their logs apart. -/
def StemsApart (checks : List ManualCheck) : Prop :=
  ∀ c ∈ checks, ∀ d ∈ checks, ¬ c.childTable.Same d.childTable →
    c.childTable.fileStem?.getD "" ≠ d.childTable.fileStem?.getD ""

theorem pairwise_logs_ofChecks_iff :
    ((ofChecks checks validationDir).tasks.flatMap CheckTask.logPaths).Pairwise (¬ ·.Same ·) ↔ StemsApart checks := by
  rw [List.pairwise_flatMap, and_iff_right fun t ht => (namesLogs_of_mem ht).pairwise]
  constructor
  · intro h c hc d hd htables hstem
    have hnodup : ((ofChecks checks validationDir).tasks.map fun t => tableStem t.childTable).Nodup :=
      List.pairwise_map.mpr (h.imp_of_mem fun ht hu => ((namesLogs_of_mem ht).apart_iff (namesLogs_of_mem hu)).mp)
    obtain ⟨t, ht, htc, _⟩ := exists_task_of_check validationDir hc
    obtain ⟨u, hu, hud, _⟩ := exists_task_of_check validationDir hd
    -- tables with one stem would belong to one task
    have hsame : t = u := by
      apply List.inj_on_of_nodup_map hnodup ht hu
      rw [tableStem_congr htc, tableStem_congr hud]
      exact hstem
    subst hsame
    exact htables (htc.symm.trans hud)
  · intro h
    refine (List.pairwise_map.mp (pairwise_childTables_ofChecks checks validationDir)).imp_of_mem ?_
    intro t u ht hu htables
    obtain ⟨c, hc, htc⟩ := (mem_tasks_ofChecks ht).1
    obtain ⟨d, hd, hud⟩ := (mem_tasks_ofChecks hu).1
    rw [← htc, ← hud] at htables
    apply ((namesLogs_of_mem ht).apart_iff (namesLogs_of_mem hu)).mpr
    rw [← htc, ← hud]
    exact h c hc d hd htables

theorem valid_ofChecks_iff : (ofChecks checks validationDir).Valid ↔
    (∀ c ∈ checks, c.separator ≠ some "") ∧ StemsApart checks := by
  constructor
  · intro h
    refine ⟨fun c hc => ?_, pairwise_logs_ofChecks_iff.mp h.logs⟩
    obtain ⟨t, ht, _, hstep⟩ := exists_task_of_check validationDir hc
    exact h.separators t ht c.step hstep
  · rintro ⟨hseparators, hstems⟩
    refine ⟨pairwise_childTables_ofChecks checks validationDir, pairwise_logs_ofChecks_iff.mpr hstems, ?_, ?_⟩
    · intro t ht step hstep
      obtain ⟨q, hq, hsame⟩ := (covers_of_mem ht).complete step hstep
      exact ⟨q, hq, hsame.symm⟩
    · intro t ht step hstep
      obtain ⟨c, hc, _, rfl⟩ := exists_check_of_step ht hstep
      exact hseparators c hc

/-- A task has a step, for it is made for a check. -/
theorem steps_ne_nil (ht : t ∈ (ofChecks checks validationDir).tasks) : t.steps ≠ [] := by
  obtain ⟨c, hc, hct⟩ := (mem_tasks_ofChecks ht).1
  rw [(covers_of_mem ht).steps, ne_eq, List.map_eq_nil_iff, ← hct]
  exact List.ne_nil_of_mem (List.mem_filter.mpr ⟨hc, decide_eq_true (Path.Same.refl _)⟩)

/-- A task declares only what its steps use. -/
theorem unusedDependencies_of_mem (ht : t ∈ (ofChecks checks validationDir).tasks) : t.unusedDependencies = [] := by
  rw [CheckTask.unusedDependencies, List.filter_eq_nil_iff]
  intro p hp
  have hdeclared := List.mem_reverse.mp (Ordered.mem_of_mem_ofList hp)
  obtain ⟨step, hstep, rfl⟩ := (covers_of_mem ht).parents p hdeclared
  rw [Bool.not_not_eq, List.any_eq_true]
  exact ⟨step, hstep, beq_iff_eq.mpr (Path.compare_eq_iff.mpr (Path.Same.refl _))⟩

/-- There is nothing to warn of in a plan that is made from checks. -/
theorem warnings_ofChecks (checks : List ManualCheck) (validationDir : Path) :
    (ofChecks checks validationDir).review.warnings = [] := by
  have htasks : ∀ i, ∀ t ∈ (ofChecks checks validationDir).tasks, t.warnings i = [] := by
    intro i t ht
    have hsteps : ¬ t.steps.isEmpty = true := by
      rw [List.isEmpty_iff]
      exact steps_ne_nil ht
    rw [CheckTask.warnings, unusedDependencies_of_mem ht, if_neg hsteps]
    rfl
  have hversion : (ofChecks checks validationDir).versionWarnings = [] := if_pos rfl
  rw [review, hversion, List.nil_append, List.flatten_eq_nil_iff]
  intro issues hissues
  obtain ⟨i, hi, rfl⟩ := List.mem_mapIdx.mp hissues
  exact htasks i _ (List.getElem_mem hi)

/-- A plan that is made from checks is in order exactly when no separator is empty and the stems of different tables
differ. -/
theorem ofChecks_in_order_iff (checks : List ManualCheck) (validationDir : Path) :
    ((ofChecks checks validationDir).review.errors = [] ∧ (ofChecks checks validationDir).review.warnings = []) ↔
      (∀ c ∈ checks, c.separator ≠ some "") ∧
      ∀ c ∈ checks, ∀ d ∈ checks, ¬ c.childTable.Same d.childTable →
        c.childTable.fileStem?.getD "" ≠ d.childTable.fileStem?.getD "" := by
  rw [and_iff_left (warnings_ofChecks checks validationDir), errors_eq_nil_iff, valid_ofChecks_iff]
  rfl

-- tables of one name in two directories
example : ((ofChecks [⟨⟨"a/t.csv"⟩, "k", ⟨"p.csv"⟩, "id", none⟩, ⟨⟨"b/t.csv"⟩, "k", ⟨"p.csv"⟩, "id", none⟩]
    ⟨"out"⟩).review.errors.map Issue.path) = ["/tasks/1/error_log", "/tasks/1/success_log"] := by decide +kernel

end CheckPlan

end SchemaTables
