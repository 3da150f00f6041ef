import SchemaTables.Proofs.Check.Logs

/-!
When a task can run. Its logs can be removed or are missing, and there is room for the one that it will
write; then the task runs to its end, and finds what its checks come to before. A task that has run could.
-/

namespace SchemaTables

set_option autoImplicit false

variable {s s' m : Store} {dataDir childTable log : Path} {t : CheckTask} {o : TaskOutcome} {files ways : List Path}

namespace Store

variable {p : Path} {ps : List Path}

/-- The paths lie apart from the files, and no name in them is too long. -/
def Undisturbed (s : Store) (files ps : List Path) : Prop := ∀ p ∈ ps, s.Spares files files p ∧ Short p

/-- The path leads to a file, or to nothing. -/
def Removable (s : Store) (p : Path) : Prop :=
  (∃ content, s.locate p = .ok (s.destination p, .file content)) ∨ s.locate p = .error .notFound

theorem removable_congr (h : m.locate p = s.locate p) (hhere : m.here = s.here) : m.Removable p ↔ s.Removable p := by
  rw [Removable, Removable, h, destination_congr hhere]

theorem removable_of_returns (hs : s.Sound) (h : (Files.removeIfThere p).Returns s () s') : s.Removable p :=
  ((Files.removeIfThere_returns_iff hs).mp h).imp And.left And.left

theorem Removable.exists_returns (h : s.Removable p) (hs : s.Sound) :
    ∃ s', (Files.removeIfThere p).Returns s () s' := by
  rcases h with hfile | hnone
  · exact ⟨_, (Files.removeIfThere_returns_iff hs).mpr (Or.inl ⟨hfile, rfl⟩)⟩
  · exact ⟨_, (Files.removeIfThere_returns_iff hs).mpr (Or.inr ⟨hnone, rfl⟩)⟩

theorem Absent.ne_directory (h : s.Absent p) (hcheck : checkPath p = .ok ()) :
    s.item? (s.destination p) ≠ some .directory := by
  rcases h with hempty | hnone
  · exact absurd hcheck (checkPath_ne_ok hempty)
  · rw [hnone]
    simp

theorem Removable.ne_directory (h : s.Removable p) (hs : s.Sound) (hp : s.Grounded p) (hcheck : checkPath p = .ok ()) :
    s.item? (s.destination p) ≠ some .directory := by
  rcases h with ⟨content, hl⟩ | hl
  · rw [(locate_eq_ok_iff.mp hl).2.2.1]
    simp
  · exact (hs.absent_of_notFound hp hl).ne_directory hcheck

end Store

namespace CheckTask

/-- What the checks of the steps come to on a store. -/
def failures (t : CheckTask) (s : Store) (dataDir : Path) : List StepFailure :=
  t.steps.filterMap fun step => step.failure? (step.result s dataDir (dataDir.join t.childTable))

/-- The log that a task with these failures writes. -/
def written (t : CheckTask) (failures : List StepFailure) : Path :=
  if failures = [] then t.successLog else t.errorLog

/-- The logs of a task can be removed, and the one that it will write has room. -/
structure Ready (t : CheckTask) (s : Store) (dataDir : Path) : Prop where
  errorLog : s.Removable (dataDir.join t.errorLog)
  successLog : s.Removable (dataDir.join t.successLog)
  room : s.Room (dataDir.join (t.written (t.failures s dataDir)))

theorem written_mem_logs (t : CheckTask) (failures : List StepFailure) :
    dataDir.join (t.written failures) ∈ t.logs dataDir := by
  unfold written logs
  split <;> simp

theorem Leaves.exists_read {failures : List StepFailure} (h : t.Leaves dataDir failures s) :
    ∃ content, s.read (dataDir.join (t.written failures)) = .ok content := by
  have herror := h.errorLog
  have hsuccess := h.successLog
  unfold written
  split
  · rename_i hnil
    rw [if_pos hnil] at hsuccess
    exact ⟨_, hsuccess⟩
  · rename_i hne
    rw [Store.LogHolds, if_neg (by simpa using hne)] at herror
    exact ⟨_, herror⟩

namespace LogsApart

variable {p q : Path} (h : t.LogsApart s dataDir)
include h

theorem grounded (hp : p ∈ t.logs dataDir) : s.Grounded p := by
  simp only [logs, List.mem_cons, List.not_mem_nil, or_false] at hp
  rcases hp with rfl | rfl
  · exact h.errorLog
  · exact h.successLog

theorem same_or_apart (hq : q ∈ t.logs dataDir) (hp : p ∈ t.logs dataDir) :
    s.destination q = s.destination p ∨ s.Apart q p := by
  simp only [logs, List.mem_cons, List.not_mem_nil, or_false] at hq hp
  rcases hq with rfl | rfl <;> rcases hp with rfl | rfl
  · exact Or.inl rfl
  · exact Or.inr h.apart
  · exact Or.inr h.apart.symm
  · exact Or.inl rfl

end LogsApart

section Undisturbed
variable (hs : s.Sound) (hm : m.Sound) (hd : s.DiffersBy files files m)
  (htables : s.Undisturbed files (t.tables dataDir))
include hs hm hd htables

theorem result_eq {step : CheckStep} (hstep : step ∈ t.steps) :
    step.result m dataDir (dataDir.join t.childTable) = step.result s dataDir (dataDir.join t.childTable) := by
  have hread : ∀ p ∈ t.tables dataDir, m.read p = s.read p := fun p hp =>
    hd.read_eq (htables p hp).1 hs hm (htables p hp).2
  apply CheckStep.result_congr
  · exact hread _ List.mem_cons_self
  · exact hread _ (List.mem_cons_of_mem _ (List.mem_map_of_mem hstep))

theorem failures_eq : t.failures m dataDir = t.failures s dataDir := by
  apply List.filterMap_congr
  intro step hstep
  rw [result_eq hs hm hd htables hstep]

theorem ready_iff (hlogs : s.Undisturbed files (t.logs dataDir)) : t.Ready m dataDir ↔ t.Ready s dataDir := by
  have hremovable : ∀ log ∈ t.logs dataDir, m.Removable log ↔ s.Removable log := fun log hlog =>
    Store.removable_congr (hd.locate_eq (hlogs log hlog).1 hs hm (hlogs log hlog).2) hd.here
  have herror := hremovable _ (t.errorLog_mem_logs dataDir)
  have hsuccess := hremovable _ (t.successLog_mem_logs dataDir)
  have hroom : m.Room (dataDir.join (t.written (t.failures m dataDir))) ↔
      s.Room (dataDir.join (t.written (t.failures s dataDir))) := by
    rw [failures_eq hs hm hd htables]
    exact hd.room_iff (hlogs _ (t.written_mem_logs _)).1
  constructor
  · intro h
    exact ⟨herror.mp h.errorLog, hsuccess.mp h.successLog, hroom.mp h.room⟩
  · intro h
    exact ⟨herror.mpr h.errorLog, hsuccess.mpr h.successLog, hroom.mpr h.room⟩

end Undisturbed

/-- The failures that the steps of a task have found are what its checks come to before. -/
theorem filterMap_foundBy {found : List (Option StepFailure)} (hs : s.Sound)
    (htables : s.Undisturbed files (t.tables dataDir))
    (h : List.Forall₂ (FoundBy s files dataDir (dataDir.join t.childTable)) t.steps found) :
    found.filterMap id = t.failures s dataDir := by
  have hall : List.Forall₂ (fun step f => step.failure? (step.result s dataDir (dataDir.join t.childTable)) = f)
      t.steps found := by
    apply h.imp_of_mem
    rintro step hstep f ⟨n, hn, hd, rfl⟩
    rw [result_eq hs hn hd htables hstep]
  exact (hall.filterMap_eq_filterMap fun _ _ hf => hf).symm

/-- A step runs where there is room for the log, if it has something to say. -/
theorem exists_runStep_returns {step : CheckStep} (hs : s.Sound)
    (hroom : step.failure? (step.result s dataDir childTable) ≠ none → s.Room log) :
    ∃ s', (runStep dataDir childTable log step).Returns s (step.failure? (step.result s dataDir childTable)) s' ∧
      (s.Room log → s'.Room log) := by
  cases hf : step.failure? (step.result s dataDir childTable) with
  | none => exact ⟨s, runStep_returns_iff.mpr ⟨hf.symm, rfl⟩, id⟩
  | some failure =>
    have hs_room := hroom (by simp [hf])
    obtain ⟨m, hparent, hm_room, hdir⟩ := Files.makeParent_room hs hs_room
    obtain ⟨s', hadd⟩ := Files.addLine_total (hs.returns hparent) hm_room hdir failure.message
    refine ⟨s', runStep_returns_iff.mpr ⟨hf.symm, m, hparent, hadd⟩, fun _ => ?_⟩
    obtain ⟨before, hread, _⟩ := Files.read_addLine hadd
    have hd := Files.addLine_differsBy hadd
    have hitem := Store.item?_of_read hread
    rw [Store.destination_congr hd.here] at hitem
    apply hm_room.differsBy hd
    · simp
    · rw [hitem]
      simp

/-- The steps of a task run where there is room for the log, if one of them has something to say. -/
theorem exists_runStep_mapM_returns (hs : s.Sound) (htables : s.Undisturbed (t.logs dataDir) (t.tables dataDir))
    (hm : m.Sound) (hd : s.DiffersBy (t.logs dataDir) (t.logs dataDir) m)
    (hroom : t.failures s dataDir ≠ [] → m.Room (dataDir.join t.errorLog)) :
    ∃ s', (t.steps.mapM (runStep dataDir (dataDir.join t.childTable) (dataDir.join t.errorLog))).Returns m
      (t.steps.map fun step => step.failure? (step.result s dataDir (dataDir.join t.childTable))) s' := by
  apply Task.exists_mapM_returns (P := fun _ n => n.Sound ∧ s.DiffersBy (t.logs dataDir) (t.logs dataDir) n ∧
    (t.failures s dataDir ≠ [] → n.Room (dataDir.join t.errorLog)))
  · exact ⟨hm, hd, hroom⟩
  · rintro done step rest n hsteps ⟨hn, hdn, hroom⟩
    have hstep : step ∈ t.steps := by simp [hsteps]
    have hresult := result_eq hs hn hdn htables hstep
    have hfails : step.failure? (step.result n dataDir (dataDir.join t.childTable)) ≠ none → t.failures s dataDir ≠ [] := by
      rw [hresult]
      intro hsome hnil
      exact hsome (List.filterMap_eq_nil_iff.mp hnil step hstep)
    obtain ⟨n', hone, hstays⟩ := exists_runStep_returns hn fun hsome => hroom (hfails hsome)
    rw [hresult] at hone
    have hsub := t.errorLog_subset_logs dataDir
    have hlog : n.DiffersBy (t.logs dataDir) (t.logs dataDir) n' := (runStep_differsBy hone).mono hsub hsub
    exact ⟨n', hone, hn.returns hone, hdn.trans hlog, fun hne => hstays (hroom hne)⟩

section Runs
variable (hs : s.Sound) (ht : t.LogsApart s dataDir) (htables : s.Undisturbed (t.logs dataDir) (t.tables dataDir))
  (hshort : ∀ log ∈ t.logs dataDir, Store.Short log)
include hs ht htables hshort

/-- A task that has run was ready. -/
theorem ready_of_returns (hrun : (t.run dataDir).Returns s o s') :
    t.Ready s dataDir ∧ o = t.outcome (t.failures s dataDir) := by
  obtain ⟨s₁, s₂, _, _, herror, hsuccess, _⟩ := run_returns_iff.mp hrun
  obtain ⟨found, ho, hleaves, hfound⟩ := run_leaves hs ht hrun
  rw [filterMap_foundBy hs htables hfound] at ho hleaves
  have hd₁ := Files.removeIfThere_differsBy herror
  have hs₁ := hs.returns herror
  have hremovable : ∀ log ∈ t.logs dataDir, s.Removable log := by
    have hfirst := Store.removable_of_returns hs herror
    have hsecond := Store.removable_of_returns hs₁ hsuccess
    have hlocate := hd₁.locate_eq ht.spares_successLog hs hs₁ (hshort _ (t.successLog_mem_logs dataDir))
    rw [Store.removable_congr hlocate hd₁.here] at hsecond
    simp [logs, hfirst, hsecond]
  refine ⟨⟨hremovable _ (t.errorLog_mem_logs dataDir), hremovable _ (t.successLog_mem_logs dataDir), ?_⟩, ho⟩
  have hwritten : dataDir.join (t.written (t.failures s dataDir)) ∈ t.logs dataDir := t.written_mem_logs _
  obtain ⟨content, hread⟩ := hleaves.exists_read
  have hd := run_differsBy hrun
  have hcheck := (Store.locate_eq_ok_iff.mp (Store.read_eq_ok_iff.mp hread)).1
  have hitem := Store.item?_of_read hread
  rw [Store.destination_congr hd.here] at hitem
  have hne : s.destination (dataDir.join (t.written (t.failures s dataDir))) ≠ [] := by
    intro hroot
    rw [hroot] at hitem
    cases hitem
  apply Store.Room.of_read hd (hs.returns hrun) hread (hshort _ hwritten) (ht.grounded hwritten)
  · exact Store.notWritten_of_apart (fun q hq => ht.same_or_apart hq hwritten) hne
  · exact (hremovable _ hwritten).ne_directory hs (ht.grounded hwritten) hcheck

/-- A task that is ready runs. -/
theorem Ready.exists_returns (h : t.Ready s dataDir) :
    ∃ s', (t.run dataDir).Returns s (t.outcome (t.failures s dataDir)) s' := by
  obtain ⟨s₁, herror⟩ := h.errorLog.exists_returns hs
  have hd₁ := Files.removeIfThere_differsBy herror
  have hs₁ := hs.returns herror
  have hlocate := hd₁.locate_eq ht.spares_successLog hs hs₁ (hshort _ (t.successLog_mem_logs dataDir))
  have hremovable := (Store.removable_congr hlocate hd₁.here).mpr h.successLog
  obtain ⟨s₂, hsuccess⟩ := hremovable.exists_returns hs₁
  obtain ⟨hs₂, hd₂, hnone⟩ := absent_of_removals hs ht herror hsuccess
  have hwritten : dataDir.join (t.written (t.failures s dataDir)) ∈ t.logs dataDir := t.written_mem_logs _
  have hroom : ∀ {n : Store}, s.DiffersBy (t.logs dataDir) (t.logs dataDir) n →
      n.Absent (dataDir.join (t.written (t.failures s dataDir))) →
      n.Room (dataDir.join (t.written (t.failures s dataDir))) := by
    intro n hd hno
    apply h.room.differsBy hd fun q hq => ht.same_or_apart hq hwritten
    rw [← Store.destination_congr hd.here]
    exact hno.ne_directory h.room.check
  have herror₂ : t.failures s dataDir ≠ [] → s₂.Room (dataDir.join t.errorLog) := by
    intro hne
    have hroom₂ := hroom hd₂ (hnone _ hwritten)
    rwa [written, if_neg hne] at hroom₂
  obtain ⟨s₃, hsteps⟩ := exists_runStep_mapM_returns hs htables hs₂ hd₂ herror₂
  have hd₃ := (runStep_mapM hs₂ (hnone _ (t.errorLog_mem_logs dataDir)) hsteps).1
  have hfound : (t.steps.map fun step => step.failure? (step.result s dataDir (dataDir.join t.childTable))).filterMap id =
      t.failures s dataDir := by
    rw [List.filterMap_map]
    rfl
  by_cases hnil : t.failures s dataDir = []
  · have hs₃ := hs₂.returns hsteps
    have hsub := t.errorLog_subset_logs dataDir
    have hlogs₃ : s.DiffersBy (t.logs dataDir) (t.logs dataDir) s₃ := hd₂.trans (hd₃.mono hsub hsub)
    have hroom₃ := hroom hlogs₃
    rw [written, if_pos hnil] at hroom₃
    have hsuccess₃ := hroom₃ (hd₃.absent (ht.differsBy hd₂).spares_successLog (hnone _ (t.successLog_mem_logs dataDir)))
    obtain ⟨m, hparent, hm_room, hdir⟩ := Files.makeParent_room hs₃ hsuccess₃
    obtain ⟨s', hwrite⟩ := Files.writeText_total (hs₃.returns hparent) hm_room hdir ""
    refine ⟨s', run_returns_iff.mpr ⟨s₁, s₂, s₃, _, herror, hsuccess, hsteps, by rw [hfound], ?_⟩⟩
    rw [hfound, if_pos hnil]
    exact ⟨m, hparent, hwrite⟩
  · refine ⟨s₃, run_returns_iff.mpr ⟨s₁, s₂, s₃, _, herror, hsuccess, hsteps, by rw [hfound], ?_⟩⟩
    rw [hfound, if_neg hnil]

end Runs

end CheckTask

end SchemaTables
