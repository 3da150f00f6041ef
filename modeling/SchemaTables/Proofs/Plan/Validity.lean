import Mathlib.Data.List.Nodup
import SchemaTables.Plan.Validity
import SchemaTables.Proofs.Except
import SchemaTables.Proofs.Path.Comparison
import SchemaTables.Proofs.Text.Search

/-!
The rules for plans, part by part. The errors in the report on a plan stand beside the parts that break their rule,
given the parts before them: one for each, with its pointer. So there are none when child tables and logs are pairwise
different, every parent table is declared and no separator is empty.
-/

set_option autoImplicit false

namespace List

variable {α β γ : Type} {R : α → β → Prop}

theorem Forall₂.flatMap_of_mem {l : List γ} {f : γ → List α} {g : γ → List β} (h : ∀ x ∈ l, Forall₂ R (f x) (g x)) :
    Forall₂ R (l.flatMap f) (l.flatMap g) := by
  induction l with
  | nil => exact .nil
  | cons x l ih =>
    rw [forall_mem_cons] at h
    exact rel_append h.1 (ih h.2)

/-- One element or none, beside those of a single one that pass a test. -/
theorem Forall₂.ite_filter {a : α} {b : β} {c : Prop} [Decidable c] {P : β → Prop} [DecidablePred P] (hiff : c ↔ P b)
    (hR : R a b) : Forall₂ R (if c then [a] else []) ([b].filter P) := by
  by_cases hc : c
  · rw [if_pos hc, filter_cons_of_pos (by simpa using hiff.mp hc)]
    exact .cons hR .nil
  · rw [if_neg hc, filter_cons_of_neg (by simpa using mt hiff.mpr hc)]
    exact .nil

/-- What is made at different positions is different. -/
theorem nodup_flatMap_zipIdx {l : List α} {f : α × Nat → List β} (hnodup : ∀ x, (f x).Nodup)
    (hapart : ∀ x y, ∀ b ∈ f x, b ∈ f y → x.2 = y.2) : (l.zipIdx.flatMap f).Nodup := by
  have hpositions : (l.zipIdx.map Prod.snd).Nodup := by
    rw [zipIdx_map_snd]
    exact nodup_range'
  refine nodup_flatMap.mpr ⟨fun x _ => hnodup x, (pairwise_map.mp hpositions).imp ?_⟩
  intro x y hne b hx hy
  exact hne (hapart x y b hx hy)

/-- Elements are pairwise related when each is related to all before it. -/
theorem pairwise_iff_take {S : α → α → Prop} {l : List α} :
    l.Pairwise S ↔ ∀ i, ∀ a ∈ l[i]?, ∀ b ∈ l.take i, S b a := by
  induction l with
  | nil => simp
  | cons x l ih =>
    rw [pairwise_cons, ih]
    constructor
    · rintro ⟨hfirst, hrest⟩ i a ha b hb
      cases i with
      | zero => cases hb
      | succ i =>
        rcases mem_cons.mp hb with rfl | hb
        · exact hfirst a (mem_of_getElem? ha)
        · exact hrest i a ha b hb
    · intro h
      refine ⟨fun a ha => ?_, fun i a ha b hb => h (i + 1) a ha b (mem_cons_of_mem x hb)⟩
      obtain ⟨i, hi⟩ := mem_iff_getElem?.mp ha
      exact h (i + 1) a hi x mem_cons_self

end List

namespace SchemaTables

namespace Text

theorem toString_inj {m n : Nat} : toString m = toString n ↔ m = n := by
  refine ⟨fun h => ?_, congrArg _⟩
  have hdigits := congrArg (fun text : String => Nat.ofDigitChars 10 text.toList 0) h
  simpa [Nat.toString_eq_repr, Nat.toList_repr, Nat.ofDigitChars_ten_toDigits] using hdigits

theorem slash_notMem_toString (n : Nat) : '/' ∉ (toString n).toList := by
  rw [Nat.toString_eq_repr, Nat.toList_repr]
  intro h
  exact absurd (Nat.isDigit_of_mem_toDigits (by decide) (by decide) h) (by decide)

/-- Texts are cut at the first occurrence of a character in one way only. -/
theorem append_cons_inj {c : Char} {a a' b b' : List Char} (ha : c ∉ a) (ha' : c ∉ a') :
    a ++ c :: b = a' ++ c :: b' ↔ a = a' ∧ b = b' := by
  constructor
  · intro h
    have hcut := congrArg (cutAt c) h
    rw [cutAt_append_cons ha, cutAt_append_cons ha'] at hcut
    exact Prod.mk.inj (Option.some.inj hcut)
  · rintro ⟨rfl, rfl⟩
    rfl

theorem numbered_inj {front text text' : String} {m n : Nat} :
    front ++ toString m ++ "/" ++ text = front ++ toString n ++ "/" ++ text' ↔ m = n ∧ text = text' := by
  have hslash : "/".toList = ['/'] := rfl
  rw [← String.toList_inj]
  simp only [String.toList_append, List.append_assoc, List.append_cancel_left_eq, hslash, List.singleton_append]
  rw [append_cons_inj (slash_notMem_toString m) (slash_notMem_toString n), String.toList_inj, String.toList_inj,
    toString_inj]

end Text

/-- What the rules look at in a task. -/
inductive TaskPart where
  | childTable
  | errorLog
  | successLog
  | parentTable (step : Nat)
  | separator (step : Nat)
deriving DecidableEq

/-- A part of a task, with the position of the task in the plan. -/
structure PlanPart where
  task : Nat
  part : TaskPart
deriving DecidableEq

namespace TaskPart

def step? : TaskPart → Option Nat
  | parentTable k | separator k => some k
  | childTable | errorLog | successLog => none

def name : TaskPart → String
  | childTable => "child_table"
  | errorLog => "error_log"
  | successLog => "success_log"
  | parentTable _ => "parent_table"
  | separator _ => "separator"

/-- The pointer from the task. -/
def field (part : TaskPart) : String :=
  match part.step? with
  | some k => "steps/" ++ toString k ++ "/" ++ part.name
  | none => part.name

/-- The code of errors at the part. -/
def code : TaskPart → String
  | childTable => "duplicate_child_table"
  | errorLog | successLog => "duplicate_log_path"
  | parentTable _ => "undeclared_dependency"
  | separator _ => "empty_separator"

theorem slash_notMem_name (part : TaskPart) : '/' ∉ part.name.toList := by cases part <;> simp [name]

theorem slash_mem_step (k : Nat) (name : String) : '/' ∈ ("steps/" ++ toString k ++ "/" ++ name).toList := by simp

theorem field_injective : Function.Injective field := by
  intro a b h
  have hparts : a.step? = b.step? ∧ a.name = b.name := by
    cases ha : a.step? with
    | none =>
      cases hb : b.step? with
      | none => simpa only [field, ha, hb, true_and] using h
      | some l =>
        simp only [field, ha, hb] at h
        exact absurd (h ▸ slash_mem_step l b.name) a.slash_notMem_name
    | some k =>
      cases hb : b.step? with
      | none =>
        simp only [field, ha, hb] at h
        exact absurd (h ▸ slash_mem_step k a.name) b.slash_notMem_name
      | some l =>
        simp only [field, ha, hb, Text.numbered_inj] at h
        rwa [Option.some_inj]
  cases a <;> cases b <;> simp_all [step?, name]

end TaskPart

/-- The pointer from the plan. -/
def PlanPart.pointer (e : PlanPart) : String := CheckTask.place e.task e.part.field

theorem PlanPart.pointer_injective : Function.Injective pointer := by
  rintro ⟨i, a⟩ ⟨j, b⟩ h
  obtain ⟨rfl, hfield⟩ := Text.numbered_inj.mp h
  exact congrArg (PlanPart.mk i) (TaskPart.field_injective hfield)

/-- The issue is an error about the part. -/
structure Issue.Reports (i : Issue) (e : PlanPart) : Prop where
  severity : i.severity = .error
  code : i.code = e.part.code
  path : i.path = e.pointer

namespace CheckTask

def logPaths (t : CheckTask) : List Path := [t.errorLog, t.successLog]

/-- The part of the task breaks its rule, given the tasks before. -/
def Breaks (before : List CheckTask) (t : CheckTask) : TaskPart → Prop
  | .childTable => ∃ table ∈ before.map childTable, table.Same t.childTable
  | .errorLog => ∃ log ∈ before.flatMap logPaths, log.Same t.errorLog
  | .successLog => ∃ log ∈ t.errorLog :: before.flatMap logPaths, log.Same t.successLog
  | .parentTable k => ∃ step ∈ t.steps[k]?, ∀ p ∈ t.dependsOn, ¬ p.Same step.parentTable
  | .separator k => ∃ step ∈ t.steps[k]?, step.separator = some ""

instance (before : List CheckTask) (t : CheckTask) : DecidablePred (t.Breaks before) := fun part =>
  match part with
  | .childTable => inferInstanceAs (Decidable (∃ table ∈ before.map childTable, table.Same t.childTable))
  | .errorLog => inferInstanceAs (Decidable (∃ log ∈ before.flatMap logPaths, log.Same t.errorLog))
  | .successLog => inferInstanceAs (Decidable (∃ log ∈ t.errorLog :: before.flatMap logPaths, log.Same t.successLog))
  | .parentTable k =>
    inferInstanceAs (Decidable (∃ step ∈ t.steps[k]?, ∀ p ∈ t.dependsOn, ¬ p.Same step.parentTable))
  | .separator k => inferInstanceAs (Decidable (∃ step ∈ t.steps[k]?, step.separator = some ""))

/-- All parts of a task. -/
def parts (t : CheckTask) : List TaskPart :=
  [.childTable, .errorLog, .successLog] ++ t.steps.zipIdx.flatMap fun (_, k) => [.parentTable k, .separator k]

variable {before : List CheckTask} {t : CheckTask} {part : TaskPart} {seen : SeenPaths}

theorem mem_parts_of_breaks (h : t.Breaks before part) : part ∈ t.parts := by
  cases part with
  | childTable | errorLog | successLog => simp [parts]
  | parentTable k =>
    obtain ⟨step, hstep, _⟩ := h
    exact List.mem_append_right _
      (List.mem_flatMap.mpr ⟨(step, k), List.mem_zipIdx_iff_getElem?.mpr hstep, List.mem_cons_self⟩)
  | separator k =>
    obtain ⟨step, hstep, _⟩ := h
    exact List.mem_append_right _ (List.mem_flatMap.mpr
      ⟨(step, k), List.mem_zipIdx_iff_getElem?.mpr hstep, List.mem_cons_of_mem _ List.mem_cons_self⟩)

theorem nodup_parts (t : CheckTask) : t.parts.Nodup := by
  refine List.nodup_append.mpr ⟨by decide, List.nodup_flatMap_zipIdx (fun _ => by simp) ?_, ?_⟩
  · rintro ⟨_, k⟩ ⟨_, l⟩ part hk hl
    rcases List.mem_pair.mp hk with rfl | rfl <;> simpa using hl
  · rintro part hpart other hother rfl
    obtain ⟨⟨_, k⟩, _, hk⟩ := List.mem_flatMap.mp hother
    rcases List.mem_pair.mp hk with rfl | rfl <;> simp at hpart

end CheckTask

/-- What has been seen is what the tasks before have. -/
structure SeenPaths.Of (seen : SeenPaths) (before : List CheckTask) : Prop where
  childTables : ∀ p, p ∈ seen.childTables ↔ p ∈ before.map CheckTask.childTable
  logs : ∀ p, p ∈ seen.logs ↔ p ∈ before.flatMap CheckTask.logPaths

theorem SeenPaths.Of.concat {seen : SeenPaths} {before : List CheckTask} (h : seen.Of before) (t : CheckTask) :
    SeenPaths.Of ⟨t.childTable :: seen.childTables, t.successLog :: t.errorLog :: seen.logs⟩ (before ++ [t]) where
  childTables p := by
    rw [List.mem_cons, h.childTables, List.map_append, List.mem_append, List.map_singleton, List.mem_singleton, or_comm]
  logs p := by
    simp only [List.mem_cons, h.logs, List.flatMap_append, List.mem_append, List.flatMap_singleton, CheckTask.logPaths]
    tauto

namespace CheckTask

variable {before : List CheckTask} {t : CheckTask} {seen : SeenPaths} {i : Nat}

theorem any_same_iff {ps : List Path} {p : Path} : ps.any (·.compare p == .eq) = true ↔ ∃ q ∈ ps, q.Same p := by
  simp [List.any_eq_true, Path.compare_eq_iff]

/-- The errors of a step stand beside its parts that break a rule. -/
theorem stepErrors_reports {step : CheckStep} {k : Nat} (h : t.steps[k]? = some step) :
    List.Forall₂ (fun issue part => Issue.Reports issue ⟨i, part⟩) (t.stepErrors i k step)
      ([.parentTable k, .separator k].filter (t.Breaks before)) := by
  have hparent : ¬ t.dependsOn.any (·.compare step.parentTable == .eq) = true ↔ t.Breaks before (.parentTable k) := by
    simp [Path.compare_eq_iff, Breaks, h]
  have hseparator : step.separator = some "" ↔ t.Breaks before (.separator k) := by simp [Breaks, h]
  have hparts : [TaskPart.parentTable k, .separator k] = [.parentTable k] ++ [.separator k] := rfl
  dsimp only [stepErrors]
  rw [hparts, List.filter_append, ← ite_not]
  refine List.rel_append ?_ ?_
  · exact .ite_filter hparent ⟨rfl, rfl, rfl⟩
  · exact .ite_filter hseparator ⟨rfl, rfl, rfl⟩

/-- The errors of a task stand beside its parts that break a rule, given the tasks before. -/
theorem errors_reports (h : seen.Of before) : List.Forall₂ Issue.Reports (t.errors i seen)
    ((t.parts.filter (t.Breaks before)).map (PlanPart.mk i)) := by
  have htable : seen.childTables.any (·.compare t.childTable == .eq) = true ↔ t.Breaks before .childTable := by
    simp only [any_same_iff, h.childTables, Breaks]
  have herror : seen.logs.any (·.compare t.errorLog == .eq) = true ↔ t.Breaks before .errorLog := by
    simp only [any_same_iff, h.logs, Breaks]
  have hsuccess : (t.errorLog :: seen.logs).any (·.compare t.successLog == .eq) = true ↔
      t.Breaks before .successLog := by
    simp only [any_same_iff, Breaks, List.mem_cons, h.logs]
  have hparts : t.parts = [.childTable] ++ [.errorLog] ++ [.successLog] ++
      t.steps.zipIdx.flatMap fun (_, k) => [.parentTable k, .separator k] := rfl
  rw [List.forall₂_map_right_iff, hparts, List.filter_append, List.filter_append, List.filter_append,
    List.filter_flatMap, errors, List.mapIdx_eq_zipIdx_map, ← List.flatMap_def]
  refine List.rel_append (List.rel_append (List.rel_append ?_ ?_) ?_) (List.Forall₂.flatMap_of_mem ?_)
  · exact .ite_filter htable ⟨rfl, rfl, rfl⟩
  · exact .ite_filter herror ⟨rfl, rfl, rfl⟩
  · exact .ite_filter hsuccess ⟨rfl, rfl, rfl⟩
  · intro x hx
    exact stepErrors_reports (List.mem_zipIdx_iff_getElem?.mp hx)

end CheckTask

namespace CheckPlan

/-- The part of the plan breaks its rule, given the tasks before it. -/
def Breaks (p : CheckPlan) (e : PlanPart) : Prop := ∃ t ∈ p.tasks[e.task]?, t.Breaks (p.tasks.take e.task) e.part

/-- The parts of a task that break their rule, where the task stands among others. -/
def brokenAt (tasks : List CheckTask) (x : CheckTask × Nat) : List PlanPart :=
  (x.1.parts.filter (x.1.Breaks (tasks.take x.2))).map (PlanPart.mk x.2)

/-- The parts that break their rule, in the order of the plan. -/
def broken (p : CheckPlan) : List PlanPart := p.tasks.zipIdx.flatMap (brokenAt p.tasks)

variable {p : CheckPlan} {e : PlanPart}

theorem mem_broken_iff : e ∈ p.broken ↔ p.Breaks e := by
  obtain ⟨i, part⟩ := e
  constructor
  · intro he
    obtain ⟨⟨t, j⟩, ht, hpart⟩ := List.mem_flatMap.mp he
    obtain ⟨part', hpart', heq⟩ := List.mem_map.mp hpart
    cases heq
    exact ⟨t, List.mem_zipIdx_iff_getElem?.mp ht, of_decide_eq_true (List.mem_filter.mp hpart').2⟩
  · rintro ⟨t, ht, hbreaks⟩
    refine List.mem_flatMap.mpr ⟨(t, i), List.mem_zipIdx_iff_getElem?.mpr ht, List.mem_map.mpr ⟨part, ?_, rfl⟩⟩
    exact List.mem_filter.mpr ⟨CheckTask.mem_parts_of_breaks hbreaks, decide_eq_true hbreaks⟩

theorem nodup_broken (p : CheckPlan) : p.broken.Nodup := by
  apply List.nodup_flatMap_zipIdx
  · intro x
    exact (x.1.nodup_parts.filter _).map fun _ _ h => (PlanPart.mk.inj h).2
  · rintro x y e hx hy
    obtain ⟨_, _, rfl⟩ := List.mem_map.mp hx
    obtain ⟨_, _, heq⟩ := List.mem_map.mp hy
    exact (PlanPart.mk.inj heq).1.symm

theorem taskErrors_reports {tasks before rest : List CheckTask} {seen : SeenPaths} (htasks : before ++ rest = tasks)
    (h : seen.Of before) : List.Forall₂ Issue.Reports (taskErrors before.length seen rest)
      ((rest.zipIdx before.length).flatMap (brokenAt tasks)) := by
  -- on the tasks that are left; what has been seen goes with the tasks before
  induction rest generalizing before seen with
  | nil => exact .nil
  | cons t rest ih =>
    have htail : before ++ [t] ++ rest = tasks := by rw [← htasks, List.append_assoc, List.singleton_append]
    have hrest := ih htail (h.concat t)
    rw [List.length_append, List.length_singleton] at hrest
    rw [taskErrors, List.zipIdx_cons, List.flatMap_cons]
    refine List.rel_append ?_ hrest
    rw [brokenAt, ← htasks, List.take_left]
    exact CheckTask.errors_reports h

/-- The errors stand beside the parts that break a rule, one for each. -/
theorem errors_reports_broken (p : CheckPlan) : List.Forall₂ Issue.Reports p.review.errors p.broken :=
  taskErrors_reports (List.nil_append p.tasks) ⟨fun _ => Iff.rfl, fun _ => Iff.rfl⟩

/-- The plan keeps all rules. -/
structure Valid (p : CheckPlan) : Prop where
  childTables : (p.tasks.map CheckTask.childTable).Pairwise (¬ ·.Same ·)
  logs : (p.tasks.flatMap CheckTask.logPaths).Pairwise (¬ ·.Same ·)
  declared : ∀ t ∈ p.tasks, ∀ step ∈ t.steps, ∃ q ∈ t.dependsOn, q.Same step.parentTable
  separators : ∀ t ∈ p.tasks, ∀ step ∈ t.steps, step.separator ≠ some ""

theorem pairwise_childTables_iff : (p.tasks.map CheckTask.childTable).Pairwise (¬ ·.Same ·) ↔
    ∀ i, ¬ p.Breaks ⟨i, .childTable⟩ := by
  rw [List.pairwise_map, List.pairwise_iff_take]
  simp only [Breaks, CheckTask.Breaks, not_exists, not_and, List.forall_mem_map]

theorem pairwise_logs_iff : (p.tasks.flatMap CheckTask.logPaths).Pairwise (¬ ·.Same ·) ↔
    (∀ i, ¬ p.Breaks ⟨i, .errorLog⟩) ∧ ∀ i, ¬ p.Breaks ⟨i, .successLog⟩ := by
  have hown : (∀ t ∈ p.tasks, t.logPaths.Pairwise (¬ ·.Same ·)) ↔
      ∀ (i : Nat) (t : CheckTask), t ∈ p.tasks[i]? → ¬ t.errorLog.Same t.successLog := by
    simp only [CheckTask.logPaths, List.pairwise_pair, List.mem_iff_getElem?, Option.mem_def]
    exact ⟨fun h i t ht => h t ⟨i, ht⟩, fun h t ⟨i, ht⟩ => h i t ht⟩
  rw [List.pairwise_flatMap, hown, List.pairwise_iff_take]
  simp only [Breaks, CheckTask.Breaks, not_exists, not_and, List.forall_mem_cons, List.forall_mem_flatMap,
    CheckTask.logPaths, List.not_mem_nil, IsEmpty.forall_iff, implies_true, and_true]
  constructor
  · rintro ⟨hown, hbefore⟩
    refine ⟨fun i t ht u hu => ?_, fun i t ht => ⟨hown i t ht, fun u hu => ?_⟩⟩
    · exact ⟨(hbefore i t ht u hu).1.1, (hbefore i t ht u hu).2.1⟩
    · exact ⟨(hbefore i t ht u hu).1.2, (hbefore i t ht u hu).2.2⟩
  · rintro ⟨herror, hsuccess⟩
    refine ⟨fun i t ht => (hsuccess i t ht).1, fun i t ht u hu => ?_⟩
    obtain ⟨herror, herror'⟩ := herror i t ht u hu
    obtain ⟨hsuccess, hsuccess'⟩ := (hsuccess i t ht).2 u hu
    exact ⟨⟨herror, hsuccess⟩, herror', hsuccess'⟩

theorem valid_iff : p.Valid ↔ ∀ e, ¬ p.Breaks e := by
  constructor
  · rintro h ⟨i, part⟩
    cases part with
    | childTable => exact pairwise_childTables_iff.mp h.childTables i
    | errorLog => exact (pairwise_logs_iff.mp h.logs).1 i
    | successLog => exact (pairwise_logs_iff.mp h.logs).2 i
    | parentTable k =>
      rintro ⟨t, ht, step, hstep, hnone⟩
      obtain ⟨q, hq, hsame⟩ := h.declared t (List.mem_of_getElem? ht) step (List.mem_of_getElem? hstep)
      exact hnone q hq hsame
    | separator k =>
      rintro ⟨t, ht, step, hstep, hempty⟩
      exact h.separators t (List.mem_of_getElem? ht) step (List.mem_of_getElem? hstep) hempty
  · intro h
    refine ⟨pairwise_childTables_iff.mpr fun i => h ⟨i, _⟩,
      pairwise_logs_iff.mpr ⟨fun i => h ⟨i, _⟩, fun i => h ⟨i, _⟩⟩, ?_, ?_⟩
    · intro t ht step hstep
      obtain ⟨i, hi⟩ := List.mem_iff_getElem?.mp ht
      obtain ⟨k, hk⟩ := List.mem_iff_getElem?.mp hstep
      by_contra hnone
      push Not at hnone
      exact h ⟨i, .parentTable k⟩ ⟨t, hi, step, hk, hnone⟩
    · intro t ht step hstep hempty
      obtain ⟨i, hi⟩ := List.mem_iff_getElem?.mp ht
      obtain ⟨k, hk⟩ := List.mem_iff_getElem?.mp hstep
      exact h ⟨i, .separator k⟩ ⟨t, hi, step, hk, hempty⟩

theorem errors_eq_nil_iff : p.review.errors = [] ↔ p.Valid := by
  have hlength := p.errors_reports_broken.length_eq
  rw [valid_iff, ← List.length_eq_zero_iff, hlength, List.length_eq_zero_iff, List.eq_nil_iff_forall_not_mem]
  exact forall_congr' fun e => not_congr mem_broken_iff

/-- A plan without errors keeps all rules; otherwise there is one error for each part that breaks a rule given the parts
before it, with the pointer to this part. -/
theorem review_errors_exact (p : CheckPlan) : (p.review.errors = [] ↔ p.Valid) ∧
    (∃ broken : List PlanPart, broken.Nodup ∧ (∀ e, e ∈ broken ↔ p.Breaks e) ∧
      List.Forall₂ Issue.Reports p.review.errors broken) ∧
    Function.Injective PlanPart.pointer :=
  ⟨errors_eq_nil_iff, ⟨p.broken, p.nodup_broken, fun _ => mem_broken_iff, p.errors_reports_broken⟩,
    PlanPart.pointer_injective⟩

end CheckPlan

end SchemaTables
