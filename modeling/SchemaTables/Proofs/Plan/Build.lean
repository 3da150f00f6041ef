import Mathlib.Data.List.Induction
import SchemaTables.Plan.Build
import SchemaTables.Proofs.Path.Comparison

/-!
Plans lose no check and add none. The group of a table holds the checks of that table in the order they
come, whatever was grouped before, so the steps of a task are exactly the checks of its child table.
-/

namespace SchemaTables

set_option autoImplicit false

variable {checks : List ManualCheck} {check : ManualCheck}

/-- What stands for a child table in the groups: its checks, under the spelling of the first. -/
def groupOf (checks : List ManualCheck) : Option (Path × List ManualCheck) :=
  checks.head?.map fun first => (first.childTable, checks)

theorem increasing_groupChecks (checks : List ManualCheck) :
    Ordered.Increasing Path.compare ((groupChecks checks).map Prod.fst) := by
  have hfold : ∀ groups : List (Path × List ManualCheck), Ordered.Increasing Path.compare (groups.map Prod.fst) →
      Ordered.Increasing Path.compare ((checks.foldl addCheck groups).map Prod.fst) := by
    induction checks with
    | nil => exact fun _ h => h
    | cons check checks ih => exact fun groups h => ih _ (Ordered.increasing_put h)
  exact hfold [] .nil

theorem groupChecks_concat (checks : List ManualCheck) (check : ManualCheck) :
    groupChecks (checks ++ [check]) = addCheck (groupChecks checks) check := by
  rw [groupChecks, List.foldl_append]
  rfl

/-- Grouping keeps the checks of each table and their order. -/
theorem pairAt?_groupChecks (checks : List ManualCheck) (p : Path) :
    Ordered.pairAt? Path.compare (groupChecks checks) p =
      groupOf (checks.filter fun check => p.Same check.childTable) := by
  induction checks using List.reverseRecOn generalizing p with
  | nil => rfl
  | append_singleton checks check ih =>
    rw [groupChecks_concat, addCheck, Ordered.pairAt?_put (increasing_groupChecks checks), Ordered.get?_eq_pairAt?,
      ih check.childTable, ih p, List.filter_append]
    simp only [Path.compare_eq_iff]
    by_cases hsame : p.Same check.childTable
    · have hfilter : (checks.filter fun other => check.childTable.Same other.childTable) =
          checks.filter fun other => p.Same other.childTable := by
        apply List.filter_congr
        intro other _
        rw [decide_eq_decide]
        exact ⟨hsame.trans, hsame.symm.trans⟩
      rw [if_pos hsame, hfilter]
      cases hgroup : checks.filter fun other => p.Same other.childTable with
      | nil => simp [groupOf, hsame]
      | cons first rest => simp [groupOf, hsame]
    · rw [if_neg hsame]
      simp [hsame]

/-- Every group is named by the child table of its first check, and holds the checks of this table. -/
theorem mem_groupChecks_iff {p : Path} {group : List ManualCheck} : (p, group) ∈ groupChecks checks ↔
    groupOf (checks.filter fun check => p.Same check.childTable) = some (p, group) := by
  rw [Ordered.mem_iff_pairAt? (increasing_groupChecks checks), pairAt?_groupChecks]

theorem mem_groupChecks {p : Path} {group : List ManualCheck} (h : (p, group) ∈ groupChecks checks) :
    (∃ check ∈ checks, check.childTable = p) ∧
      group = checks.filter fun check => p.Same check.childTable := by
  obtain ⟨first, hfirst, heq⟩ := Option.map_eq_some_iff.mp (mem_groupChecks_iff.mp h)
  obtain ⟨hp, hgroup⟩ := Prod.mk.inj heq
  exact ⟨⟨first, List.mem_of_mem_filter (List.mem_of_head? hfirst), hp⟩, hgroup.symm⟩

theorem exists_group_of_check (h : check ∈ checks) :
    ∃ p group, (p, group) ∈ groupChecks checks ∧ check.childTable.Same p ∧ check ∈ group := by
  have hmem : check ∈ checks.filter fun other => check.childTable.Same other.childTable :=
    List.mem_filter.mpr ⟨h, by simp [Path.Same.refl]⟩
  obtain ⟨first, rest, hgroup⟩ := List.exists_cons_of_ne_nil (List.ne_nil_of_mem hmem)
  have hentry := pairAt?_groupChecks checks check.childTable
  rw [hgroup] at hentry hmem
  have hsame := List.find?_some hentry
  exact ⟨first.childTable, first :: rest, List.mem_of_find?_eq_some hentry, by simpa [Path.compare_eq_iff] using hsame, hmem⟩

/-- The checks of each child table come in the same order; those of different tables may be mixed in any way. -/
def SameByTable (checks checks' : List ManualCheck) : Prop :=
  ∀ p : Path, (checks.filter fun check => p.Same check.childTable) =
    checks'.filter fun check => p.Same check.childTable

/-- Neighbours that check different tables may change places. -/
theorem sameByTable_swap {a b : ManualCheck} (h : ¬ a.childTable.Same b.childTable) (before after : List ManualCheck) :
    SameByTable (before ++ a :: b :: after) (before ++ b :: a :: after) := by
  intro p
  rw [List.filter_append, List.filter_append]
  congr 1
  by_cases ha : p.Same a.childTable
  · have hb : ¬ p.Same b.childTable := fun hb => h (ha.symm.trans hb)
    simp [ha, hb]
  · simp [ha, List.filter_cons]

/-- Groups do not see how the checks of different tables are mixed. -/
theorem groupChecks_congr {checks' : List ManualCheck} (h : SameByTable checks checks') :
    groupChecks checks = groupChecks checks' := by
  apply Ordered.eq_of_pairAt?_eq (increasing_groupChecks checks) (increasing_groupChecks checks')
  intro p
  rw [pairAt?_groupChecks, pairAt?_groupChecks, h p]

namespace CheckPlan

variable {validationDir : Path} {t : CheckTask} {step : CheckStep}

/-- Every task is made for the child table of a check, and its steps are the checks of this table. -/
theorem mem_tasks_ofChecks (ht : t ∈ (ofChecks checks validationDir).tasks) :
    (∃ check ∈ checks, check.childTable = t.childTable) ∧
      t = .ofChecks validationDir t.childTable
        (checks.filter fun check => t.childTable.Same check.childTable) := by
  obtain ⟨⟨p, group⟩, hgroup, rfl⟩ := List.mem_map.mp ht
  obtain ⟨hcheck, rfl⟩ := mem_groupChecks hgroup
  exact ⟨hcheck, rfl⟩

theorem exists_check_of_step (ht : t ∈ (ofChecks checks validationDir).tasks) (hstep : step ∈ t.steps) :
    ∃ check ∈ checks, t.childTable.Same check.childTable ∧ check.step = step := by
  rw [(mem_tasks_ofChecks ht).2] at hstep
  obtain ⟨check, hcheck, rfl⟩ := List.mem_map.mp hstep
  obtain ⟨hmem, hsame⟩ := List.mem_filter.mp hcheck
  exact ⟨check, hmem, by simpa using hsame, rfl⟩

/-- Every check is a step of the task of its child table. -/
theorem exists_task_of_check (validationDir : Path) (h : check ∈ checks) : ∃ t ∈ (ofChecks checks validationDir).tasks,
    t.childTable.Same check.childTable ∧ check.step ∈ t.steps := by
  obtain ⟨p, group, hp, hsame, hgroup⟩ := exists_group_of_check h
  exact ⟨_, List.mem_map.mpr ⟨(p, group), hp, rfl⟩, hsame.symm, List.mem_map.mpr ⟨check, hgroup, rfl⟩⟩

end CheckPlan

/-- The task has the checks of its child table for its steps, and names each of their parent tables once. -/
structure CheckTask.Covers (t : CheckTask) (checks : List ManualCheck) : Prop where
  steps : t.steps = (checks.filter fun check => t.childTable.Same check.childTable).map fun check =>
    { childColumn := check.childColumn
      parentTable := check.parentTable
      parentColumn := check.parentColumn
      separator := check.separator }
  increasing : Ordered.Increasing Path.compare t.dependsOn
  parents : ∀ p ∈ t.dependsOn, ∃ step ∈ t.steps, step.parentTable = p
  complete : ∀ step ∈ t.steps, ∃ p ∈ t.dependsOn, step.parentTable.Same p

theorem CheckTask.ofChecks_covers {validationDir p : Path} {group : List ManualCheck}
    (h : (p, group) ∈ groupChecks checks) : (CheckTask.ofChecks validationDir p group).Covers checks where
  steps := by
    rw [(mem_groupChecks h).2]
    rfl
  increasing := Ordered.increasing_ofList _
  parents := by
    intro q hq
    have hmem := List.mem_reverse.mp (Ordered.mem_of_mem_ofList hq)
    obtain ⟨check, hcheck, rfl⟩ := List.mem_map.mp hmem
    exact ⟨check.step, List.mem_map.mpr ⟨check, hcheck, rfl⟩, rfl⟩
  complete := by
    intro step hstep
    obtain ⟨check, hcheck, rfl⟩ := List.mem_map.mp hstep
    apply PathSet.contains_iff.mp
    apply PathSet.contains_ofList_iff.mpr
    exact ⟨check.parentTable, List.mem_reverse.mpr (List.mem_map.mpr ⟨check, hcheck, rfl⟩), Path.Same.refl _⟩

namespace CheckPlan

/-- One task for each child table, in the order of paths, and every check is a step of one task. -/
theorem ofChecks_by_table (checks : List ManualCheck) (validationDir : Path) :
    Ordered.Increasing Path.compare ((ofChecks checks validationDir).tasks.map CheckTask.childTable) ∧
    (∀ p : Path, (∃ t ∈ (ofChecks checks validationDir).tasks, t.childTable.Same p) ↔
      ∃ check ∈ checks, check.childTable.Same p) ∧
    (∀ t ∈ (ofChecks checks validationDir).tasks, t.Covers checks) ∧
    ∀ checks', SameByTable checks checks' → ofChecks checks' validationDir = ofChecks checks validationDir := by
  refine ⟨?_, ?_, ?_, ?_⟩
  · have hkeys : (ofChecks checks validationDir).tasks.map CheckTask.childTable =
        (groupChecks checks).map Prod.fst := List.map_map
    rw [hkeys]
    exact increasing_groupChecks checks
  · intro p
    constructor
    · rintro ⟨t, ht, hsame⟩
      obtain ⟨⟨check, hcheck, htable⟩, _⟩ := mem_tasks_ofChecks ht
      exact ⟨check, hcheck, htable ▸ hsame⟩
    · rintro ⟨check, hcheck, hsame⟩
      obtain ⟨t, ht, htable, _⟩ := exists_task_of_check validationDir hcheck
      exact ⟨t, ht, htable.trans hsame⟩
  · intro t ht
    obtain ⟨⟨p, group⟩, hgroup, rfl⟩ := List.mem_map.mp ht
    exact CheckTask.ofChecks_covers hgroup
  · intro checks' h
    rw [ofChecks, ofChecks, groupChecks_congr h]

/-- The checks of a table with two spellings go into one task, whatever stands between them. -/
theorem ofChecks_by_table_orders :
    let order : ManualCheck := ⟨⟨"data//order.csv"⟩, "buyer", ⟨"person.csv"⟩, "id", none⟩
    let item : ManualCheck := ⟨⟨"data/item.csv"⟩, "order", ⟨"data/order.csv"⟩, "id", some "|"⟩
    let order' : ManualCheck := ⟨⟨"data/order.csv"⟩, "payers", ⟨"company.csv"⟩, "id", some "|"⟩
    ∃ t ∈ (ofChecks [order, item, order'] ⟨"out"⟩).tasks, t.childTable = order.childTable ∧
      t.steps = [order.step, order'.step] ∧
      ofChecks [order, order', item] ⟨"out"⟩ = ofChecks [order, item, order'] ⟨"out"⟩ := by
  intro order item order'
  obtain ⟨_, _, htasks, hmixed⟩ := ofChecks_by_table [order, item, order'] ⟨"out"⟩
  have hother : ¬ item.childTable.Same order'.childTable := by decide
  have ht : CheckTask.ofChecks ⟨"out"⟩ order.childTable [order, order'] ∈
      (ofChecks [order, item, order'] ⟨"out"⟩).tasks := by decide +kernel
  refine ⟨_, ht, rfl, ?_, hmixed _ (sameByTable_swap hother [order] [])⟩
  rw [(htasks _ ht).steps]
  decide

end CheckPlan

end SchemaTables
