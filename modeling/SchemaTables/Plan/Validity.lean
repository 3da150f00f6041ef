import SchemaTables.Plan.Basic
import SchemaTables.Report

/-!
What must hold of a plan beyond its form: no two tasks share a child table, no two logs share a path,
every parent table is declared by its task, and no separator is empty. Each element that breaks a rule,
given the elements before it, makes one error. A strange version, a task without steps and a declared
table that no step uses are worth a warning.
-/

namespace SchemaTables

/-- The paths that came up in the tasks before. -/
structure SeenPaths where
  childTables : List Path := []
  logs : List Path := []

namespace CheckTask

def place (index : Nat) (field : String) : String := "/tasks/" ++ toString index ++ "/" ++ field

def childTableErrors (index : Nat) (seen : SeenPaths) (t : CheckTask) : List Issue :=
  if seen.childTables.any (·.compare t.childTable == .eq) then
    [⟨.error, "duplicate_child_table", place index "child_table",
      "child table '" ++ t.childTable.text ++ "' has more than one task",
      some "merge the steps into a single task"⟩]
  else []

def logErrors (index : Nat) (logs : List Path) (field : String) (log : Path) : List Issue :=
  if logs.any (·.compare log == .eq) then
    [.error "duplicate_log_path" (place index field)
      ("log path '" ++ log.text ++ "' is used by more than one task")]
  else []

def stepErrors (index : Nat) (t : CheckTask) (position : Nat) (s : CheckStep) : List Issue :=
  let at_ := "steps/" ++ toString position ++ "/"
  (if t.dependsOn.any (·.compare s.parentTable == .eq) then []
    else [⟨.error, "undeclared_dependency", place index (at_ ++ "parent_table"),
      "parent table '" ++ s.parentTable.text ++ "' is not listed in depends_on",
      some "add the parent table to depends_on"⟩]) ++
  (if s.separator = some "" then
    [.error "empty_separator" (place index (at_ ++ "separator")) "separator must not be empty"]
    else [])

def errors (index : Nat) (seen : SeenPaths) (t : CheckTask) : List Issue :=
  t.childTableErrors index seen ++ logErrors index seen.logs "error_log" t.errorLog ++
    logErrors index (t.errorLog :: seen.logs) "success_log" t.successLog ++
    (t.steps.mapIdx (t.stepErrors index)).flatten

/-- The declared tables, each once and in order, that no step uses. -/
def unusedDependencies (t : CheckTask) : List Path :=
  (PathSet.ofLatest t.dependsOn).filter fun p => !t.steps.any (·.parentTable.compare p == .eq)

def warnings (index : Nat) (t : CheckTask) : List Issue :=
  (if t.steps.isEmpty then
    [⟨.warning, "empty_task", place index "steps", "task '" ++ t.name ++ "' has no steps", none⟩]
    else []) ++
  t.unusedDependencies.map fun p =>
    ⟨.warning, "unused_dependency", place index "depends_on",
      "'" ++ p.text ++ "' is not referenced by any step", none⟩

end CheckTask

/-- The errors of the tasks from position `index` on. -/
def taskErrors (index : Nat) (seen : SeenPaths) : List CheckTask → List Issue
  | [] => []
  | t :: rest =>
    t.errors index seen ++
      taskErrors (index + 1) ⟨t.childTable :: seen.childTables, t.successLog :: t.errorLog :: seen.logs⟩ rest

namespace CheckPlan

def versionWarnings (p : CheckPlan) : List Issue :=
  if p.version = planVersion then []
  else [⟨.warning, "plan_version_mismatch", "/plan_version",
    "plan version '" ++ p.version ++ "' differs from supported version '" ++ planVersion ++ "'", none⟩]

/-- The report on a plan. -/
def review (p : CheckPlan) : Report where
  errors := taskErrors 0 {} p.tasks
  warnings := p.versionWarnings ++ (p.tasks.mapIdx CheckTask.warnings).flatten

end CheckPlan

end SchemaTables
