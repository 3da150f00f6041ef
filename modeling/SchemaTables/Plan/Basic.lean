import SchemaTables.Json.Record
import SchemaTables.Path.Basic

/-!
Plans of checks. A plan has one task for each child table with all checks of its columns; every path is
relative to the directory of the data.
-/

namespace SchemaTables

open Json

/-- The values of one column must occur in another. -/
structure CheckStep where
  childColumn : String
  parentTable : Path
  parentColumn : String
  /-- Splits the cells of a column with several values. -/
  separator : Option String := none
deriving DecidableEq, Repr

/-- The checks of one child table. -/
structure CheckTask where
  name : String
  childTable : Path
  /-- The parent tables of the steps. -/
  dependsOn : List Path
  /-- Takes what failing steps have to say. -/
  errorLog : Path
  /-- Exists after a run when no step failed. -/
  successLog : Path
  steps : List CheckStep
deriving DecidableEq, Repr

structure CheckPlan where
  version : String
  /-- The directory of the logs. -/
  validationDir : Path
  tasks : List CheckTask
deriving DecidableEq, Repr

/-- The version of plans that are made and understood. -/
def planVersion : String := "0.1"

namespace CheckStep

def toJson (s : CheckStep) : Json :=
  .obj ([("child_column", .str s.childColumn), ("parent_table", ofPath s.parentTable),
    ("parent_column", .str s.parentColumn)] ++ whenSome "separator" .str s.separator)

def ofJson? (v : Json) : Option CheckStep := do
  let r ← v.record? ["child_column", "parent_table", "parent_column", "separator"]
  return {
    childColumn := ← required r "child_column" text?
    parentTable := ← required r "parent_table" path?
    parentColumn := ← required r "parent_column" text?
    separator := ← optional r "separator" text? }

end CheckStep

namespace CheckTask

def toJson (t : CheckTask) : Json :=
  .obj [("name", .str t.name), ("child_table", ofPath t.childTable),
    ("depends_on", .arr (t.dependsOn.map ofPath)), ("error_log", ofPath t.errorLog),
    ("success_log", ofPath t.successLog), ("steps", .arr (t.steps.map CheckStep.toJson))]

def ofJson? (v : Json) : Option CheckTask := do
  let r ← v.record? ["name", "child_table", "depends_on", "error_log", "success_log", "steps"]
  return {
    name := ← required r "name" text?
    childTable := ← required r "child_table" path?
    dependsOn := ← required r "depends_on" (list? path?)
    errorLog := ← required r "error_log" path?
    successLog := ← required r "success_log" path?
    steps := ← required r "steps" (list? CheckStep.ofJson?) }

end CheckTask

namespace CheckPlan

def toJson (p : CheckPlan) : Json :=
  .obj [("plan_version", .str p.version), ("validation_dir", ofPath p.validationDir),
    ("tasks", .arr (p.tasks.map CheckTask.toJson))]

def ofJson? (v : Json) : Option CheckPlan := do
  let r ← v.record? ["plan_version", "validation_dir", "tasks"]
  return {
    version := ← required r "plan_version" text?
    validationDir := ← required r "validation_dir" path?
    tasks := ← required r "tasks" (list? CheckTask.ofJson?) }

end CheckPlan

end SchemaTables
