import SchemaTables.Plan.Basic
import SchemaTables.Table.Document

/-!
Plans from checks. Checks of one child table, however its path is spelled, go into one task in the order
they come; tasks are ordered by child table. The logs of a task are named after the stem of its table.
-/

namespace SchemaTables

/-- The file stem of a table; a path without a file name has the empty stem. -/
def tableStem (table : Path) : String := table.fileStem?.getD ""

def logPath (validationDir table : Path) (ending : String) : Path :=
  validationDir.join ⟨tableStem table ++ "-csv-list-column-foreign-key" ++ ending⟩

def successLogPath (validationDir table : Path) : Path := logPath validationDir table ".success.log"

def errorLogPath (validationDir table : Path) : Path := logPath validationDir table ".err.log"

def ManualCheck.step (c : ManualCheck) : CheckStep :=
  ⟨c.childColumn, c.parentTable, c.parentColumn, c.separator⟩

/-- Adds a check to the group of its child table. -/
def addCheck (groups : List (Path × List ManualCheck)) (c : ManualCheck) : List (Path × List ManualCheck) :=
  let group := (Ordered.get? Path.compare groups c.childTable).getD []
  Ordered.put Path.compare c.childTable (group ++ [c]) groups

/-- The checks by child table. -/
def groupChecks (checks : List ManualCheck) : List (Path × List ManualCheck) := checks.foldl addCheck []

/-- The task of a child table. -/
def CheckTask.ofChecks (validationDir childTable : Path) (checks : List ManualCheck) : CheckTask where
  name := tableStem childTable
  childTable := childTable
  dependsOn := PathSet.ofLatest (checks.map ManualCheck.parentTable)
  errorLog := errorLogPath validationDir childTable
  successLog := successLogPath validationDir childTable
  steps := checks.map ManualCheck.step

def CheckPlan.ofChecks (checks : List ManualCheck) (validationDir : Path) : CheckPlan where
  version := planVersion
  validationDir := validationDir
  tasks := (groupChecks checks).map fun (table, checks) => .ofChecks validationDir table checks

end SchemaTables
