import SchemaTables.Plan.Basic
import SchemaTables.Text.Search

/-!
A plan as rules for make. The target of a rule is the success log of its task, and its prerequisites are
the parent tables and the directory of the logs. The command of the checks is left to a variable.
-/

namespace SchemaTables

/-- A text between double quotes, for the shell. -/
def inQuotes (s : String) : String := "\"" ++ s ++ "\""

/-- The check of a step as a command. -/
def CheckStep.command (task : CheckTask) (s : CheckStep) : String :=
  let arguments := [task.childTable.text, s.childColumn, s.parentTable.text, s.parentColumn]
  "$(LIST_COLUMN_FOREIGN_KEY_CHECK) " ++ Text.joinWith " " (arguments.map inQuotes) ++
    match s.separator with
    | some sep => " --separator " ++ inQuotes sep
    | none => ""

/-- The recipe lines of a step: what is checked, and the check. -/
def CheckStep.recipe (task : CheckTask) (s : CheckStep) : List String :=
  ["\t@echo \"=============== Validating values in " ++ task.childTable.text ++ "['" ++ s.childColumn ++
      "'] ===============\"",
    "\t@RES=$$(" ++ s.command task ++ ") && echo \"$$RES\" || echo \"$$RES\" >> " ++
      inQuotes task.errorLog.text]

namespace CheckTask

/-- The line with the target and its prerequisites. -/
def ruleHead (p : CheckPlan) (t : CheckTask) : String :=
  t.successLog.text ++ ": " ++ Text.joinWith " " (t.dependsOn.map Path.text) ++ " " ++ p.validationDir.text

/-- The rule of a task. -/
def rule (p : CheckPlan) (t : CheckTask) : List String :=
  let error := inQuotes t.errorLog.text
  let success := inQuotes t.successLog.text
  [t.ruleHead p, "\t@rm -f " ++ error ++ " " ++ success] ++
  (t.steps.map (CheckStep.recipe t)).flatten ++
  ["\t@if [ -f " ++ error ++ " ]; then \\",
    "\t   echo \"\"; \\",
    "\t   echo \"Foreign Key errors detected:\"; \\",
    "\t   cat " ++ error ++ "; \\",
    "\t else \\",
    "\t   touch " ++ success ++ "; \\",
    "\t fi",
    "\t@echo \"\""]

end CheckTask

namespace CheckPlan

/-- A variable that lists paths. -/
def variableLine (name : String) (paths : List Path) : String :=
  name ++ ":= " ++ Text.joinWith " " (paths.map Path.text)

/-- The rules of a plan, after variables that list the logs. -/
def makefile (p : CheckPlan) : String :=
  let logs := [
    variableLine "MANUAL_FOREIGN_KEY_VALIDATION_LOGS\t\t\t" (p.tasks.map CheckTask.successLog),
    variableLine "MANUAL_FOREIGN_KEY_VALIDATION_LOGS_ERRORS\t" (p.tasks.map CheckTask.errorLog)]
  Text.joinWith "\n" (logs ++ (p.tasks.map fun t => "" :: t.rule p).flatten) ++ "\n"

end CheckPlan

end SchemaTables
