import SchemaTables.Check.Column
import SchemaTables.Plan.Basic

/-!
Running the tasks of a plan. A task begins without logs; every step that fails adds its message to the
error log, and when none failed there is an empty success log. A failing step stops nothing. Only logs
that cannot be written or removed end the run.
-/

namespace SchemaTables

namespace CheckStep

def failure (s : CheckStep) (missing : List String) (message : String) : StepFailure where
  childColumn := s.childColumn
  parentTable := s.parentTable
  parentColumn := s.parentColumn
  missing := missing
  message := message

/-- What is wrong with the result of the check of a step. -/
def failure? (s : CheckStep) : Except TableError CheckOutcome → Option StepFailure
  | .ok outcome => if outcome.passed then none else some (s.failure outcome.missing outcome.text)
  | .error e => some (s.failure [] e.message)

/-- Runs the check of a step; nothing is the answer when it passes. -/
def run (s : CheckStep) (dataDir childTable : Path) : Script (Option StepFailure) := do
  let result ← (Check.columns childTable s.childColumn (dataDir.join s.parentTable) s.parentColumn
    s.separator).run
  return s.failure? result

end CheckStep

namespace CheckTask

/-- Runs a step and logs its failure. -/
def runStep (dataDir childTable errorLog : Path) (s : CheckStep) :
    Task FileError (Option StepFailure) := do
  match ← ExceptT.lift (s.run dataDir childTable) with
  | none => return none
  | some failure =>
    Files.makeParent errorLog
    Files.addLine errorLog failure.message
    return some failure

def run (t : CheckTask) (dataDir : Path) : Task FileError TaskOutcome := do
  let errorLog := dataDir.join t.errorLog
  let successLog := dataDir.join t.successLog
  Files.removeIfThere errorLog
  Files.removeIfThere successLog
  let failures ← t.steps.mapM (runStep dataDir (dataDir.join t.childTable) errorLog)
  let failures := failures.filterMap id
  if failures.isEmpty then
    Files.makeParent successLog
    Files.writeText successLog ""
  return {
    name := t.name
    childTable := t.childTable
    steps := t.steps.length
    failures := failures
    errorLog := t.errorLog
    successLog := t.successLog }

end CheckTask

/-- Runs the tasks of a plan on the tables in a directory, one after the other. -/
def CheckPlan.run (p : CheckPlan) (dataDir : Path) (runId : String) : Task FileError PlanOutcome := do
  let start ← Task.elapsed
  Files.makeDirectories (dataDir.join p.validationDir)
  let tasks ← p.tasks.mapM fun t => t.run dataDir
  return { runId := runId, tasks := tasks, durationMs := (← Task.elapsed) - start }

end SchemaTables
