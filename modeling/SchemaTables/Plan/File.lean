import SchemaTables.Files.Whole
import SchemaTables.Json.Parser
import SchemaTables.Plan.Form

/-!
Plans in files.
-/

namespace SchemaTables

/-- Why there is no plan in a file. -/
inductive PlanError where
  | file (cause : FileError)
  | malformed
  | invalid (report : Report)
deriving DecidableEq, Repr

def PlanError.message : PlanError → String
  | file cause => "io error: " ++ cause.message
  | malformed => "json error"
  | invalid report => "invalid plan: " ++ report.text

/-- Reads a plan from a file, with its warnings. -/
def CheckPlan.load (p : Path) : Task PlanError (CheckPlan × List Issue) := do
  let text ← (Files.readText p).lift .file
  match Json.parse text with
  | none => throw .malformed
  | some document => Task.ofExcept .invalid (read document)

end SchemaTables
