import SchemaTables.Json.Record
import SchemaTables.Text.Search

/-!
What checks find. The outcome of one check lists the values that are missing; the outcome of a task
lists the steps that failed, and the run of a plan has one outcome for each task.
-/

namespace SchemaTables

open Json

structure CheckOutcome where
  childTable : Path
  childColumn : String
  parentTable : Path
  parentColumn : String
  /-- The values of the child column that the parent column lacks, in increasing order. -/
  missing : List String
deriving DecidableEq, Repr

/-- A step that did not pass: values are missing, or a table could not be read. -/
structure StepFailure where
  childColumn : String
  parentTable : Path
  parentColumn : String
  missing : List String := []
  message : String
deriving DecidableEq, Repr

structure TaskOutcome where
  name : String
  childTable : Path
  /-- The number of steps. -/
  steps : Nat
  failures : List StepFailure
  errorLog : Path
  successLog : Path
deriving DecidableEq, Repr

structure PlanOutcome where
  runId : String
  tasks : List TaskOutcome
  durationMs : Nat
deriving DecidableEq, Repr

/-- A column of a table in a message. -/
def columnText (table : Path) (column : String) : String := table.text ++ "['" ++ column ++ "']"

namespace CheckOutcome

def passed (o : CheckOutcome) : Bool := o.missing.isEmpty

def text (o : CheckOutcome) : String :=
  if o.passed then
    "All values found in " ++ columnText o.childTable o.childColumn ++ " appear to be valid."
  else
    "Unexpected values found in " ++ columnText o.childTable o.childColumn ++ " but not in " ++
      columnText o.parentTable o.parentColumn ++ ":" ++
      String.join (o.missing.map fun v => "\n'" ++ v ++ "'")

def toJson (o : CheckOutcome) : Json :=
  .obj [("child_table", ofPath o.childTable), ("child_column", .str o.childColumn),
    ("parent_table", ofPath o.parentTable), ("parent_column", .str o.parentColumn),
    ("missing", texts o.missing)]

def ofJson? (v : Json) : Option CheckOutcome := do
  let r ← v.record? ["child_table", "child_column", "parent_table", "parent_column", "missing"]
  return {
    childTable := ← required r "child_table" path?
    childColumn := ← required r "child_column" text?
    parentTable := ← required r "parent_table" path?
    parentColumn := ← required r "parent_column" text?
    missing := ← required r "missing" (list? text?) }

end CheckOutcome

namespace StepFailure

def toJson (f : StepFailure) : Json :=
  .obj ([("child_column", .str f.childColumn), ("parent_table", ofPath f.parentTable),
    ("parent_column", .str f.parentColumn)] ++ whenAny "missing" .str f.missing ++
    [("message", .str f.message)])

def ofJson? (v : Json) : Option StepFailure := do
  let r ← v.record? ["child_column", "parent_table", "parent_column", "missing", "message"]
  return {
    childColumn := ← required r "child_column" text?
    parentTable := ← required r "parent_table" path?
    parentColumn := ← required r "parent_column" text?
    missing := ← withDefault r "missing" [] (list? text?)
    message := ← required r "message" text? }

/-- The missing values up to a number of them, or else the message. -/
def detail (f : StepFailure) (maxExamples : Nat) : String :=
  if f.missing.isEmpty then f.message
  else
    let shown := (f.missing.take maxExamples).map fun v => "`" ++ v ++ "`"
    let more := f.missing.length - shown.length
    "missing " ++ Text.joinWith ", " shown ++
      if more = 0 then "" else " (+" ++ toString more ++ " more)"

end StepFailure

namespace TaskOutcome

def passed (t : TaskOutcome) : Bool := t.failures.isEmpty

def toJson (t : TaskOutcome) : Json :=
  .obj [("name", .str t.name), ("child_table", ofPath t.childTable), ("steps", nat t.steps),
    ("failures", .arr (t.failures.map StepFailure.toJson)), ("error_log", ofPath t.errorLog),
    ("success_log", ofPath t.successLog)]

def ofJson? (v : Json) : Option TaskOutcome := do
  let r ← v.record? ["name", "child_table", "steps", "failures", "error_log", "success_log"]
  return {
    name := ← required r "name" text?
    childTable := ← required r "child_table" path?
    steps := ← required r "steps" natural?
    failures := ← required r "failures" (list? StepFailure.ofJson?)
    errorLog := ← required r "error_log" path?
    successLog := ← required r "success_log" path? }

/-- The row of a task in the summary. -/
def row (t : TaskOutcome) : String :=
  "| " ++ Text.joinWith " | " [t.name, t.childTable.text, toString t.steps, toString t.failures.length,
    if t.passed then "pass" else "fail"] ++ " |"

/-- A line for each failure. -/
def failureLines (t : TaskOutcome) (maxExamples : Nat) : List String :=
  t.failures.map fun f =>
    "- " ++ columnText t.childTable f.childColumn ++ " -> " ++ columnText f.parentTable f.parentColumn ++
      ": " ++ f.detail maxExamples

end TaskOutcome

namespace PlanOutcome

def failedTasks (o : PlanOutcome) : List TaskOutcome := o.tasks.filter (!·.passed)

def passed (o : PlanOutcome) : Bool := o.tasks.all TaskOutcome.passed

def toJson (o : PlanOutcome) : Json :=
  .obj [("run_id", .str o.runId), ("tasks", .arr (o.tasks.map TaskOutcome.toJson)),
    ("duration_ms", nat o.durationMs)]

def ofJson? (v : Json) : Option PlanOutcome := do
  let r ← v.record? ["run_id", "tasks", "duration_ms"]
  return {
    runId := ← required r "run_id" text?
    tasks := ← required r "tasks" (list? TaskOutcome.ofJson?)
    durationMs := ← required r "duration_ms" natural? }

/-- The section on failures; there is none when everything passed. -/
def failureSection (o : PlanOutcome) (maxExamples : Nat) : List String :=
  if o.failedTasks.isEmpty then []
  else ["## Failures"] ++ (o.failedTasks.map fun t => t.failureLines maxExamples).flatten ++ [""]

/-- A summary for readers, with at most `maxExamples` missing values for each failure. -/
def markdown (o : PlanOutcome) (maxExamples : Nat) : String :=
  Text.joinWith "\n" (
    ["# Foreign Key Check Report", "", "## Run summary", "- run_id: " ++ o.runId,
      "- tasks: " ++ toString o.tasks.length, "- failed: " ++ toString o.failedTasks.length, "",
      "## Tasks", "| task | child_table | steps | failures | status |",
      "| --- | --- | --- | --- | --- |"] ++
    o.tasks.map TaskOutcome.row ++ [""] ++ o.failureSection maxExamples)

end PlanOutcome

end SchemaTables
