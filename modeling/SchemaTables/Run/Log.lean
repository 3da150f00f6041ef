import SchemaTables.Run.Directory

/-!
The log of a run: one line for each event, a document with the level and the fields of the event. A log
that cannot be written to does not stop a run.
-/

namespace SchemaTables

inductive Level where
  | info
  | warning
deriving DecidableEq, Repr

def Level.name : Level → String
  | info => "INFO"
  | warning => "WARN"

/-- What a run tells of itself. -/
inductive Event where
  | started (runId command : String)
  | schemaLoaded (name : String) (classes : Nat)
  | planWarning (text : String)
  /-- A run that generates files ends well; its time is told. -/
  | generated (durationMs : Nat)
  | finished
  /-- Values are missing from a column. -/
  | missingValues (count : Nat)
  | failedTasks (count : Nat)
deriving DecidableEq, Repr

namespace Event

def level : Event → Level
  | planWarning _ | missingValues _ | failedTasks _ => .warning
  | _ => .info

def name : Event → String
  | started .. => "run_started"
  | schemaLoaded .. => "schema_loaded"
  | planWarning _ => "plan_warning"
  | generated _ | finished | missingValues _ | failedTasks _ => "run_finished"

/-- The fields after the name. -/
def fields : Event → List (String × Json)
  | started runId command => [("run_id", .str runId), ("command", .str command)]
  | schemaLoaded name classes => [("schema", .str name), ("classes", .nat classes)]
  | planWarning text => [("warning", .str text)]
  | generated durationMs => [("status", .str "success"), ("duration_ms", .nat durationMs)]
  | finished => [("status", .str "success")]
  | missingValues count => [("status", .str "failed"), ("missing", .nat count)]
  | failedTasks count => [("status", .str "failed"), ("failed_tasks", .nat count)]

def toJson (e : Event) : Json :=
  .obj [("level", .str e.level.name), ("fields", .obj (("event", .str e.name) :: e.fields))]

end Event

namespace Log

/-- Starts logging to a file, unless the program has a log already. -/
def start (p : Path) (isLogging : Bool) : Task RecordingError Unit := do
  Task.request .file (.touch p)
  if isLogging then throw .secondLog

/-- Adds an event to a log. -/
def add {ε : Type} (p : Path) (e : Event) : Task ε Unit := do
  let _ ← ExceptT.lift (Files.addLine p e.toJson.compact).run
  return ()

end Log

end SchemaTables
