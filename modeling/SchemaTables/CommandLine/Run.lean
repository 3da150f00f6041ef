import SchemaTables.Check.Run
import SchemaTables.CommandLine.Command
import SchemaTables.CommandLine.Help
import SchemaTables.Configuration
import SchemaTables.Generation
import SchemaTables.Identifiers
import SchemaTables.Plan.File
import SchemaTables.Run.Log
import SchemaTables.Schema.File

/-!
Running commands. A command that works on tables or schemas keeps a record: its directory and its log
are made before anything else is read or written, but for the configuration. It ends with a text and
tells whether everything passed, or with an error.
-/

namespace SchemaTables

/-- What differs from one run to the next. -/
structure Circumstances where
  startedAt : Moment
  runId : String
  /-- The name of the run in the report of what it did. -/
  reportId : String
  /-- Another log is being written. -/
  isLogging : Bool := false

/-- Why a command fails. -/
inductive CommandError where
  | configuration
  | recording (cause : RecordingError)
  | schema (cause : SchemaFileError)
  | generation (cause : GenerationError)
  | table (cause : TableError)
  | identifiers (cause : IdentifierError)
  | plan (cause : PlanError)
  | file (cause : FileError)
deriving DecidableEq, Repr

def CommandError.message : CommandError → String
  | configuration => "invalid configuration"
  | recording cause => "registry error: " ++ cause.message
  | schema cause => cause.message
  | generation cause => cause.message
  | table cause => cause.message
  | identifiers cause => cause.message
  | plan cause => cause.message
  | file cause => "io error: " ++ cause.message

/-- How a command ends. -/
structure Ending where
  text : String
  /-- Whether all checks passed. -/
  passed : Bool := true
deriving DecidableEq, Repr

/-- The form of a kind of document. -/
def DocumentKind.form : DocumentKind → Json
  | model => Schema.formDocument
  | plan => CheckPlan.formDocument

/-- Reads the options in a file; without a file they are the defaults. -/
def Options.load (p : Path) : Task CommandError Options := do
  if ← Task.request .file (.isThere p) then
    let text ← (Files.readText p).lift .file
    match read text with
    | some o => return o
    | none => throw .configuration
  else return {}

/-- Starts the record of a run. -/
def RunStart.open (s : RunStart) (isLogging : Bool) : Task CommandError RunFiles := do
  let r ← s.begin.lift .recording
  (Log.start r.log isLogging).lift .recording
  Log.add r.log (.started s.runId s.command)
  return r

namespace Circumstances

def start (c : Circumstances) (command : String) (runDir : Path) (input : Option Path)
    (options : Json) : RunStart :=
  ⟨c.runId, c.startedAt, command, runDir, input, options⟩

end Circumstances

namespace Command

open CommandLine

/-- Generates the files of a schema. -/
def runGenerate (c : Circumstances) (configuration runDir schema : Path) (outDir : Option Path) :
    Task CommandError Ending := do
  let options ← Options.load configuration
  let options := { options with outDir := outDir.getD options.outDir }
  let r ← (c.start generateForm.name runDir (some schema) options.toJson).open c.isLogging
  let start ← Task.elapsed
  let s ← (Schema.load schema).lift .schema
  Log.add r.log (.schemaLoaded s.name s.classes.length)
  let summary ← (s.generate options c.reportId).lift .generation
  (r.writeReport summary.toJson).lift .recording
  Log.add r.log (.generated ((← Task.elapsed) - start))
  return { text := summary.text options.outDir }

/-- Checks a column against another. -/
def runCheck (c : Circumstances) (runDir : Path) (q : CheckRequest) : Task CommandError Ending := do
  let r ← (c.start checkForm.name runDir none q.toJson).open c.isLogging
  let outcome ← (Check.columns q.childTable q.childColumn q.parentTable q.parentColumn
    (some q.separator)).lift .table
  (r.writeReport outcome.toJson).lift .recording
  Log.add r.log (if outcome.passed then .finished else .missingValues outcome.missing.length)
  return { text := outcome.text, passed := outcome.passed }

/-- Runs the tasks of a plan. -/
def runCheckPlan (c : Circumstances) (runDir : Path) (q : PlanRequest) : Task CommandError Ending := do
  let r ← (c.start checkPlanForm.name runDir (some q.plan) q.toJson).open c.isLogging
  let (plan, warnings) ← (CheckPlan.load q.plan).lift .plan
  warnings.forM fun w => Log.add r.log (.planWarning w.text)
  let outcome ← (plan.run q.dataDir c.reportId).lift .file
  (r.writeReport outcome.toJson).lift .recording
  let report ← (r.writeMarkdown "check_report.md" (outcome.markdown q.maxExamples)).lift .recording
  let failed := outcome.failedTasks.length
  Log.add r.log (if failed = 0 then .finished else .failedTasks failed)
  let messages := (outcome.tasks.map fun t => t.failures.map StepFailure.message).flatten
  let total := outcome.tasks.length
  let last := toString (total - failed) ++ " of " ++ toString total ++ " task(s) passed; report at " ++
    report.text
  return { text := Text.joinWith "\n" (messages ++ [last]), passed := failed = 0 }

/-- Makes an identifier table. -/
def runUnite (c : Circumstances) (runDir : Path) (q : IdentifierRequest) :
    Task CommandError Ending := do
  let r ← (c.start uniteForm.name runDir none q.toJson).open c.isLogging
  let summary ← (Identifiers.unite q.inputs q.output q.title).lift .identifiers
  (r.writeReport summary.toJson).lift .recording
  Log.add r.log .finished
  return { text := summary.text }

/-- Shows the form of a kind of document, or writes it to a file. Nothing is recorded. -/
def runShowForm (kind : DocumentKind) : Option Path → Task CommandError (Option Ending)
  | none => return some { text := kind.form.report }
  | some p => do
    (Files.makeParent p).lift .file
    (Files.writeText p (kind.form.report ++ "\n")).lift .file
    return none

end Command

/-- Runs a command; one that has nothing to say ends without a text. -/
def Invocation.run (i : Invocation) (c : Circumstances) : Task CommandError (Option Ending) :=
  match i.command with
  | .generate schema outDir => some <$> Command.runGenerate c i.configuration i.runDir schema outDir
  | .check q => some <$> Command.runCheck c i.runDir q
  | .checkPlan q => some <$> Command.runCheckPlan c i.runDir q
  | .uniteIdentifiers q => some <$> Command.runUnite c i.runDir q
  | .showForm kind output => Command.runShowForm kind output

namespace CommandLine

/-- What a command line comes to. -/
inductive Answer where
  /-- The words do not keep to the form. -/
  | usage
  | failed (cause : CommandError)
  /-- No command is given; the help goes where errors go. -/
  | help (text : String)
  | finished (ending : Option Ending)
deriving DecidableEq, Repr

namespace Answer

/-- Zero when all went well, one when a check did not pass, two after an error. -/
def exitCode : Answer → Nat
  | usage | failed _ | help _ => 2
  | finished (some e) => if e.passed then 0 else 1
  | finished none => 0

def output : Answer → String
  | finished (some e) => e.text ++ "\n"
  | _ => ""

def errors : Answer → String
  | usage => "error: the arguments do not fit\n\n" ++ program.help ++ "\n"
  | failed cause => "error: " ++ cause.message ++ "\n"
  | help text => text ++ "\n"
  | finished _ => ""

end Answer

/-- The help on a topic. -/
def topicHelp : Option CommandForm → String
  | none => program.help
  | some c => if c = helpCommand then program.helpOnHelp else program.commandHelp c

/-- What the end of the reading comes to. -/
def Stop.answer : Stop → Answer
  | usage => .usage
  | empty => .help program.help
  | help topic => .finished (some { text := topicHelp topic })
  | version => .finished (some { text := program.name ++ " " ++ program.version })

/-- Reads the words of a command line and runs the command. -/
def run (words : List String) (c : Circumstances) : Script Answer :=
  match invocation words with
  | .error stop => .done stop.answer
  | .ok i => do
    match ← (i.run c).run with
    | .ok ending => return .finished ending
    | .error cause => return .failed cause

end CommandLine

end SchemaTables
