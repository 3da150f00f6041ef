import SchemaTables.CommandLine.Reader
import SchemaTables.Path.Basic
import SchemaTables.Run.Directory

/-!
The commands of the program, and their forms on the command line.
-/

namespace SchemaTables

/-- The documents that have a published form. -/
inductive DocumentKind where
  | model
  | plan
deriving DecidableEq, Repr

def DocumentKind.ofText? (text : String) : Option DocumentKind :=
  if text = "model" then some model else if text = "plan" then some plan else none

/-- The check of a column against another. -/
structure CheckRequest where
  childTable : Path
  childColumn : String
  parentTable : Path
  parentColumn : String
  separator : String
deriving DecidableEq, Repr

structure PlanRequest where
  plan : Path
  dataDir : Path
  maxExamples : Nat
deriving DecidableEq, Repr

structure IdentifierRequest where
  inputs : List Path
  output : Path
  title : String
deriving DecidableEq, Repr

inductive Command where
  | generate (schema : Path) (outDir : Option Path)
  | check (request : CheckRequest)
  | checkPlan (request : PlanRequest)
  | uniteIdentifiers (request : IdentifierRequest)
  | showForm (kind : DocumentKind) (output : Option Path)
deriving DecidableEq, Repr

/-- A command with what every command has. -/
structure Invocation where
  configuration : Path
  runDir : Path
  isVerbose : Bool
  command : Command
deriving DecidableEq, Repr

namespace CheckRequest

def toJson (r : CheckRequest) : Json :=
  .obj [("child_table", Json.ofPath r.childTable), ("child_column", .str r.childColumn),
    ("parent_table", Json.ofPath r.parentTable), ("parent_column", .str r.parentColumn),
    ("separator", .str r.separator)]

end CheckRequest

namespace PlanRequest

def toJson (r : PlanRequest) : Json :=
  .obj [("plan", Json.ofPath r.plan), ("data_dir", Json.ofPath r.dataDir),
    ("max_examples", .nat r.maxExamples)]

end PlanRequest

namespace IdentifierRequest

def toJson (r : IdentifierRequest) : Json :=
  .obj [("inputs", .arr (r.inputs.map Json.ofPath)), ("out", Json.ofPath r.output),
    ("id_title", .str r.title)]

end IdentifierRequest

namespace CommandLine

/-! Options of every command -/

def configurationOption : OptionForm where
  long := "config"
  effect := .takesValue "CONFIG" .path
  help := "Configuration file with generator options"
  default := some "tablewright.toml"

def runDirOption : OptionForm where
  long := "run-dir"
  effect := .takesValue "RUN_DIR" .path
  help := "Directory receiving one sub-directory per run"
  default := some "runs"

def verboseOption : OptionForm where
  long := "verbose"
  short := some 'v'
  effect := .sets
  help := "Log at debug level"

/-! Commands -/

def outDirOption : OptionForm where
  long := "out-dir"
  effect := .takesValue "OUT_DIR" .path
  help := "Output root, overriding the configuration file"

def generateForm : CommandForm where
  name := "generate"
  about := "Compile a schema document into CSV templates and table schemas"
  options := [outDirOption]
  arguments := [⟨"SCHEMA", .path, "Schema document (YAML or JSON)", false, false⟩]

def separatorOption : OptionForm where
  long := "separator"
  short := some 's'
  effect := .takesValue "SEPARATOR" .text
  help := "Separates the values inside a child cell"
  default := some "|"

def checkForm : CommandForm where
  name := "check"
  about := "Check one list column against a parent table column"
  options := [separatorOption]
  arguments := [⟨"CHILD_TABLE", .path, "", false, false⟩, ⟨"CHILD_COLUMN", .text, "", false, false⟩,
    ⟨"PARENT_TABLE", .path, "", false, false⟩, ⟨"PARENT_COLUMN", .text, "", false, false⟩]

def dataDirOption : OptionForm where
  long := "data-dir"
  effect := .takesValue "DATA_DIR" .path
  help := "Root the plan's paths are relative to"
  default := some "."

def maxExamplesOption : OptionForm where
  long := "max-examples"
  effect := .takesValue "MAX_EXAMPLES" .count
  help := "Missing values listed per failure in the report"
  default := some "20"

def checkPlanForm : CommandForm where
  name := "check-plan"
  about := "Run every task of a manual foreign-key check plan"
  options := [dataDirOption, maxExamplesOption]
  arguments := [⟨"PLAN", .path, "Plan document, e.g. `remote/foreign-keys.plan.json`", false, false⟩]

def unionOutputOption : OptionForm where
  long := "out"
  short := some 'o'
  effect := .takesValue "OUT" .path
  isRequired := true

def titleOption : OptionForm where
  long := "id-title"
  effect := .takesValue "ID_TITLE" .text
  help := "Header of the output column"
  default := some "Permanent Identifier*"

def uniteForm : CommandForm where
  name := "union-ids"
  about := "Union the first column of several tables into one identifier table"
  options := [unionOutputOption, titleOption]
  arguments := [⟨"INPUTS", .path, "Tables whose first column holds identifiers", true, false⟩]

def formOutputOption : OptionForm where
  long := "out"
  effect := .takesValue "OUT" .path
  help := "Write to a file instead of stdout"

def showFormForm : CommandForm where
  name := "schema"
  about := "Print the JSON Schema of an input contract"
  options := [formOutputOption]
  arguments := [⟨"KIND", .choice ["model", "plan"], "", false, false⟩]

def program : ProgramForm where
  name := "tablewright"
  version := programVersion
  about := "Compile class schemas into CSV table templates"
  options := [configurationOption, runDirOption, verboseOption]
  commands := [generateForm, checkForm, checkPlanForm, uniteForm, showFormForm]

namespace Matched

def path? (m : Matched) (o : OptionForm) : Option Path := (m.value? o).map Path.mk

/-- The command of a matched command line. -/
def command? (m : Matched) : Option Command :=
  if m.command = generateForm then
    match m.arguments with
    | [schema] => some (.generate ⟨schema⟩ (m.path? outDirOption))
    | _ => none
  else if m.command = checkForm then
    match m.arguments, m.value? separatorOption with
    | [childTable, childColumn, parentTable, parentColumn], some separator =>
      some (.check ⟨⟨childTable⟩, childColumn, ⟨parentTable⟩, parentColumn, separator⟩)
    | _, _ => none
  else if m.command = checkPlanForm then
    match m.arguments, m.path? dataDirOption, (m.value? maxExamplesOption).bind ValueKind.count? with
    | [plan], some dataDir, some maxExamples => some (.checkPlan ⟨⟨plan⟩, dataDir, maxExamples⟩)
    | _, _, _ => none
  else if m.command = uniteForm then
    match m.path? unionOutputOption, m.value? titleOption with
    | some output, some title => some (.uniteIdentifiers ⟨m.arguments.map Path.mk, output, title⟩)
    | _, _ => none
  else if m.command = showFormForm then
    match m.arguments with
    | [kind] => (DocumentKind.ofText? kind).map fun k => .showForm k (m.path? formOutputOption)
    | _ => none
  else none

def invocation? (m : Matched) : Option Invocation := do
  return {
    configuration := ← m.path? configurationOption
    runDir := ← m.path? runDirOption
    isVerbose := m.isSet verboseOption
    command := ← m.command? }

end Matched

/-- Reads the words of a command line. -/
def invocation (words : List String) : Except Stop Invocation := do
  let m ← read program words
  match m.invocation? with
  | some i => return i
  | none => throw .usage

end CommandLine

end SchemaTables
