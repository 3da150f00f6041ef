import SchemaTables.Csv.Writer
import SchemaTables.Descriptions
import SchemaTables.Json.Printer
import SchemaTables.Plan.Build
import SchemaTables.Plan.Makefile
import SchemaTables.Schema.Validity
import SchemaTables.Table.Metadata

/-!
The compilation of a schema: every table class becomes a table, the dependencies of the tables are
closed, and from both come the metadata, the plan of checks with its make rules, and the reference
document. All of it is a value; nothing is written here.
-/

namespace SchemaTables

/-- Why a compilation fails. -/
inductive CompileError where
  | schema (cause : SchemaError)
  | divergence (limit : Nat)
  /-- The remote directory lies outside the output directory. -/
  | remoteDir (dir : Path)
deriving DecidableEq, Repr

namespace CompileError

/-- Faults of the schema, as opposed to faults of the options. -/
def isSchemaError : CompileError → Bool
  | schema _ | divergence _ => true
  | remoteDir _ => false

def message : CompileError → String
  | schema cause => cause.message
  | divergence limit =>
    "dependency closure did not converge within " ++ toString limit ++ " passes"
  | remoteDir dir =>
    "invalid options: remote_dir '" ++ dir.text ++
      "' must be a relative path inside the output directory"

end CompileError

structure Artifacts where
  options : Options
  schemaName : String
  tables : List CompiledTable
  graph : DependencyGraph
  passes : Nat
  plan : CheckPlan
  descriptions : String

/-- The sizes of a compiled table. -/
structure TableSummary where
  className : String
  columns : Nat
  virtualColumns : Nat
  foreignKeys : Nat
  manualChecks : Nat
  dependencies : Nat
deriving DecidableEq, Repr

def TableSummary.toJson (s : TableSummary) : Json :=
  .obj [("class_name", .str s.className), ("columns", .nat s.columns),
    ("virtual_columns", .nat s.virtualColumns), ("foreign_keys", .nat s.foreignKeys),
    ("manual_checks", .nat s.manualChecks), ("dependencies", .nat s.dependencies)]

/-- The dependencies of the tables before they are closed. -/
def directDependencies (tables : List CompiledTable) : DependencyGraph :=
  tables.foldl
    (fun g t => t.dependencies.foldl (fun g p => g.add t.className p) (g.register t.className t.csvPath))
    .empty

/-- Compiles a schema. -/
def compile (o : Options) (s : Schema) : Except CompileError Artifacts := do
  if o.remoteDir.escapesRoot then throw (.remoteDir o.remoteDir)
  let view ← (View.ofSchema s).mapError .schema
  (view.validate o.syntheticNames).mapError .schema
  let job : Job := ⟨view, o⟩
  let tables ← (view.tableClasses.mapM job.compileTable).mapError .schema
  match (directDependencies tables).close o.passLimit with
  | (.diverged, _) => throw (.divergence o.passLimit)
  | (.settled passes, graph) =>
    let descriptions ← job.descriptions.mapError .schema
    return {
      options := o
      schemaName := s.name
      tables := tables
      graph := graph
      passes := passes
      plan := .ofChecks (tables.map CompiledTable.manualChecks).flatten o.validationDir
      descriptions := descriptions }

namespace Artifacts

def manualChecks (a : Artifacts) : List ManualCheck := (a.tables.map CompiledTable.manualChecks).flatten

def table? (a : Artifacts) (cls : String) : Option CompiledTable := a.tables.find? (·.className == cls)

def locations (a : Artifacts) : List TableLocation := a.tables.map CompiledTable.toTableLocation

def metadata (a : Artifacts) (t : TableLocation) : Metadata := t.metadata a.locations a.options a.graph

def summary (a : Artifacts) (t : CompiledTable) : TableSummary where
  className := t.className
  columns := (t.schema.columns.filter (!·.isVirtual)).length
  virtualColumns := (t.schema.columns.filter Column.isVirtual).length
  foreignKeys := (t.schema.foreignKeys.getD []).length
  manualChecks := t.manualChecks.length
  dependencies := ((a.graph.dependencies? t.className).getD []).length

/-- The files of one table. -/
def tableFiles (a : Artifacts) (t : CompiledTable) : List (Path × String) :=
  [(t.csvPath, Csv.headerText t.header), (t.schemaPath, t.schema.toJson.document),
    (t.metadataPath, (a.metadata t.toTableLocation).toJson.document)]

/-- Every file with its path relative to the output directory, in the order they are written. -/
def files (a : Artifacts) : List (Path × String) :=
  (a.tables.map a.tableFiles).flatten ++
  (a.options.syntheticSchemas.map fun (path, schema) => (path, schema.toJson.document)) ++
  [(a.options.planPath, a.plan.toJson.document), (a.options.makefilePath, a.plan.makefile),
    (Options.descriptionsPath, a.descriptions)]

end Artifacts

end SchemaTables
