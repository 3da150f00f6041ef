import SchemaTables.Artifacts
import SchemaTables.Files.Whole

/-!
Compiling a schema into files. The whole compilation comes first, so a schema or options with a fault
leave every file as it is; then each file is replaced as a whole.
-/

namespace SchemaTables

/-- Why files cannot be generated. -/
inductive GenerationError where
  | compile (cause : CompileError)
  | file (cause : FileError)
deriving DecidableEq, Repr

namespace GenerationError

/-- Faults of the schema, as opposed to faults of options or files. -/
def isSchemaError : GenerationError → Bool
  | compile cause => cause.isSchemaError
  | file _ => false

def message : GenerationError → String
  | compile cause => cause.message
  | file cause => "io error: " ++ cause.message

end GenerationError

structure GenerationSummary where
  runId : String
  schemaName : String
  tables : List TableSummary
  passes : Nat
  tasks : Nat
  /-- The files written, relative to the output directory. -/
  files : List Path
  bytes : Nat
  durationMs : Nat
deriving DecidableEq, Repr

namespace GenerationSummary

def toJson (s : GenerationSummary) : Json :=
  .obj [("run_id", .str s.runId), ("schema_name", .str s.schemaName),
    ("tables", .arr (s.tables.map TableSummary.toJson)), ("closure_passes", .nat s.passes),
    ("check_tasks", .nat s.tasks), ("files", .arr (s.files.map Json.ofPath)),
    ("bytes_written", .nat s.bytes), ("duration_ms", .nat s.durationMs)]

def text (s : GenerationSummary) (outDir : Path) : String :=
  "generated " ++ toString s.tables.length ++ " table(s), " ++ toString s.tasks ++
    " check task(s), " ++ toString s.files.length ++ " file(s) under " ++ outDir.text

end GenerationSummary

namespace Artifacts

/-- Writes every file below a directory and gives the number of bytes. -/
def write (a : Artifacts) (outDir : Path) : Task FileError Nat := do
  let sizes ← a.files.mapM fun (path, text) =>
    Files.replace (outDir.join path) (Text.Utf8.encode text)
  return sizes.foldl (· + ·) 0

end Artifacts

/-- Compiles a schema and writes its files. -/
def Schema.generate (s : Schema) (o : Options) (runId : String) :
    Task GenerationError GenerationSummary := do
  let start ← Task.elapsed
  let a ← Task.ofExcept .compile (compile o s)
  let bytes ← (a.write o.outDir).lift .file
  return {
    runId := runId
    schemaName := a.schemaName
    tables := a.tables.map a.summary
    passes := a.passes
    tasks := a.plan.tasks.length
    files := a.files.map (·.1)
    bytes := bytes
    durationMs := (← Task.elapsed) - start }

end SchemaTables
