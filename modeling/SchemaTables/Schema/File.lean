import SchemaTables.Files.Whole
import SchemaTables.Schema.Source

/-!
Schemas in files. The extension of a file tells its format.
-/

namespace SchemaTables

/-- Why there is no schema in a file. -/
inductive SchemaFileError where
  | unknownFormat (path : Path)
  | file (cause : FileError)
  | source (cause : SourceError)
deriving DecidableEq, Repr

def SourceError.message : SourceError → String
  | malformed .yaml => "yaml error"
  | malformed .json | unreadable => "json error"
  | invalid report => "invalid schema document: " ++ report.text

def SchemaFileError.message : SchemaFileError → String
  | unknownFormat p => "unsupported schema document format: " ++ p.text
  | file cause => "io error: " ++ cause.message
  | source cause => cause.message

/-- Reads a schema from a file. -/
def Schema.load (p : Path) : Task SchemaFileError Schema := do
  match SourceFormat.ofPath? p with
  | none => throw (.unknownFormat p)
  | some format =>
    let text ← (Files.readText p).lift .file
    Task.ofExcept .source (read format text)

end SchemaTables
