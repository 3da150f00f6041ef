import SchemaTables.Json.Parser
import SchemaTables.Schema.Document
import SchemaTables.Schema.Form
import SchemaTables.Yaml.Value

/-!
Schemas as texts, in one of two formats. A text is read as a document first, the document is held
against the published form, and only then are the fields read.
-/

namespace SchemaTables

/-- The format of a schema text. -/
inductive SourceFormat where
  | yaml
  | json
deriving DecidableEq, Repr

namespace SourceFormat

def name : SourceFormat → String
  | yaml => "yaml"
  | json => "json"

/-- The format that a file's extension tells, in whatever case. -/
def ofPath? (p : Path) : Option SourceFormat := do
  let ext := String.ofList ((← p.extension?).toList.map Char.toLower)
  if ext = "yaml" ∨ ext = "yml" then some yaml
  else if ext = "json" then some json
  else none

/-- Reads a text of this format as a document. -/
def parse : SourceFormat → String → Option Json
  | yaml, text => Yaml.parse text
  | json, text => Json.parse text

end SourceFormat

/-- Why a text is no schema. -/
inductive SourceError where
  /-- The text does not keep to its format. -/
  | malformed (format : SourceFormat)
  /-- The document does not keep to the form. -/
  | invalid (report : Report)
  /-- The document keeps to the form and has no reading all the same. -/
  | unreadable
deriving DecidableEq, Repr

/-- Reads a schema from a text. -/
def Schema.read (format : SourceFormat) (text : String) : Except SourceError Schema :=
  match format.parse text with
  | none => .error (.malformed format)
  | some v =>
    let report := review v
    if !report.isOk then .error (.invalid report)
    else match ofJson? v with
      | some s => .ok s
      | none => .error .unreadable

end SchemaTables
