import SchemaTables.Schema.Error
import SchemaTables.Text.Blank

/-!
The kinds of literal values that a table can hold. A literal type names its kind in one of several
spellings; case and surrounding space do not matter, and a type that names none holds texts.
-/

namespace SchemaTables

inductive BaseKind where
  | string
  | uri
  | date
  | dateTime
  | int
  | decimal
deriving DecidableEq, Repr

namespace BaseKind

def name : BaseKind → String
  | string => "string"
  | uri => "uri"
  | date => "date"
  | dateTime => "date_time"
  | int => "int"
  | decimal => "decimal"

/-- Plain names, and the names that the schema language uses for them. -/
def parse? (raw : String) : Option BaseKind :=
  match String.ofList ((Text.trimmed raw.toList).map Char.toLower) with
  | "str" | "string" => some string
  | "uri" => some uri
  | "xsddate" | "date" => some date
  | "xsddatetime" | "datetime" => some dateTime
  | "int" => some int
  | "decimal" => some decimal
  | _ => none

end BaseKind

/-- An unknown kind is an error, so that a slip of the pen does not turn into free text. -/
def LiteralType.kind (t : LiteralType) : Except SchemaError BaseKind :=
  let raw := t.base.getD "str"
  match BaseKind.parse? raw with
  | some k => .ok k
  | none => .error (.unsupportedBase raw t.name)

end SchemaTables
