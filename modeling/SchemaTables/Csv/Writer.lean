import SchemaTables.Text.Search

/-!
Writing comma-separated tables. A quote inside a quoted field is written twice. Templates quote every
field; data quotes a field only where it would not be read back as it is. A record always ends with a
line feed.
-/

namespace SchemaTables.Csv

def quoteField (field : String) : String :=
  "\"" ++ String.ofList (Text.replaceAll ['"'] ['"', '"'] field.toList) ++ "\""

/-- Characters that a bare field cannot hold. -/
def isSpecial (c : Char) : Bool := c == ',' || c == '"' || c == '\n' || c == '\r'

/-- A field as data: quoted when it holds a special character. -/
def dataField (field : String) : String :=
  if field.toList.any isSpecial then quoteField field else field

/-- A record of data with one field, which is quoted when empty, for else the line would be empty. -/
def dataRecord (field : String) : String :=
  (if field.isEmpty then "\"\"" else dataField field) ++ "\n"

/-- The template of a table: its header with every field quoted. The header without any field is written
like the one with a single empty field. -/
def headerText (header : List String) : String :=
  (if header.isEmpty then "\"\"" else Text.joinWith "," (header.map quoteField)) ++ "\n"

end SchemaTables.Csv
