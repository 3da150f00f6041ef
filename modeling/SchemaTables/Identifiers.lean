import SchemaTables.Check.Column
import SchemaTables.Csv.Writer

/-!
Identifier tables. The identifiers of several tables, which stand in their first columns, are put into
one table with a single column, sorted and each of them once. Blank cells are no identifiers.
-/

namespace SchemaTables

/-- Why an identifier table cannot be made. -/
inductive IdentifierError where
  | table (cause : TableError)
  | directory (cause : FileError)
  | output (cause : FileError)
deriving DecidableEq, Repr

def IdentifierError.message : IdentifierError → String
  | table cause => cause.message
  | directory cause => "io error: " ++ cause.message
  | output cause => "csv error: " ++ cause.message

/-- What making an identifier table came to. -/
structure IdentifierSummary where
  output : Path
  /-- The number of tables read. -/
  sources : Nat
  identifiers : Nat
deriving DecidableEq, Repr

namespace IdentifierSummary

def toJson (s : IdentifierSummary) : Json :=
  .obj [("output", Json.ofPath s.output), ("sources", Json.nat s.sources),
    ("identifiers", Json.nat s.identifiers)]

def text (s : IdentifierSummary) : String :=
  toString s.identifiers ++ " identifier(s) from " ++ toString s.sources ++ " table(s) written to " ++
    s.output.text

end IdentifierSummary

namespace Identifiers

/-- The identifiers among the cells of several columns, in increasing order. -/
def ofColumns (columns : List (List String)) : List String :=
  Ordered.ofList compare (columns.flatten.filter fun cell => !Text.allBlank cell)

/-- The table of identifiers. -/
def table (title : String) (identifiers : List String) : String :=
  String.join ((title :: identifiers).map Csv.dataRecord)

/-- Makes the identifier table of several tables. All of them are read before anything is written. -/
def unite (inputs : List Path) (output : Path) (title : String) :
    Task IdentifierError IdentifierSummary := do
  let columns ← inputs.mapM fun p => (Check.readFirstColumn p).lift .table
  let identifiers := ofColumns columns
  (Files.makeParent output).lift .directory
  (Files.writeText output (table title identifiers)).lift .output
  return { output := output, sources := inputs.length, identifiers := identifiers.length }

end Identifiers

end SchemaTables
