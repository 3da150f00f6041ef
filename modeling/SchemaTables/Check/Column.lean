import SchemaTables.Check.Outcome
import SchemaTables.Csv.Reader
import SchemaTables.Files.Whole
import SchemaTables.Text.Blank

/-!
Checks of one column against another. A column is found by its heading. Every value of the child column
that is not blank has to be a cell of the parent column; a cell of the child column is one value, or
several with a separator between them.
-/

namespace SchemaTables

/-- Why a column of a table cannot be read. -/
inductive TableError where
  | cannotOpen (path : Path) (cause : FileError)
  | cannotRead (cause : FileError)
  | noColumns (path : Path)
  | columnNotFound (path : Path) (column : String)
  | record (cause : Csv.RecordError)
deriving DecidableEq, Repr

namespace TableError

/-- Faults that are told with the path of the table. -/
def namesTable : TableError → Bool
  | cannotOpen .. | noColumns _ | columnNotFound .. => true
  | cannotRead _ | record _ => false

def invalidTable (path : Path) (fault : String) : String := "invalid table " ++ path.text ++ ": " ++ fault

def message : TableError → String
  | cannotOpen p cause => invalidTable p cause.message
  | cannotRead cause => "csv error: " ++ cause.message
  | noColumns p => invalidTable p "table has no columns"
  | columnNotFound p column => invalidTable p ("column '" ++ column ++ "' not found")
  | record cause => "csv error: " ++ cause.message

/-- A directory can be opened like a file, but not read. -/
def ofFile (p : Path) : FileError → TableError
  | .isADirectory => cannotRead .isADirectory
  | cause => cannotOpen p cause

end TableError

namespace Csv

/-- The cells at a position; a record that is too short has an empty one. -/
def cellsAt (position : Nat) (rows : List (List String)) : List String :=
  rows.map fun row => (row[position]?).getD ""

/-- The cells of the first column whose heading is `column`, in the order of the rows. -/
def column (p : Path) (column : String) (content : Bytes) : Except TableError (List String) := do
  let records := scan content
  let header ← (header records).mapError .record
  match header.idxOf? column with
  | none => .error (.columnNotFound p column)
  | some position => return cellsAt position (← (rows false records).mapError .record)

/-- The cells of the first column, whatever its heading; the table may be ragged. -/
def firstColumn (p : Path) (content : Bytes) : Except TableError (List String) := do
  let records := scan content
  let header ← (header records).mapError .record
  if header.isEmpty then .error (.noColumns p)
  else return cellsAt 0 (← (rows true records).mapError .record)

end Csv

namespace Check

/-- Reads a column of a table in a file. -/
def readColumn (p : Path) (column : String) : Task TableError (List String) := do
  let content ← Task.request (.ofFile p) (.read p)
  Task.ofExcept id (Csv.column p column content)

/-- Reads the first column of a table in a file. -/
def readFirstColumn (p : Path) : Task TableError (List String) := do
  let content ← Task.request (.ofFile p) (.read p)
  Task.ofExcept id (Csv.firstColumn p content)

/-- The values in a cell: the pieces between separators, or the whole cell when there is none. -/
def cellValues (separator : Option String) (cell : String) : List String :=
  match separator with
  | some sep =>
    if sep.isEmpty then [cell] else (Text.pieces sep.toList cell.toList).map String.ofList
  | none => [cell]

/-- The values in the cells of a child column that are no cells of a parent column, in increasing
order. -/
def missingValues (separator : Option String) (child parent : List String) : List String :=
  Ordered.ofList compare <| (child.flatMap (cellValues separator)).filter fun value =>
    !Text.allBlank value && !parent.contains value

/-- Checks a column against another. The parent is read first. -/
def columns (childTable : Path) (childColumn : String) (parentTable : Path) (parentColumn : String)
    (separator : Option String) : Task TableError CheckOutcome := do
  let parent ← readColumn parentTable parentColumn
  let child ← readColumn childTable childColumn
  return {
    childTable := childTable
    childColumn := childColumn
    parentTable := parentTable
    parentColumn := parentColumn
    missing := missingValues separator child parent }

end Check

end SchemaTables
