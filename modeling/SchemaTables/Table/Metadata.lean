import SchemaTables.Dependency.Graph
import SchemaTables.Table.Compile

/-!
Metadata documents and the schemas of synthetic tables. The metadata of a class lists every table that
must be loaded with it: class tables in the order they were compiled, then synthetic tables in the order
they are registered. Only the class's own table is published.
-/

namespace SchemaTables

/-- A class table in the metadata of the class that owns `own`. -/
def TableLocation.entry (t own : TableLocation) (o : Options) : TableEntry :=
  ⟨o.remoteUrl t.csvPath, o.remoteUrl t.schemaPath, !decide (t.csvPath.Same own.csvPath)⟩

def SyntheticTable.entry (t : SyntheticTable) (o : Options) : TableEntry :=
  ⟨o.remoteUrl t.path, o.remoteUrl (o.remoteFile t.schemaFile), true⟩

/-- The metadata of a table among all class tables. -/
def TableLocation.metadata (own : TableLocation) (tables : List TableLocation) (o : Options)
    (g : DependencyGraph) : Metadata :=
  let needed := (g.dependencies? own.className).getD []
  ⟨(tables.filter fun t => needed.contains t.csvPath).map (fun t => t.entry own o) ++
    (o.syntheticTables.filter fun t => needed.contains t.path).map (fun t => t.entry o)⟩

/-- The schema of a synthetic table: one required column that identifies the row. -/
def SyntheticTable.tableSchema (t : SyntheticTable) (rowNamespace : String) : TableSchema where
  columns := [{ name := some t.idColumn, title := some t.idTitle, required := true, suppressOutput := true }]
  aboutUrl := rowTemplate rowNamespace t.idColumn
  primaryKey := [t.idColumn]

/-- The tables whose schema file no earlier table has. -/
def firstOfFiles (seen : List String) : List SyntheticTable → List SyntheticTable
  | [] => []
  | t :: rest =>
    if seen.contains t.schemaFile then firstOfFiles seen rest
    else t :: firstOfFiles (t.schemaFile :: seen) rest

/-- One schema document for each schema file of the synthetic tables; the first table with a file
decides what it says. -/
def Options.syntheticSchemas (o : Options) : List (Path × TableSchema) :=
  (firstOfFiles [] o.syntheticTables).map fun t =>
    (o.remoteFile t.schemaFile, t.tableSchema o.rowNamespace)

end SchemaTables
