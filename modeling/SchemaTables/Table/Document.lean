import SchemaTables.Json.Record
import SchemaTables.Schema.Document

/-!
The documents that describe tables to a loader: columns with their datatypes, the schema of a table
with its keys, and the metadata that lists the tables to be loaded together. Unset parts are left out
when they are written.
-/

namespace SchemaTables

open Json

/-- What the values of a column are to a loader. -/
inductive DatatypeBase where
  | string
  | date
  | datetime
  | int
  | decimal
deriving DecidableEq, Repr

def DatatypeBase.name : DatatypeBase → String
  | string => "string"
  | date => "date"
  | datetime => "datetime"
  | int => "int"
  | decimal => "decimal"

structure Datatype where
  id : Option String := none
  base : DatatypeBase
  format : Option String := none
  minimum : Option Bound := none
  maximum : Option Bound := none
deriving DecidableEq, Repr

/-- A text whose meaning is given by a marker address. -/
def Datatype.marked (id : String) : Datatype := { id := some id, base := .string }

/-- A column; a virtual one has no cells and states something of every row. -/
structure Column where
  isVirtual : Bool := false
  name : Option String := none
  title : Option String := none
  required : Bool := false
  suppressOutput : Bool := false
  aboutUrl : Option String := none
  propertyUrl : Option String := none
  valueUrl : Option String := none
  separator : Option String := none
  datatype : Option Datatype := none
deriving DecidableEq, Repr, Inhabited

/-- A virtual column stating that the subject has the value for the property. -/
def Column.statement (aboutUrl : Option String) (propertyUrl valueUrl : String) : Column :=
  { isVirtual := true, aboutUrl := aboutUrl, propertyUrl := some propertyUrl, valueUrl := some valueUrl }

/-- A key that loaders enforce: the column holds values of a column of another table. -/
structure ForeignKey where
  column : String
  /-- The address of the other table. -/
  resource : String
  parentColumn : String
deriving DecidableEq, Repr

/-- A key that loaders cannot enforce. Tables are paths, columns are headings. -/
structure ManualCheck where
  childTable : Path
  childColumn : String
  parentTable : Path
  parentColumn : String
  separator : Option String := none
deriving DecidableEq, Repr

structure TableSchema where
  columns : List Column
  aboutUrl : String
  primaryKey : List String
  /-- Unset for tables that are not compiled from a class. -/
  foreignKeys : Option (List ForeignKey) := none
deriving DecidableEq, Repr

/-- One table in a metadata document. -/
structure TableEntry where
  url : String
  tableSchema : String
  suppressOutput : Bool
deriving DecidableEq, Repr

structure Metadata where
  tables : List TableEntry
deriving DecidableEq, Repr

/-- The context that every document names. -/
def csvwContext : String := "http://www.w3.org/ns/csvw"

def Datatype.toJson (d : Datatype) : Json :=
  .obj (whenSome "@id" .str d.id ++ [("base", .str d.base.name)] ++ whenSome "format" .str d.format ++
    whenSome "minimum" Bound.toJson d.minimum ++ whenSome "maximum" Bound.toJson d.maximum)

def Column.toJson (c : Column) : Json :=
  .obj (whenSet "virtual" c.isVirtual ++ whenSome "name" .str c.name ++
    whenSome "titles" (fun t => .obj [("en", texts [t])]) c.title ++ whenSet "required" c.required ++
    whenSet "suppressOutput" c.suppressOutput ++ whenSome "aboutUrl" .str c.aboutUrl ++
    whenSome "propertyUrl" .str c.propertyUrl ++ whenSome "valueUrl" .str c.valueUrl ++
    whenSome "separator" .str c.separator ++ whenSome "datatype" Datatype.toJson c.datatype)

def ForeignKey.toJson (k : ForeignKey) : Json :=
  .obj [("columnReference", .str k.column),
    ("reference", .obj [("resource", .str k.resource), ("columnReference", .str k.parentColumn)])]

def ManualCheck.toJson (c : ManualCheck) : Json :=
  .obj ([("child_table", ofPath c.childTable), ("child_column", .str c.childColumn),
    ("parent_table", ofPath c.parentTable), ("parent_column", .str c.parentColumn)] ++
    whenSome "separator" .str c.separator)

def ManualCheck.ofJson? (v : Json) : Option ManualCheck := do
  let r ← v.record? ["child_table", "child_column", "parent_table", "parent_column", "separator"]
  return {
    childTable := ← required r "child_table" path?
    childColumn := ← required r "child_column" text?
    parentTable := ← required r "parent_table" path?
    parentColumn := ← required r "parent_column" text?
    separator := ← optional r "separator" text? }

def TableSchema.toJson (s : TableSchema) : Json :=
  .obj ([("@context", .str csvwContext), ("columns", .arr (s.columns.map Column.toJson)),
    ("aboutUrl", .str s.aboutUrl), ("primaryKey", texts s.primaryKey)] ++
    whenSome "foreignKeys" (fun keys => .arr (keys.map ForeignKey.toJson)) s.foreignKeys)

def TableEntry.toJson (e : TableEntry) : Json :=
  .obj [("url", .str e.url), ("tableSchema", .str e.tableSchema),
    ("suppressOutput", .bool e.suppressOutput)]

def Metadata.toJson (m : Metadata) : Json :=
  .obj [("@context", .str csvwContext), ("tables", .arr (m.tables.map TableEntry.toJson))]

end SchemaTables
