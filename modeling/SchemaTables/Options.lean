import SchemaTables.Json.Record
import SchemaTables.Path.Basic

/-!
What a compilation can be told. Everything has a default, so a partial configuration is a complete one.
Synthetic tables are assembled outside of the compilation; a relation may refer to one by its name.
-/

namespace SchemaTables

open Json

/-- A table that no class stands for. -/
structure SyntheticTable where
  name : String
  path : Path
  /-- The file name of its schema document. -/
  schemaFile : String := "unioned-identifiers.schema.json"
  idColumn : String := "id"
  /-- The heading of its identifier column. -/
  idTitle : String := "Permanent Identifier*"
deriving DecidableEq, Repr

structure Options where
  outDir : Path := ⟨"."⟩
  /-- The addresses of rows and of marker datatypes start with this. -/
  rowNamespace : String := "https://w3id.org/example/"
  /-- Stands between the values of a multivalued cell. -/
  separator : String := "|"
  /-- The directory of the schema documents. -/
  remoteDir : Path := ⟨"remote"⟩
  /-- The directory of the logs of checks. -/
  validationDir : Path := ⟨"out/validation"⟩
  /-- How many passes the closure of dependencies may take. -/
  passLimit : Nat := 1000
  /-- Names of slots whose columns describe the input of a row, not the row. -/
  inputMetadataSlots : List String := []
  /-- Where the content of a class is published, by class name. -/
  contentUrls : List (String × String) := []
  requireContentUrls : Bool := false
  syntheticTables : List SyntheticTable := []
deriving DecidableEq, Repr

namespace SyntheticTable

def toJson (t : SyntheticTable) : Json :=
  .obj [("name", .str t.name), ("path", ofPath t.path), ("schema", .str t.schemaFile),
    ("id_column", .str t.idColumn), ("id_title", .str t.idTitle)]

def ofJson? (v : Json) : Option SyntheticTable := do
  let r ← v.record? ["name", "path", "schema", "id_column", "id_title"]
  let name ← required r "name" text?
  let path ← required r "path" path?
  let base : SyntheticTable := { name := name, path := path }
  return { base with
    schemaFile := ← withDefault r "schema" base.schemaFile text?
    idColumn := ← withDefault r "id_column" base.idColumn text?
    idTitle := ← withDefault r "id_title" base.idTitle text? }

end SyntheticTable

namespace Options

def toJson (o : Options) : Json :=
  .obj [("out_dir", ofPath o.outDir), ("identifier_namespace", .str o.rowNamespace),
    ("separator", .str o.separator), ("remote_dir", ofPath o.remoteDir),
    ("validation_dir", ofPath o.validationDir), ("closure_iteration_limit", nat o.passLimit),
    ("input_metadata_slots", texts o.inputMetadataSlots), ("content_urls", ofTable o.contentUrls),
    ("require_content_urls", .bool o.requireContentUrls),
    ("synthetic_tables", .arr (o.syntheticTables.map SyntheticTable.toJson))]

def ofJson? (v : Json) : Option Options := do
  let r ← v.record? ["out_dir", "identifier_namespace", "separator", "remote_dir", "validation_dir",
    "closure_iteration_limit", "input_metadata_slots", "content_urls", "require_content_urls",
    "synthetic_tables"]
  let d : Options := {}
  return {
    outDir := ← withDefault r "out_dir" d.outDir path?
    rowNamespace := ← withDefault r "identifier_namespace" d.rowNamespace text?
    separator := ← withDefault r "separator" d.separator text?
    remoteDir := ← withDefault r "remote_dir" d.remoteDir path?
    validationDir := ← withDefault r "validation_dir" d.validationDir path?
    passLimit := ← withDefault r "closure_iteration_limit" d.passLimit natural?
    inputMetadataSlots := ← withDefault r "input_metadata_slots" d.inputMetadataSlots textSet?
    contentUrls := ← withDefault r "content_urls" d.contentUrls (table? text?)
    requireContentUrls := ← withDefault r "require_content_urls" d.requireContentUrls flag?
    syntheticTables := ← withDefault r "synthetic_tables" d.syntheticTables (list? SyntheticTable.ofJson?) }

/-- The names of the synthetic tables, in increasing order. -/
def syntheticNames (o : Options) : List String :=
  Ordered.ofList compare (o.syntheticTables.map SyntheticTable.name)

/-- The synthetic table with a name; of several the last. -/
def synthetic? (o : Options) (name : String) : Option SyntheticTable :=
  o.syntheticTables.reverse.find? (·.name == name)

end Options

end SchemaTables
