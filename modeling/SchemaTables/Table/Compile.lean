import SchemaTables.Layout
import SchemaTables.Schema.View
import SchemaTables.Table.Relation
import SchemaTables.Triples.Column

/-!
The table of a class: a column for each of its slots in order, then virtual columns that state the type
of the row, describe its input and repeat the templates of the class. The keys and checks of the table
are read off the columns, so each slot that is a relation gives exactly one of the two.
-/

namespace SchemaTables

/-- A schema together with the options it is compiled under. -/
structure Job where
  view : View
  options : Options

/-- The column of a slot, with the relation that the slot is if it is one. -/
structure BuiltColumn where
  slot : Slot
  column : Column
  relation : Option (RelationTarget × Enforcement)

/-- A class as a table. -/
structure CompiledTable extends TableLocation where
  /-- The headings of the table, one for each slot. -/
  header : List String
  schema : TableSchema
  manualChecks : List ManualCheck
  /-- The table itself and those its slots refer to. -/
  dependencies : PathSet

namespace Job

/-- The table that a slot refers to; nothing when it holds literal values. Synthetic tables come before
classes of the same name. -/
def target (j : Job) (c : Class) (slot : Slot) : Except SchemaError (Option RelationTarget) :=
  match j.options.synthetic? slot.range with
  | some t => .ok (some ⟨t.path, t.idColumn, t.idTitle⟩)
  | none =>
    match j.view.rangeOf slot with
    | .cls target =>
      if target.isAbstract then .error (.abstractTarget slot.name c.name target.name)
      else (j.view.identifier target.name).map fun id =>
        some ⟨Options.csvPath target.name, id.name, id.columnTitle⟩
    | .literal _ | .unresolved => .ok none

/-- Cells with several values take no prefix. -/
def checkSinglePrefix (slot : Slot) : Except SchemaError Unit :=
  match slot.valuePrefix with
  | some name => if slot.multivalued then .error (.multivaluedPrefix name slot.name) else .ok ()
  | none => .ok ()

/-- The template of the addresses that the prefix of a slot makes of its values. -/
def prefixedTemplate (j : Job) (slot : Slot) : Except SchemaError (Option String) :=
  match slot.valuePrefix with
  | some name =>
    (Address.ofPrefix j.view.prefixes name).map fun base => some (rowTemplate base slot.name)
  | none => .ok none

/-- The column of a slot with literal values. A single address with a predicate refers to what it is
the address of; all else is a value with a datatype. -/
def literalColumn (j : Job) (slot : Slot) (t : LiteralType) (column : Column) : Except SchemaError Column := do
  let kind ← t.kind
  checkSinglePrefix slot
  let template ← j.prefixedTemplate slot
  if kind = .uri ∧ slot.uri.isSome ∧ !slot.multivalued then
    return { column with
      valueUrl := some (template.getD (rowTemplate "" slot.name))
      datatype := slot.pattern.map fun p => { base := .string, format := some p } }
  else
    return { column with
      datatype := some (← slot.datatype t j.view.prefixes j.options.rowNamespace)
      separator := if slot.multivalued then some j.options.separator else none
      valueUrl := template }

/-- The fragment of the node that describes the input of a row. -/
def inputFragment : String := "#input-metadata"

/-- What a column speaks about when that is not the row: the slot's own reference comes first, then the
input of the row. -/
def aboutUrl (j : Job) (row : String) (slot : Slot) : Option String :=
  match slot.aboutUrl? with
  | some reference => some (Address.resolve row reference)
  | none =>
    if j.options.inputMetadataSlots.contains slot.name then some (row ++ inputFragment) else none

/-- The parts of a column that do not hang on the range of its slot. -/
def baseColumn (j : Job) (row : String) (slot : Slot) : Except SchemaError Column := do
  let property ← match slot.uri with
    | some uri => (Address.expand j.view.prefixes uri).map some
    | none => .ok none
  return {
    name := some slot.name
    title := some slot.columnTitle
    required := slot.required
    suppressOutput := slot.uri.isNone
    aboutUrl := j.aboutUrl row slot
    propertyUrl := property }

def buildColumn (j : Job) (c : Class) (row : String) (slot : Slot) : Except SchemaError BuiltColumn := do
  let column ← j.baseColumn row slot
  match ← j.target c slot with
  | some target =>
    checkSinglePrefix slot
    let r := slot.relation (Options.csvPath c.name) slot.columnTitle target j.options.rowNamespace
      j.options.separator (j.options.remoteUrl target.table)
    let column :=
      { column with valueUrl := r.valueUrl, separator := r.separator, datatype := r.datatype }
    return ⟨slot, column, some (target, r.enforcement)⟩
  | none =>
    match j.view.rangeOf slot with
    | .literal t => return ⟨slot, ← j.literalColumn slot t column, none⟩
    | .cls _ | .unresolved => throw (.unresolvedRange slot.name c.name slot.range)

/-- The address of a class: its own, or its name under the default prefix. -/
def classAddress (j : Job) (c : Class) : Except SchemaError String :=
  match c.uri with
  | some uri => Address.expand j.view.prefixes uri
  | none =>
    match j.view.schema.classPrefix with
    | some name => (Address.ofPrefix j.view.prefixes name).map (· ++ c.name)
    | none => .error (.noClassUri c.name)

/-- The predicate of statements about types. -/
def typeProperty : String := "rdf:type"

def schemaOrg : String := "https://schema.org/"

/-- The type of the row, unless a slot gives it. -/
def typeColumns (j : Job) (c : Class) (slots : List Slot) : Except SchemaError (List Column) :=
  if slots.any Slot.designatesType then .ok []
  else (j.classAddress c).map fun address => [.statement none typeProperty address]

/-- What is said of the input of a row. -/
def inputColumns (j : Job) (row : String) : List Column :=
  let input := some (row ++ inputFragment)
  [.statement input typeProperty (schemaOrg ++ "DataDownload"),
    .statement input typeProperty (j.options.rowNamespace ++ "InputMetadataDescription"),
    .statement input (schemaOrg ++ "about") row]

/-- Where the input of a row is published. -/
def contentColumns (j : Job) (c : Class) (row : String) : Except SchemaError (List Column) :=
  match j.options.contentUrls.lookup c.name with
  | some url =>
    .ok [.statement (some (row ++ inputFragment)) (schemaOrg ++ "contentUrl")
      (url ++ "#row=\x7b_row\x7d")]
  | none => if j.options.requireContentUrls then .error (.noContentUrl c.name) else .ok []

def virtualColumns (j : Job) (c : Class) (row : String) (slots : List Slot) :
    Except SchemaError (List Column) := do
  let types ← j.typeColumns c slots
  let content ← j.contentColumns c row
  let templates ← c.templates.mapM fun template =>
    Triples.columns template j.view.prefixes j.options.rowNamespace row
  return types ++ j.inputColumns row ++ content ++ templates.flatten

def foreignKeys (built : List BuiltColumn) : List ForeignKey :=
  built.filterMap fun b =>
    match b.relation with
    | some (_, .declarative key) => some key
    | _ => none

def manualChecks (built : List BuiltColumn) : List ManualCheck :=
  built.filterMap fun b =>
    match b.relation with
    | some (_, .manual check) => some check
    | _ => none

/-- The tables that relations refer to. -/
def targets (built : List BuiltColumn) : List Path :=
  built.filterMap fun b => b.relation.map fun (target, _) => target.table

def compileTable (j : Job) (c : Class) : Except SchemaError CompiledTable := do
  let slots ← j.view.slots c.name
  let identifier ← j.view.identifier c.name
  let row := rowTemplate j.options.rowNamespace identifier.name
  let built ← slots.mapM (j.buildColumn c row)
  let virtual ← j.virtualColumns c row slots
  let location := j.options.locate c.name
  return {
    toTableLocation := location
    header := slots.map Slot.columnTitle
    schema := {
      columns := built.map BuiltColumn.column ++ virtual
      aboutUrl := row
      primaryKey := (slots.filter Slot.identifier).map Slot.name
      foreignKeys := some (foreignKeys built) }
    manualChecks := manualChecks built
    dependencies := PathSet.ofList (location.csvPath :: targets built) }

end Job

end SchemaTables
