import SchemaTables.Table.Compile

/-!
The reference document: for readers, every class by name with a table of its columns. In descriptions and
in patterns bars are escaped and line breaks are marked; titles and names come into a row as they are.
-/

namespace SchemaTables

/-- A text as part of a table row. -/
def escapeCell (s : String) : String :=
  let bars := Text.replaceAll ['|'] "\\|".toList s.toList
  let crlf := Text.replaceAll "\r\n".toList "<br/>".toList bars
  String.ofList (Text.replaceAll ['\n'] "<br/>".toList crlf)

/-- The anchor of a heading: its word characters in lower case. -/
def anchor (title : String) : String :=
  String.ofList ((Text.lowerCase title.toList).filter Text.isWordChar)

def yesNo (b : Bool) : String := if b then "Yes" else "No"

def link (title target : String) : String := "[" ++ title ++ "](" ++ target ++ ")"

namespace Job

/-- What an address in a slot is: an identifier under a declared prefix or any address. -/
def addressDescription (j : Job) (slot : Slot) : String :=
  match slot.valuePrefix.bind fun name => (j.view.prefixes.lookup name).map fun uri => (name, uri) with
  | some (name, uri) => link name uri ++ " identifier slug."
  | none => "URL Persistent Identifier"

def literalDescription (j : Job) (slot : Slot) (t : LiteralType) : String :=
  match t.kind, t.title with
  | .ok .date, _ => "Date (YYYY-mm-DD)"
  | .ok .dateTime, _ => "Date Time (YYYY-mm-DDTHH:mm:SSZ)"
  | .ok .uri, _ => j.addressDescription slot
  | .ok .string, none =>
    match slot.pattern with
    | some pattern => "Text matching the pattern `" ++ escapeCell pattern ++ "`"
    | none => "Free Text"
  | _, title => title.getD t.name

/-- What the cells of a slot's column hold. -/
def rangeDescription (j : Job) (slot : Slot) : String :=
  if (j.options.synthetic? slot.range).isSome then slot.range ++ " identifier"
  else match j.view.rangeOf slot with
    | .cls c => link c.name ("#" ++ anchor c.name) ++ " identifier"
    | .literal t => j.literalDescription slot t
    | .unresolved => slot.range

def slotDescription (j : Job) (slot : Slot) : String :=
  let own := slot.description.getD ""
  let text :=
    if slot.multivalued then
      own ++ (if own.isEmpty then "" else "\n") ++ "Use the `" ++ j.options.separator ++
        "` symbol to separate multiple values."
    else own
  escapeCell text

/-- The row of a slot. -/
def slotRow (j : Job) (slot : Slot) : String :=
  "| " ++ Text.joinWith " | " [slot.columnTitle, yesNo slot.required, j.rangeDescription slot,
    yesNo slot.multivalued, j.slotDescription slot] ++ " |"

def classLocation (c : Class) : String :=
  if c.isAbstract then "This table is assembled automatically. You cannot edit it yourself."
  else
    let csv := (Options.csvPath c.name).text
    "File location: " ++ link csv ("./" ++ csv)

/-- A text with an empty line after it, if there is one. -/
def paragraph : Option String → List String
  | some text => [text, ""]
  | none => []

/-- The lines about one class. -/
def classSection (j : Job) (c : Class) : Except SchemaError (List String) := do
  let slots ← j.view.slots c.name
  return ["## " ++ c.name, "", classLocation c, ""] ++ paragraph c.description ++
    ["| Column Title | Required | Contains | Multivalued | Description |",
      "| --- | --- | --- | --- | --- |"] ++ slots.map j.slotRow

/-- The reference document. -/
def descriptions (j : Job) : Except SchemaError String := do
  let s := j.view.schema
  let classes := s.classes.mergeSort fun a b => a.name ≤ b.name
  let sections ← classes.mapM fun c => (j.classSection c).map (· ++ [""])
  let contents := classes.map fun c => "| " ++ link c.name ("#" ++ anchor c.name) ++ " |"
  let prefixes := s.prefixes.map fun (name, uri) => "| " ++ name ++ " | " ++ uri ++ " |"
  return Text.joinWith "\n" (
    ["# " ++ s.name ++ " CSV Models", "",
      "This file is generated from the schema. Do not edit it manually.", ""] ++
    paragraph s.description ++
    ["| Contents |", "| --- |"] ++ contents ++ ["| [Prefixes](#prefixes) |", ""] ++
    sections.flatten ++
    ["## Prefixes", "", "| Prefix | Base URI |", "| --- | --- |"] ++ prefixes ++ [""])

end Job

end SchemaTables
