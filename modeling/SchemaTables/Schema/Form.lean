import SchemaTables.Shape.Schema

/-!
The published form of schema documents, as a JSON Schema, and the check of a document against it.
-/

namespace SchemaTables

namespace Schema

/-- Any text. -/
private def aText : Json := .obj [("type", .str "string")]

/-- A text or null. -/
private def textOrNull : Json := .obj [("type", .arr [.str "string", .str "null"])]

/-- The definition with a name. -/
private def ref (name : String) : Json := .obj [("$ref", .str ("#/definitions/" ++ name))]

private def listOf (items : Json) : Json := .obj [("type", .str "array"), ("items", items)]

/-- The form of a schema document, for those who write one. -/
def formDocument : Json :=
  .obj [
    ("$schema", .str "http://json-schema.org/draft-07/schema#"),
    ("title", .str "SchemaModel"),
    ("description", .str "Top-level schema document."),
    ("type", .str "object"),
    ("required", .arr [.str "name"]),
    ("properties", .obj [
      ("classes", .obj [("default", .arr []), ("type", .str "array"), ("items", ref "ClassDef")]),
      ("default_prefix", .obj [
        ("description", .str "Prefix used for classes that carry no explicit `class_uri`."),
        ("type", .arr [.str "string", .str "null"])]),
      ("description", textOrNull),
      ("name", aText),
      ("prefixes", .obj [
        ("description", .str "Namespace prefix table (prefix -> base URI)."),
        ("default", .obj []),
        ("type", .str "object"),
        ("additionalProperties", aText)]),
      ("slots", .obj [("default", .arr []), ("type", .str "array"), ("items", ref "SlotDef")]),
      ("types", .obj [
        ("default", .arr []),
        ("type", .str "array"),
        ("items", ref "LiteralTypeDef")])]),
    ("definitions", .obj [
      ("Bound", .obj [
        ("description", .str "Numeric bound attached to a literal slot."),
        ("anyOf", .arr [
          .obj [("type", .str "integer"), ("format", .str "int64")],
          .obj [("type", .str "number"), ("format", .str "double")]])]),
      ("ClassDef", .obj [
        ("description", .str "A class of the data model; concrete classes become tables."),
        ("type", .str "object"),
        ("required", .arr [.str "name"]),
        ("properties", .obj [
          ("abstract", .obj [("default", .bool false), ("type", .str "boolean")]),
          ("class_uri", textOrNull),
          ("description", textOrNull),
          ("extensions", listOf (ref "Extension")),
          ("is_a", .obj [
            ("description", .str "Single parent class."),
            ("type", .arr [.str "string", .str "null"])]),
          ("name", aText),
          ("slots", .obj [
            ("description", .str "Names of the slots this class declares itself, in column order."),
            ("default", .arr []),
            ("type", .str "array"),
            ("items", aText)])])]),
      ("Extension", .obj [
        ("description", .str "Escape-hatch metadata attached to a class or slot.\n\nEach variant is only meaningful in one place: `about_url` on slots, `virtual_triples` on classes. Misplaced entries are rejected where they are consumed."),
        ("oneOf", .arr [
          .obj [
            ("description", .str "Overrides the subject of a slot's column. Resolved as a URI reference against the row identifier template."),
            ("type", .str "object"),
            ("required", .arr [.str "kind", .str "value"]),
            ("properties", .obj [
              ("kind", .obj [("type", .str "string"), ("enum", .arr [.str "about_url"])]),
              ("value", aText)])],
          .obj [
            ("description", .str "Turtle statements asserted for every row of a class."),
            ("type", .str "object"),
            ("required", .arr [.str "kind", .str "turtle"]),
            ("properties", .obj [
              ("kind", .obj [("type", .str "string"), ("enum", .arr [.str "virtual_triples"])]),
              ("turtle", aText)])]])]),
      ("LiteralTypeDef", .obj [
        ("description", .str "A named literal type a slot range may refer to."),
        ("type", .str "object"),
        ("required", .arr [.str "name"]),
        ("properties", .obj [
          ("base", .obj [
            ("description", .str "Base kind as written in the schema (`str`, `uri`, `XSDDate`, ...). Absent means `str`."),
            ("type", .arr [.str "string", .str "null"])]),
          ("description", textOrNull),
          ("name", aText),
          ("title", textOrNull),
          ("uri", .obj [
            ("description", .str "Canonical URI or CURIE of the type."),
            ("type", .arr [.str "string", .str "null"])])])]),
      ("SlotDef", .obj [
        ("description", .str "A named, typed attribute of a class."),
        ("type", .str "object"),
        ("required", .arr [.str "name"]),
        ("properties", .obj [
          ("description", textOrNull),
          ("designates_type", .obj [("default", .bool false), ("type", .str "boolean")]),
          ("extensions", listOf (ref "Extension")),
          ("identifier", .obj [("default", .bool false), ("type", .str "boolean")]),
          ("implicit_prefix", .obj [
            ("description", .str "Prefix prepended to cell values to form node URIs."),
            ("type", .arr [.str "string", .str "null"])]),
          ("maximum_value", .obj [("anyOf", .arr [ref "Bound", .obj [("type", .str "null")]])]),
          ("minimum_value", .obj [("anyOf", .arr [ref "Bound", .obj [("type", .str "null")]])]),
          ("multivalued", .obj [("default", .bool false), ("type", .str "boolean")]),
          ("name", aText),
          ("pattern", textOrNull),
          ("range", .obj [
            ("description", .str "Literal type name or class name."),
            ("default", .str "string"),
            ("type", .str "string")]),
          ("required", .obj [("default", .bool false), ("type", .str "boolean")]),
          ("slot_uri", .obj [
            ("description", .str "Predicate URI or CURIE. Slots without one are not emitted as triples."),
            ("type", .arr [.str "string", .str "null"])]),
          ("title", textOrNull)])])])]

/-- The shape that the form describes. -/
def shape : Shape := (Shape.ofDocument? formDocument).getD .nothing

/-- The report on a document that is to be a schema. -/
def review (document : Json) : Report := shape.review document

end Schema

end SchemaTables
