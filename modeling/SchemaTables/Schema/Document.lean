import SchemaTables.Json.Record
import SchemaTables.Schema.Basic

/-!
Schemas as documents. Unset fields are left out when a schema is written; the flags, the range of a
slot and the lists of names are always there.
-/

namespace SchemaTables

open Json

namespace Bound

def toJson : Bound → Json
  | int n => .num (.int n)
  | decimal x => .num (.float x)

/-- An integer beyond 64 signed bits is taken as a decimal. -/
def ofJson? : Json → Option Bound
  | .num (.int n) => if n ≤ Number.maxSigned then some (int n) else (Binary64.ofInt n).map decimal
  | .num (.float x) => some (decimal x)
  | _ => none

end Bound

namespace Extension

def toJson : Extension → Json
  | aboutUrl value => .obj [("kind", .str "about_url"), ("value", .str value)]
  | virtualTriples turtle => .obj [("kind", .str "virtual_triples"), ("turtle", .str turtle)]

/-- The kind decides which other field is read. -/
def ofJson? (v : Json) : Option Extension := do
  let r ← match v with
    | .arr [.str "about_url", value] => some [("kind", .str "about_url"), ("value", value)]
    | .arr [.str "virtual_triples", turtle] => some [("kind", .str "virtual_triples"), ("turtle", turtle)]
    | .obj fields => some fields
    | _ => none
  match ← required r "kind" text? with
  | "about_url" => (required r "value" text?).map aboutUrl
  | "virtual_triples" => (required r "turtle" text?).map virtualTriples
  | _ => none

end Extension

namespace LiteralType

def toJson (t : LiteralType) : Json :=
  .obj ([("name", .str t.name)] ++ whenSome "base" .str t.base ++ whenSome "uri" .str t.uri ++
    whenSome "title" .str t.title ++ whenSome "description" .str t.description)

def ofJson? (v : Json) : Option LiteralType := do
  let r ← v.record? ["name", "base", "uri", "title", "description"]
  return {
    name := ← required r "name" text?
    base := ← optional r "base" text?
    uri := ← optional r "uri" text?
    title := ← optional r "title" text?
    description := ← optional r "description" text? }

end LiteralType

namespace Slot

def toJson (s : Slot) : Json :=
  .obj ([("name", .str s.name)] ++ whenSome "title" .str s.title ++
    whenSome "description" .str s.description ++
    [("range", .str s.range), ("required", .bool s.required), ("identifier", .bool s.identifier),
      ("multivalued", .bool s.multivalued)] ++
    whenSome "pattern" .str s.pattern ++ whenSome "minimum_value" Bound.toJson s.minimum ++
    whenSome "maximum_value" Bound.toJson s.maximum ++ whenSome "implicit_prefix" .str s.valuePrefix ++
    [("designates_type", .bool s.designatesType)] ++ whenSome "slot_uri" .str s.uri ++
    whenAny "extensions" Extension.toJson s.extensions)

def ofJson? (v : Json) : Option Slot := do
  let r ← v.record? ["name", "title", "description", "range", "required", "identifier", "multivalued",
    "pattern", "minimum_value", "maximum_value", "implicit_prefix", "designates_type", "slot_uri",
    "extensions"]
  return {
    name := ← Json.required r "name" text?
    title := ← optional r "title" text?
    description := ← optional r "description" text?
    range := ← withDefault r "range" "string" text?
    required := ← withDefault r "required" false flag?
    identifier := ← withDefault r "identifier" false flag?
    multivalued := ← withDefault r "multivalued" false flag?
    pattern := ← optional r "pattern" text?
    minimum := ← optional r "minimum_value" Bound.ofJson?
    maximum := ← optional r "maximum_value" Bound.ofJson?
    valuePrefix := ← optional r "implicit_prefix" text?
    designatesType := ← withDefault r "designates_type" false flag?
    uri := ← optional r "slot_uri" text?
    extensions := ← withDefault r "extensions" [] (list? Extension.ofJson?) }

end Slot

namespace Class

def toJson (c : Class) : Json :=
  .obj ([("name", .str c.name)] ++ whenSome "is_a" .str c.parent ++
    [("slots", texts c.slots), ("abstract", .bool c.isAbstract)] ++ whenSome "class_uri" .str c.uri ++
    whenSome "description" .str c.description ++ whenAny "extensions" Extension.toJson c.extensions)

def ofJson? (v : Json) : Option Class := do
  let r ← v.record? ["name", "is_a", "slots", "abstract", "class_uri", "description", "extensions"]
  return {
    name := ← required r "name" text?
    parent := ← optional r "is_a" text?
    slots := ← withDefault r "slots" [] (list? text?)
    isAbstract := ← withDefault r "abstract" false flag?
    uri := ← optional r "class_uri" text?
    description := ← optional r "description" text?
    extensions := ← withDefault r "extensions" [] (list? Extension.ofJson?) }

end Class

namespace Schema

def toJson (s : Schema) : Json :=
  .obj ([("name", .str s.name)] ++ whenSome "description" .str s.description ++
    whenSome "default_prefix" .str s.classPrefix ++
    [("prefixes", ofTable s.prefixes), ("types", .arr (s.types.map LiteralType.toJson)),
      ("classes", .arr (s.classes.map Class.toJson)), ("slots", .arr (s.slots.map Slot.toJson))])

def ofJson? (v : Json) : Option Schema := do
  let r ← v.record? ["name", "description", "default_prefix", "prefixes", "types", "classes", "slots"]
  return {
    name := ← required r "name" text?
    description := ← optional r "description" text?
    classPrefix := ← optional r "default_prefix" text?
    prefixes := ← withDefault r "prefixes" [] (table? text?)
    types := ← withDefault r "types" [] (list? LiteralType.ofJson?)
    classes := ← withDefault r "classes" [] (list? Class.ofJson?)
    slots := ← withDefault r "slots" [] (list? Slot.ofJson?) }

end Schema

end SchemaTables
