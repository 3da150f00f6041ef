import SchemaTables.Shape.Basic

/-!
Shapes from JSON Schema documents. References to the definitions of the document are followed; keywords
that only annotate are passed over. A document that uses a keyword in a way that it cannot be used has
no shape.
-/

namespace SchemaTables.Shape

/-- The names of one type or of several. -/
def types? : Json → Option (List JsonType)
  | .str name => (JsonType.ofName? name).map ([·])
  | .arr names => names.mapM fun
    | .str name => JsonType.ofName? name
    | _ => none
  | _ => none

def names? : Json → Option (List String)
  | .arr names => names.mapM fun
    | .str name => some name
    | _ => none
  | _ => none

/-- The definition that a reference points to. -/
def definition? (root : Json) (reference : String) : Option Json := do
  let name := reference.toList.drop "#/definitions/".length
  (← root.field? "definitions").field? (String.ofList name)

/-- The value of a keyword, or what its absence stands for. -/
def keyword {α : Type} (schema : Json) (name : String) (absent : α) (read : Json → Option α) : Option α :=
  match schema.field? name with
  | none => some absent
  | some v => read v

/-- The shape that a schema inside the document `root` describes, references being followed to a depth
that no document without a circle of definitions exceeds. -/
def compile (root : Json) : Nat → Json → Option Shape
  | 0, _ => none
  | _ + 1, .bool true => some any
  | _ + 1, .bool false => some nothing
  | fuel + 1, .obj fields =>
    let schema := Json.obj fields
    match schema.field? "$ref" with
    | some (.str reference) => (definition? root reference).bind (compile root fuel)
    | some _ => none
    | none => do
      let types ← keyword schema "type" [] types?
      let properties ← keyword schema "properties" [] fun
        | .obj fields => fields.mapM fun f => (compile root fuel f.2).map fun s => (f.1, s)
        | _ => none
      let required ← keyword schema "required" [] names?
      let additional ← keyword schema "additionalProperties" any (compile root fuel)
      let items ← keyword schema "items" any (compile root fuel)
      let anyOf ← keyword schema "anyOf" [] fun
        | .arr shapes => shapes.mapM (compile root fuel)
        | _ => none
      let oneOf ← keyword schema "oneOf" [] fun
        | .arr shapes => shapes.mapM (compile root fuel)
        | _ => none
      let constants ← keyword schema "enum" [] fun
        | .arr values => some values
        | _ => none
      return rules types properties required additional items anyOf oneOf constants
  | _ + 1, _ => none

/-- How deep shapes may lie in each other. -/
def maxDepth : Nat := 64

/-- The shape that a document describes, if it is a proper one. Properties are looked at in the order
of their names. -/
def ofDocument? (document : Json) : Option Shape := compile document.sorted maxDepth document.sorted

end SchemaTables.Shape
