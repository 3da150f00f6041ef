import SchemaTables.Address.Curie
import SchemaTables.Schema.BaseKind
import SchemaTables.Table.Document

/-!
Datatypes of columns with literal values. The address of a type becomes the identity of the datatype,
except for built-in types, which may not be named there, and for dates and times, which always carry
the same well-known address.
-/

namespace SchemaTables

/-- Addresses of built-in types start with this. -/
def builtinNamespace : String := "http://www.w3.org/2001/XMLSchema#"

/-- The marker of columns whose cells hold several addresses. -/
def addressMarker : String := "ConvertIriToNode"

/-- The marker of columns whose cells hold several row identifiers. -/
def identifierMarker : String := "ConvertIdToNode"

namespace LiteralType

/-- The address of the type unless it is built in. -/
def foreignId (t : LiteralType) (prefixes : PrefixTable) : Except SchemaError (Option String) :=
  match t.uri with
  | none => .ok none
  | some uri =>
    (Address.expand prefixes uri).map fun address =>
      if builtinNamespace.toList.isPrefixOf address.toList then none else some address

def datatype (t : LiteralType) (prefixes : PrefixTable) : Except SchemaError Datatype := do
  let kind ← t.kind
  let id ← t.foreignId prefixes
  return match kind with
    | .string | .uri => { id := id, base := .string }
    | .date => { id := some "https://schema.org/Date", base := .date }
    | .dateTime => { id := some "https://schema.org/DateTime", base := .datetime }
    | .int => { id := id, base := .int }
    | .decimal => { id := id, base := .decimal }

end LiteralType

/-- The datatype of a slot's column, with the pattern and the bounds of the slot. A slot with several
addresses is marked and carries none of these. -/
def Slot.datatype (s : Slot) (t : LiteralType) (prefixes : PrefixTable) (rowNamespace : String) :
    Except SchemaError Datatype := do
  if s.multivalued then
    if (← t.kind) = .uri then return .marked (rowNamespace ++ addressMarker)
  let d ← t.datatype prefixes
  return { d with format := s.pattern, minimum := s.minimum, maximum := s.maximum }

end SchemaTables
