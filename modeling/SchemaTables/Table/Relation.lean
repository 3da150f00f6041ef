import SchemaTables.Table.LiteralColumn

/-!
Slots whose values are rows of another table. A required slot with one value becomes a key that loaders
enforce. The table format has no key for optional or multivalued columns, so these become checks that
are run on the data.
-/

namespace SchemaTables

/-- The table that a slot refers to. -/
structure RelationTarget where
  table : Path
  /-- The name of its identifier column, for keys. -/
  idColumn : String
  /-- The heading of its identifier column, for checks. -/
  idTitle : String
deriving DecidableEq, Repr

inductive Enforcement where
  | declarative (key : ForeignKey)
  | manual (check : ManualCheck)
deriving DecidableEq, Repr

/-- What a relation makes of its column, and how it is enforced. -/
structure Relation where
  valueUrl : Option String
  separator : Option String
  datatype : Option Datatype
  enforcement : Enforcement
deriving DecidableEq, Repr

/-- The address template of the row whose identifier stands in the column. -/
def rowTemplate (rowNamespace column : String) : String :=
  rowNamespace ++ "\x7b+" ++ column ++ "\x7d"

/-- The relation of a slot to its target, whose address for loaders is `parentUrl`. -/
def Slot.relation (s : Slot) (childTable : Path) (childTitle : String) (target : RelationTarget)
    (rowNamespace separator parentUrl : String) : Relation :=
  let check (sep : Option String) : Enforcement :=
    .manual ⟨childTable, childTitle, target.table, target.idTitle, sep⟩
  if s.multivalued then
    ⟨none, some separator, some (.marked (rowNamespace ++ identifierMarker)), check (some separator)⟩
  else
    let enforcement :=
      if s.required then .declarative ⟨s.name, parentUrl, target.idColumn⟩ else check none
    ⟨some (rowTemplate rowNamespace s.name), none, none, enforcement⟩

end SchemaTables
