import SchemaTables.Table.Document
import SchemaTables.Triples.Statement

/-!
Templates as virtual columns. While a template is read the row stands under a placeholder address;
afterwards the placeholder gives way to the address template of the row wherever it occurs.
-/

namespace SchemaTables.Triples

/-- The name that stands for the row in the base address. -/
def rowPlaceholder : String := "IdentifierForThisRow"

/-- Puts the row in place of its placeholder. -/
def substituteRow (base row value : String) : String :=
  String.ofList (Text.replaceAll base.toList row.toList value.toList)

/-- The column that states a triple; a statement about the row itself names no subject. -/
def Triple.toColumn (base row : String) (t : Triple) : Column :=
  .statement (if t.subject = base then none else some (substituteRow base row t.subject))
    (substituteRow base row t.predicate) (substituteRow base row t.object)

/-- The virtual columns of a template, sorted by the triples they state. -/
def columns (template : String) (prefixes : PrefixTable) (rowNamespace row : String) :
    Except SchemaError (List Column) := do
  let base := rowNamespace ++ rowPlaceholder
  let tokens ← (tokenize template).mapError .template
  let triples ← parseStatements prefixes base tokens
  return triples.map (Triple.toColumn base row)

end SchemaTables.Triples
