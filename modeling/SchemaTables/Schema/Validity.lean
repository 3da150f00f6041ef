import SchemaTables.Schema.BaseKind
import SchemaTables.Schema.View

/-!
What must hold of a schema before any table is compiled: every table class has one identifier, and each
of its slots ranges over a synthetic table, a class with a table, or a literal type of a known kind, and
uses only prefixes that the schema declares. The first fault in the order of classes and slots counts.
-/

namespace SchemaTables.View

/-- The prefix of the slot's values is declared. -/
def checkValuePrefix (v : View) (slot : Slot) : Except SchemaError Unit :=
  match slot.valuePrefix with
  | some name =>
    if (v.prefixes.lookup name).isSome then .ok () else .error (.undeclaredValuePrefix name slot.name)
  | none => .ok ()

/-- The range of the slot is a synthetic table, a class with a table or a literal type. -/
def checkRange (v : View) (synthetic : List String) (c : Class) (slot : Slot) : Except SchemaError Unit :=
  if synthetic.contains slot.range then .ok ()
  else match v.rangeOf slot with
    | .cls target =>
      if v.tableClasses.any (·.name == target.name) then .ok ()
      else .error (.targetWithoutTable slot.name c.name target.name)
    | .literal type => type.kind.map fun _ => ()
    | .unresolved => .error (.unresolvedRange slot.name c.name slot.range)

def checkClass (v : View) (synthetic : List String) (c : Class) : Except SchemaError Unit := do
  let _ ← v.identifier c.name
  (← v.slots c.name).forM fun slot => do
    v.checkValuePrefix slot
    v.checkRange synthetic c slot

/-- Checks every table class; `synthetic` holds the names of the synthetic tables. -/
def validate (v : View) (synthetic : List String) : Except SchemaError Unit :=
  v.tableClasses.forM (v.checkClass synthetic)

end SchemaTables.View
