import SchemaTables.Schema.Error

/-!
Shortened addresses: a prefix, a colon and the local part. A value with `://` in it is an address
already, and a value without a colon is a bare name; both stand for themselves. An unknown prefix is an
error, never silently kept.
-/

namespace SchemaTables.Address

/-- The address that a value stands for under a table of prefixes. -/
def expand (prefixes : PrefixTable) (value : String) : Except SchemaError String :=
  if Text.occurs "://".toList value.toList then .ok value
  else match Text.cutAt ':' value.toList with
    | none => .ok value
    | some (name, local_) =>
      match prefixes.lookup (String.ofList name) with
      | some base => .ok (base ++ String.ofList local_)
      | none => .error (.unknownPrefix (String.ofList name) value)

/-- The base address of a prefix. -/
def ofPrefix (prefixes : PrefixTable) (name : String) : Except SchemaError String :=
  match prefixes.lookup name with
  | some base => .ok base
  | none => .error (.undefinedPrefix name)

end SchemaTables.Address
