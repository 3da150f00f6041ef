import SchemaTables.Schema.Basic
import SchemaTables.Text.Search
import SchemaTables.Triples.Token

/-!
What can be wrong with a schema. Each cause carries the names it is about; the wording is one function.
-/

namespace SchemaTables

/-- What a name is the name of. -/
inductive NameKind where
  | cls
  | slot
  | literalType
deriving DecidableEq, Repr

def NameKind.text : NameKind → String
  | cls => "class"
  | slot => "slot"
  | literalType => "literal type"

inductive SchemaError where
  | duplicateName (kind : NameKind) (name : String)
  | cyclicInheritance (chain : List String)
  | unknownParent (cls parent : String)
  | unknownSlot (cls slot : String)
  | unknownClass (cls : String)
  | identifierCount (cls : String) (count : Nat)
  | undeclaredValuePrefix (name slot : String)
  | targetWithoutTable (slot cls target : String)
  | unresolvedRange (slot cls range : String)
  | unsupportedBase (raw type : String)
  | unknownPrefix (name value : String)
  | undefinedPrefix (name : String)
  | abstractTarget (slot cls target : String)
  | multivaluedPrefix (name slot : String)
  | noContentUrl (cls : String)
  | noClassUri (cls : String)
  | template (cause : Triples.TemplateError)
deriving DecidableEq, Repr

namespace SchemaError

/-- The cause in words. -/
def detail : SchemaError → String
  | duplicateName kind name => "duplicate " ++ kind.text ++ " name: " ++ name
  | cyclicInheritance chain => "cyclic inheritance: " ++ Text.joinWith " -> " chain
  | unknownParent cls parent => "class '" ++ cls ++ "' inherits from unknown class '" ++ parent ++ "'"
  | unknownSlot cls slot => "class '" ++ cls ++ "' declares unknown slot '" ++ slot ++ "'"
  | unknownClass cls => "unknown class '" ++ cls ++ "'"
  | identifierCount cls count =>
    "expected to find 1 identifier slot in " ++ cls ++ " but found " ++ toString count
  | undeclaredValuePrefix name slot =>
    "unable to find prefix definition for implicit_prefix '" ++ name ++ "' on slot '" ++ slot ++ "'"
  | targetWithoutTable slot cls target =>
    "slot '" ++ slot ++ "' of " ++ cls ++ " references class '" ++ target ++ "' which produces no table"
  | unresolvedRange slot cls range =>
    "slot '" ++ slot ++ "' of " ++ cls ++ " has unresolved range '" ++ range ++ "'"
  | unsupportedBase raw type =>
    "unsupported literal base kind '" ++ raw ++ "' for type '" ++ type ++ "'"
  | unknownPrefix name value => "unknown prefix '" ++ name ++ "' in '" ++ value ++ "'"
  | undefinedPrefix name => "unable to find prefix definition for '" ++ name ++ "'"
  | abstractTarget slot cls target =>
    "slot '" ++ slot ++ "' of " ++ cls ++ " references abstract class '" ++ target ++
      "' which is not a registered synthetic table"
  | multivaluedPrefix name slot =>
    "implicit_prefix '" ++ name ++ "' on multivalued slot '" ++ slot ++ "' is not supported"
  | noContentUrl cls => "no content URL configured for class '" ++ cls ++ "'"
  | noClassUri cls => "class '" ++ cls ++ "' has no class_uri and the schema has no default_prefix"
  | template cause => cause.message

def message (e : SchemaError) : String := "schema integrity error: " ++ e.detail

end SchemaError

end SchemaTables
