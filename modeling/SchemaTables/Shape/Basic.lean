import SchemaTables.Json.Printer
import SchemaTables.Report

/-!
The form of documents: which types a value may have, which fields an object has and needs, and what its
parts look like in turn. A shape lists what is wrong with a value, with a pointer to the place. A value
of the wrong type is reported as such and not looked into.
-/

namespace SchemaTables

inductive JsonType where
  | null
  | boolean
  | integer
  | number
  | string
  | array
  | object
deriving DecidableEq, Repr

namespace JsonType

def name : JsonType → String
  | null => "null"
  | boolean => "boolean"
  | integer => "integer"
  | number => "number"
  | string => "string"
  | array => "array"
  | object => "object"

def ofName? (s : String) : Option JsonType :=
  [null, boolean, integer, number, string, array, object].find? (·.name == s)

/-- A number without a fraction is an integer, however it is written. -/
def admits : JsonType → Json → Bool
  | null, .null => true
  | boolean, .bool _ => true
  | integer, .num n => n.isIntegral
  | number, .num _ => true
  | string, .str _ => true
  | array, .arr _ => true
  | object, .obj _ => true
  | _, _ => false

end JsonType

/-- A form of values. An empty list of types, alternatives or constants sets no condition. -/
inductive Shape where
  | any
  | nothing
  | rules (types : List JsonType) (properties : List (String × Shape)) (required : List String)
      (additional items : Shape) (anyOf oneOf : List Shape) (constants : List Json)
deriving Inhabited

/-- A place in a document and what is wrong there. -/
structure Violation where
  pointer : String
  message : String
deriving DecidableEq, Repr

namespace Violation

/-- A field name inside a pointer. -/
def escapeName (name : String) : String :=
  String.join (name.toList.map fun c => if c = '~' then "~0" else if c = '/' then "~1" else c.toString)

def issue (v : Violation) : Issue := .error "schema_violation" (reportedPointer v.pointer) v.message

end Violation

namespace Shape

def typeMessage (v : Json) (types : List JsonType) : String :=
  let names := types.map fun t => "\"" ++ t.name ++ "\""
  match names with
  | [one] => v.compact ++ " is not of type " ++ one
  | _ => v.compact ++ " is not of types " ++ ", ".intercalate (names.mergeSort fun a b => a ≤ b)

/-- The fields of an object; other values have none. -/
def fieldsOf : Json → List (String × Json)
  | .obj fields => fields
  | _ => []

def itemsOf : Json → List Json
  | .arr items => items
  | _ => []

/-- Missing fields of an object. -/
def missing (pointer : String) (required : List String) : Json → List Violation
  | .obj fields =>
    (required.filter fun name => (fields.lookup name).isNone).map fun name =>
      ⟨pointer, "\"" ++ name ++ "\" is a required property"⟩
  | _ => []

def constantIssues (pointer : String) (v : Json) (constants : List Json) : List Violation :=
  if constants.isEmpty || constants.any (·.compact == v.compact) then []
  else [⟨pointer, v.compact ++ " is not one of " ++ (Json.arr constants).compact⟩]

mutual

/-- What is wrong with the value that stands at `pointer`. -/
def violations (pointer : String) (v : Json) : Shape → List Violation
  | any => []
  | nothing => [⟨pointer, "False schema does not allow " ++ v.compact⟩]
  | rules types properties required additional items anyOf oneOf constants =>
    if !types.isEmpty && !types.any (·.admits v) then [⟨pointer, typeMessage v types⟩]
    else
      propertyViolations pointer v properties ++
      ((fieldsOf v).filter fun f => !(properties.map (·.1)).contains f.1).flatMap (fun f =>
        additional.violations (pointer ++ "/" ++ Violation.escapeName f.1) f.2) ++
      ((itemsOf v).mapIdx fun i item => items.violations (pointer ++ "/" ++ toString i) item).flatten ++
      constantIssues pointer v constants ++
      (if anyOf.isEmpty || 0 < matching pointer v anyOf then []
        else [⟨pointer, v.compact ++ " is not valid under any of the schemas listed in the 'anyOf' keyword"⟩]) ++
      (if oneOf.isEmpty then []
        else match matching pointer v oneOf with
          | 0 => [⟨pointer,
              v.compact ++ " is not valid under any of the schemas listed in the 'oneOf' keyword"⟩]
          | 1 => []
          | _ => [⟨pointer,
              v.compact ++ " is valid under more than one of the schemas listed in the 'oneOf' keyword"⟩]) ++
      missing pointer required v

/-- What is wrong with the fields of an object that have a shape of their own. -/
def propertyViolations (pointer : String) (v : Json) : List (String × Shape) → List Violation
  | [] => []
  | (name, shape) :: rest =>
    (match v.field? name with
      | some w => shape.violations (pointer ++ "/" ++ Violation.escapeName name) w
      | none => []) ++
    propertyViolations pointer v rest

/-- How many shapes find nothing wrong with the value. -/
def matching (pointer : String) (v : Json) : List Shape → Nat
  | [] => 0
  | shape :: rest =>
    (if (shape.violations pointer v).isEmpty then 1 else 0) + matching pointer v rest

end

/-- The report on a document. -/
def review (shape : Shape) (v : Json) : Report :=
  ⟨(shape.violations "" v).map Violation.issue, []⟩

end Shape

end SchemaTables
