import SchemaTables.Decimal.Text
import SchemaTables.Ordered

/-!
Document values. A number is an integer when it is written as one and fits into 64 bits, with or
without sign, and a binary number otherwise. The fields of an object keep the order they are listed in;
objects that are read have theirs sorted by name.
-/

namespace SchemaTables

/-- The numbers of a document. -/
inductive Number where
  | int (n : Int)
  | float (x : Binary64)
deriving DecidableEq, Repr

inductive Json where
  | null
  | bool (b : Bool)
  | num (n : Number)
  | str (s : String)
  | arr (items : List Json)
  | obj (fields : List (String × Json))
deriving Inhabited, Repr

namespace Number

/-- The least integer that a document value holds as one. -/
def minInt : Int := -9223372036854775808

/-- The greatest integer that a document value holds as one. -/
def maxInt : Int := 18446744073709551615

/-- The greatest integer of 64 bits with a sign. -/
def maxSigned : Int := 9223372036854775807

/-- A floating-point number without a fraction counts as an integer. -/
def isIntegral : Number → Bool
  | int _ => true
  | float x => let (n, d) := x.fraction; n % d == 0

def render : Number → String
  | int n => intText n
  | float x => x.render Decimal.documentStyle

end Number

namespace Json

/-- The field of an object. -/
def field? (name : String) : Json → Option Json
  | obj fields => fields.lookup name
  | _ => none

/-- An object with its fields sorted by name; of two fields with one name the later counts. -/
def sortedObj (fields : List (String × Json)) : Json := obj (Ordered.ofPairs compare fields)

mutual

/-- The value with all fields in it sorted by name. -/
def sorted : Json → Json
  | arr items => arr (sortedItems items)
  | obj fields => sortedObj (sortedFields fields)
  | v => v

def sortedItems : List Json → List Json
  | [] => []
  | v :: vs => v.sorted :: sortedItems vs

def sortedFields : List (String × Json) → List (String × Json)
  | [] => []
  | (k, v) :: fs => (k, v.sorted) :: sortedFields fs

end

end Json

end SchemaTables
