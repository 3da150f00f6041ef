import SchemaTables.Json.Basic

/-!
Tables of TOML while they are being read. A table can be opened by a header, by a header of a table in
it, or by a key with dots; how it was opened decides what may still be added to it.
-/

namespace SchemaTables.Toml

/-- How a table was opened. -/
inductive Origin where
  /-- By a header of its own. -/
  | header
  /-- By the header of a table inside of it. -/
  | inner
  /-- By a key with dots. -/
  | dotted
deriving DecidableEq, Repr

inductive Entry where
  /-- A value in one piece, to which nothing can be added. -/
  | value (v : Json)
  | table (origin : Origin) (fields : List (String × Entry))
  /-- The tables of one header in double brackets, the last one first. -/
  | tables (elements : List (List (String × Entry)))

/-- The fields of a table in the order of their definition. -/
abbrev Fields := List (String × Entry)

namespace Fields

def has (t : Fields) (name : String) : Bool := t.any (·.1 == name)

/-- Replaces the field with this name. -/
def replace (name : String) (e : Entry) (t : Fields) : Fields :=
  t.map fun f => if f.1 = name then (name, e) else f

/-- Applies `f` to the table that a path of headers leads to, opening tables on the way. Of the tables of
a double header the last is meant. -/
def within (f : Fields → Option Fields) : List String → Fields → Option Fields
  | [], t => f t
  | k :: ks, t =>
    match t.lookup k with
    | none => (within f ks []).map fun inner => t ++ [(k, .table .inner inner)]
    | some (.table o inner) => (within f ks inner).map fun inner => replace k (.table o inner) t
    | some (.tables (last :: others)) =>
      (within f ks last).map fun last => replace k (.tables (last :: others)) t
    | some _ => none

/-- Opens a table by its own header: it is new, or was opened only by headers inside of it. -/
def openTable (name : String) (t : Fields) : Option Fields :=
  match t.lookup name with
  | none => some (t ++ [(name, .table .header [])])
  | some (.table .inner inner) => some (replace name (.table .header inner) t)
  | some _ => none

/-- Adds one more table under a double header. -/
def addTable (name : String) (t : Fields) : Option Fields :=
  match t.lookup name with
  | none => some (t ++ [(name, .tables [[]])])
  | some (.tables elements) => some (replace name (.tables ([] :: elements)) t)
  | some _ => none

/-- Defines a field by a key with dots. The tables on its way must not have headers of their own, and the
last of them must have been opened by a key with dots. -/
def define (name : String) (e : Entry) : List String → Fields → Option Fields
  | [], t => if has t name then none else some (t ++ [(name, e)])
  | k :: ks, t =>
    match t.lookup k with
    | none => (define name e ks []).map fun inner => t ++ [(k, .table .dotted inner)]
    | some (.table o inner) =>
      if o = .header ∨ (ks = [] ∧ o ≠ .dotted) then none
      else (define name e ks inner).map fun inner => replace k (.table o inner) t
    | some (.tables (last :: others)) =>
      if ks = [] then none
      else (define name e ks last).map fun last => replace k (.tables (last :: others)) t
    | some _ => none

end Fields

mutual

/-- The value of an entry. -/
def Entry.toJson : Entry → Json
  | .value v => v
  | .table _ fields => .sortedObj (fieldPairs fields)
  | .tables elements => .arr (elementsToJson elements).reverse

def fieldPairs : List (String × Entry) → List (String × Json)
  | [] => []
  | (k, e) :: fs => (k, e.toJson) :: fieldPairs fs

def elementsToJson : List (List (String × Entry)) → List Json
  | [] => []
  | fs :: more => .sortedObj (fieldPairs fs) :: elementsToJson more

end

end SchemaTables.Toml
