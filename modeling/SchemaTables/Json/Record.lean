import SchemaTables.Json.Basic
import SchemaTables.Path.Basic

/-!
Records inside documents. A record is written as an object, whose unknown fields are passed over, or as
the plain list of its fields in their order, from which fields may be missing at the end. Each field is
required, has a default, or may be unset; only the last kind may be null.
-/

namespace SchemaTables.Json

/-- The fields of a record whose field names, in order, are `names`. -/
def record? (names : List String) : Json → Option (List (String × Json))
  | obj fields => some fields
  | arr items => if items.length ≤ names.length then some (names.zip items) else none
  | _ => none

def required {α : Type} (r : List (String × Json)) (name : String) (read : Json → Option α) : Option α :=
  (r.lookup name).bind read

def withDefault {α : Type} (r : List (String × Json)) (name : String) (default : α)
    (read : Json → Option α) : Option α :=
  match r.lookup name with
  | none => some default
  | some v => read v

def optional {α : Type} (r : List (String × Json)) (name : String) (read : Json → Option α) :
    Option (Option α) :=
  match r.lookup name with
  | none | some null => some none
  | some v => (read v).map some

def text? : Json → Option String
  | str s => some s
  | _ => none

def flag? : Json → Option Bool
  | bool b => some b
  | _ => none

/-- An integer that is not negative. -/
def natural? : Json → Option Nat
  | num (.int n) => if 0 ≤ n then some n.toNat else none
  | _ => none

def path? (v : Json) : Option Path := v.text?.map Path.mk

def list? {α : Type} (read : Json → Option α) : Json → Option (List α)
  | arr items => items.mapM read
  | _ => none

/-- A table from names to values of one kind, sorted by name. -/
def table? {α : Type} (read : Json → Option α) : Json → Option (List (String × α))
  | obj fields =>
    (fields.mapM fun f => (read f.2).map fun a => (f.1, a)).map (Ordered.ofPairs compare)
  | _ => none

/-- A set of texts in increasing order. -/
def textSet? (v : Json) : Option (List String) := (v.list? text?).map (Ordered.ofList compare)

/-- A field that is written only when it is set. -/
def whenSome {α : Type} (name : String) (write : α → Json) : Option α → List (String × Json)
  | none => []
  | some a => [(name, write a)]

/-- A field that is written only when its list is not empty. -/
def whenAny {α : Type} (name : String) (write : α → Json) : List α → List (String × Json)
  | [] => []
  | l => [(name, arr (l.map write))]

/-- A flag that is written only when it is up. -/
def whenSet (name : String) : Bool → List (String × Json)
  | false => []
  | true => [(name, bool true)]

def nat (n : Nat) : Json := num (.int n)

def texts (l : List String) : Json := arr (l.map str)

def ofPath (p : Path) : Json := str p.text

def ofTextOption : Option String → Json
  | none => null
  | some s => str s

/-- A table of texts. -/
def ofTable (t : List (String × String)) : Json := obj (t.map fun (k, v) => (k, str v))

end SchemaTables.Json
