import SchemaTables.Decimal.Binary64

/-!
The schema language: classes with single inheritance, the slots they declare, and the literal types a
slot may range over. Classes, slots and types refer to each other by name; what the names stand for is
settled by a view.
-/

namespace SchemaTables

/-- A prefix with its base address, sorted by prefix. -/
abbrev PrefixTable := List (String × String)

/-- A numeric bound of a literal slot. -/
inductive Bound where
  | int (n : Int)
  | decimal (x : Binary64)
deriving DecidableEq, Repr

/-- Statements that the schema language has no word for. The first is meant for slots and changes what
a column speaks about, the second for classes and adds statements to every row. -/
inductive Extension where
  | aboutUrl (value : String)
  | virtualTriples (turtle : String)
deriving DecidableEq, Repr

/-- A literal type that slots refer to by name. -/
structure LiteralType where
  name : String
  base : Option String := none
  uri : Option String := none
  title : Option String := none
  description : Option String := none
deriving DecidableEq, Repr

/-- An attribute of a class. -/
structure Slot where
  name : String
  title : Option String := none
  description : Option String := none
  /-- The name of a class or of a literal type. -/
  range : String := "string"
  required : Bool := false
  identifier : Bool := false
  multivalued : Bool := false
  pattern : Option String := none
  minimum : Option Bound := none
  maximum : Option Bound := none
  /-- The prefix put before the values of the slot. -/
  valuePrefix : Option String := none
  designatesType : Bool := false
  /-- The predicate; a slot without one is not published. -/
  uri : Option String := none
  extensions : List Extension := []
deriving DecidableEq, Repr

/-- A class; a concrete one with slots becomes a table. -/
structure Class where
  name : String
  parent : Option String := none
  slots : List String := []
  isAbstract : Bool := false
  uri : Option String := none
  description : Option String := none
  extensions : List Extension := []
deriving DecidableEq, Repr

/-- A whole schema. -/
structure Schema where
  name : String
  description : Option String := none
  /-- The prefix of the addresses of classes that have none of their own. -/
  classPrefix : Option String := none
  prefixes : PrefixTable := []
  types : List LiteralType := []
  classes : List Class := []
  slots : List Slot := []
deriving DecidableEq, Repr

namespace Slot

/-- The heading of the slot's column: the title, or else the name; a star marks a required slot. -/
def columnTitle (s : Slot) : String := s.title.getD s.name ++ if s.required then "*" else ""

/-- The first reference among the extensions. -/
def aboutUrl? (s : Slot) : Option String :=
  s.extensions.findSome? fun
    | .aboutUrl value => some value
    | .virtualTriples _ => none

end Slot

/-- The statement templates among the extensions. -/
def Class.templates (c : Class) : List String :=
  c.extensions.filterMap fun
    | .virtualTriples turtle => some turtle
    | .aboutUrl _ => none

end SchemaTables
