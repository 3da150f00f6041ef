import SchemaTables.Schema.Error

/-!
A view of a schema settles what its names stand for. It is made once; making it finds the slots of
every class, those of the parent first and then the class's own, and refuses duplicate names, unknown
parents, unknown slots and chains of parents that come back to where they started.
-/

namespace SchemaTables

namespace Schema

def class? (s : Schema) (name : String) : Option Class := s.classes.find? (·.name == name)

def slot? (s : Schema) (name : String) : Option Slot := s.slots.find? (·.name == name)

def type? (s : Schema) (name : String) : Option LiteralType := s.types.find? (·.name == name)

end Schema

/-- The first name in the list that an earlier entry has too. -/
def firstDuplicate? (seen : List String) : List String → Option String
  | [] => none
  | n :: rest => if seen.contains n then some n else firstDuplicate? (n :: seen) rest

/-- What the range of a slot names. -/
inductive Range where
  | cls (target : Class)
  | literal (type : LiteralType)
  | unresolved

/-- The slots of the classes resolved so far, by class name. -/
abbrev SlotTable := List (String × List Slot)

/-- The slots that a class declares itself. -/
def Class.ownSlots (s : Schema) (c : Class) : Except SchemaError (List Slot) :=
  c.slots.mapM fun name =>
    match s.slot? name with
    | some slot => .ok slot
    | none => .error (.unknownSlot c.name name)

/-- Adds the slots of a class and of those ancestors that are still missing. `below` holds the classes
whose slots wait for this one, and the fuel is the number of classes that may still join them. -/
def SlotTable.resolve (s : Schema) : Nat → List String → SlotTable → Class → Except SchemaError SlotTable
  | fuel, below, table, c =>
    if (table.lookup c.name).isSome then .ok table
    else if below.contains c.name then .error (.cyclicInheritance (below ++ [c.name]))
    else match c.parent with
      | none => do
        return table ++ [(c.name, ← c.ownSlots s)]
      | some parent =>
        match s.class? parent with
        | none => .error (.unknownParent c.name parent)
        | some p =>
          match fuel with
          | 0 => .error (.cyclicInheritance (below ++ [c.name, p.name]))
          | fuel + 1 => do
            let table ← resolve s fuel (below ++ [c.name]) table p
            let inherited := (table.lookup p.name).getD []
            return table ++ [(c.name, inherited ++ (← c.ownSlots s))]

/-- A schema whose names are settled. -/
structure View where
  schema : Schema
  slotTable : SlotTable

namespace View

/-- The names of one kind are pairwise different. -/
def checkNames (kind : NameKind) (names : List String) : Except SchemaError Unit :=
  match firstDuplicate? [] names with
  | some name => .error (.duplicateName kind name)
  | none => .ok ()

def ofSchema (s : Schema) : Except SchemaError View := do
  checkNames .cls (s.classes.map Class.name)
  checkNames .slot (s.slots.map Slot.name)
  checkNames .literalType (s.types.map LiteralType.name)
  let table ← s.classes.foldlM (SlotTable.resolve s s.classes.length []) []
  return ⟨s, table⟩

def prefixes (v : View) : PrefixTable := v.schema.prefixes

/-- The slots of a class, inherited ones first. -/
def slots (v : View) (cls : String) : Except SchemaError (List Slot) :=
  match v.slotTable.lookup cls with
  | some slots => .ok slots
  | none => .error (.unknownClass cls)

/-- The one identifier among the slots of a class. -/
def identifier (v : View) (cls : String) : Except SchemaError Slot := do
  match (← v.slots cls).filter Slot.identifier with
  | [slot] => return slot
  | found => throw (.identifierCount cls found.length)

/-- Classes come before literal types of the same name. -/
def rangeOf (v : View) (slot : Slot) : Range :=
  match v.schema.class? slot.range with
  | some c => .cls c
  | none =>
    match v.schema.type? slot.range with
    | some t => .literal t
    | none => .unresolved

/-- The classes that become tables: the concrete ones with at least one slot. -/
def tableClasses (v : View) : List Class :=
  v.schema.classes.filter fun c => !c.isAbstract && (v.slotTable.lookup c.name).any (!·.isEmpty)

end View

end SchemaTables
