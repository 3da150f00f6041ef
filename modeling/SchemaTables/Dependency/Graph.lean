import SchemaTables.Path.Basic

/-!
Which tables a class needs. A graph holds the own table of every registered class and, for every class
that was mentioned, the set of the tables it depends on. A table belongs to the class registered with
it; of several classes registered with one table the greatest name owns it.
-/

namespace SchemaTables

structure DependencyGraph where
  /-- Own tables, sorted by class name. -/
  tables : List (String × Path) := []
  /-- Dependency sets, sorted by class name. -/
  dependencies : List (String × PathSet) := []
deriving DecidableEq, Repr

namespace DependencyGraph

def empty : DependencyGraph := {}

def table? (g : DependencyGraph) (cls : String) : Option Path := g.tables.lookup cls

def dependencies? (g : DependencyGraph) (cls : String) : Option PathSet := g.dependencies.lookup cls

/-- Records that a class needs a table. -/
def add (g : DependencyGraph) (cls : String) (table : Path) : DependencyGraph :=
  let set := (g.dependencies? cls).getD []
  { g with dependencies := Ordered.put compare cls (set.insert table) g.dependencies }

/-- Makes a table the class's own; a class always needs its own table. -/
def register (g : DependencyGraph) (cls : String) (table : Path) : DependencyGraph :=
  { g.add cls table with tables := Ordered.put compare cls table g.tables }

/-- The class that a table belongs to. -/
def owner? (g : DependencyGraph) (table : Path) : Option String :=
  (g.tables.reverse.find? fun (_, own) => own.compare table == .eq).map (·.1)

/-- The needs of the classes that own a table of the set. -/
def ofOwners (g : DependencyGraph) (set : PathSet) : PathSet :=
  set.foldl (fun found table => found.union (((g.owner? table).bind g.dependencies?).getD [])) []

/-- What a class needs through the tables it needs, and does not know of yet. -/
def unmet (g : DependencyGraph) (cls : String) : PathSet :=
  match g.dependencies? cls with
  | none => []
  | some set => (g.ofOwners set).filter fun table => !set.contains table

/-- Adds to one class what it needs through its tables. -/
def closeClass (g : DependencyGraph) (cls : String) : DependencyGraph :=
  let set := (g.dependencies? cls).getD []
  { g with dependencies := Ordered.put compare cls (PathSet.union set (g.unmet cls)) g.dependencies }

/-- One pass over the classes in the order of their names, each seeing what those before it gained.
The flag tells whether anything was added. -/
def pass (g : DependencyGraph) : Bool × DependencyGraph :=
  (g.dependencies.map (·.1)).foldl
    (fun (changed, g) cls => if (g.unmet cls).isEmpty then (changed, g) else (true, g.closeClass cls))
    (false, g)

/-- How a run of passes ended. -/
inductive Closure where
  /-- A pass added nothing; the passes include that one. -/
  | settled (passes : Nat)
  /-- Every pass that was allowed added something. -/
  | diverged
deriving DecidableEq, Repr

/-- Runs at most `left` passes after `done` of them. -/
def closeFrom (done : Nat) : Nat → DependencyGraph → Closure × DependencyGraph
  | 0, g => (.diverged, g)
  | left + 1, g =>
    match g.pass with
    | (true, g) => closeFrom (done + 1) left g
    | (false, g) => (.settled (done + 1), g)

/-- Closes every set under the needs of the owners of its tables, in at most `limit` passes. A run that
diverges keeps what it added. -/
def close (g : DependencyGraph) (limit : Nat) : Closure × DependencyGraph := closeFrom 0 limit g

end DependencyGraph

end SchemaTables
