import SchemaTables.Path.Basic

/-!
Lexical normal forms of paths, and the relative address of one path as seen from a directory. A normal
form is some parent steps followed by names only; it looks at the text alone, never at what exists.
-/

namespace SchemaTables.Path

/-- One step of the normalisation, on the parts so far with the last one first. A parent step takes
back a name; where there is none to take back it stays. -/
def normalStep (parts : List String) : Component → List String
  | .name n => n :: parts
  | .parent =>
    match parts with
    | [] => [".."]
    | last :: rest => if last = ".." then ".." :: parts else rest
  | .root | .current => parts

/-- The parts of the lexical normal form. -/
def normalParts (p : Path) : List String := (p.components.foldl normalStep []).reverse

/-- The path is absolute or climbs above the directory that it is relative to. -/
def escapesRoot (p : Path) : Bool := p.isAbsolute || p.normalParts.head? == some ".."

/-- The length of the longest common start. -/
def commonLength : List String → List String → Nat
  | a :: as, b :: bs => if a = b then commonLength as bs + 1 else 0
  | _, _ => 0

/-- The address of `target` as seen from the directory `dir`, both relative to one root. -/
def relativeUrl (dir target : Path) : String :=
  let here := dir.normalParts
  let there := target.normalParts
  let common := commonLength here there
  Text.joinWith "/" (List.replicate (here.length - common) ".." ++ there.drop common)

end SchemaTables.Path
