import SchemaTables.Ordered
import SchemaTables.Text.Search

/-!
Paths keep the text they were written with, and are compared by their components: repeated and
trailing slashes say nothing, nor does a `.` anywhere but at the front. So one path has many spellings,
and a set of paths keeps one of them.
-/

namespace SchemaTables

/-- A path as written. -/
structure Path where
  text : String
deriving DecidableEq, Repr, Inhabited

/-- What stands between the slashes. -/
inductive Component where
  | root
  | current
  | parent
  | name (text : String)
deriving DecidableEq, Repr

namespace Component

/-- The root comes before `.`, that before `..`, and that before every name. -/
def rank : Component → Nat
  | root => 0
  | current => 1
  | parent => 2
  | name _ => 3

def text : Component → String
  | root => "/"
  | current => "."
  | parent => ".."
  | name t => t

/-- By rank, names by their text. -/
def compare : Component → Component → Ordering := compareLex (compareOn rank) (compareOn text)

instance : Ord Component := ⟨compare⟩

/-- A piece between two slashes that is not the first of a relative path. -/
def ofPiece? (piece : List Char) : Option Component :=
  if piece = [] ∨ piece = ['.'] then none
  else if piece = ['.', '.'] then some parent
  else some (name (String.ofList piece))

end Component

namespace Path

def ofChars (s : List Char) : Path := ⟨String.ofList s⟩

def chars (p : Path) : List Char := p.text.toList

/-- A path is absolute when it starts with a slash. -/
def isAbsolute (p : Path) : Bool := p.chars.head? == some '/'

def components (p : Path) : List Component :=
  match Text.splitAt '/' p.chars with
  | [] => []
  | first :: rest =>
    let body := rest.filterMap Component.ofPiece?
    if p.isAbsolute then .root :: body
    else if first = ['.'] then .current :: body
    else (Component.ofPiece? first).toList ++ body

/-- Component by component. -/
def compare (p q : Path) : Ordering := compareOn components p q

instance : Ord Path := ⟨compare⟩

/-- Two spellings of one path. -/
def Same (p q : Path) : Prop := p.components = q.components

instance (p q : Path) : Decidable (p.Same q) := inferInstanceAs (Decidable (p.components = q.components))

/-- An absolute path replaces the base; otherwise one slash stands between the two, unless the base is
empty or ends with one. -/
def join (base sub : Path) : Path :=
  if sub.isAbsolute then sub
  else if base.chars = [] ∨ base.chars.getLast? = some '/' then ⟨base.text ++ sub.text⟩
  else ⟨base.text ++ "/" ++ sub.text⟩

/-- The last component, when it is a name. -/
def fileName? (p : Path) : Option String :=
  match p.components.getLast? with
  | some (.name n) => some n
  | _ => none

/-- The part before the last dot and the part after it. A name whose only dot is its first character
has no second part. -/
def splitExtension (name : String) : String × Option String :=
  match Text.cutAt '.' name.toList.reverse with
  | some (ext, stem) =>
    if stem = [] then (name, none)
    else (String.ofList stem.reverse, some (String.ofList ext.reverse))
  | none => (name, none)

def fileStem? (p : Path) : Option String := p.fileName?.map fun n => (splitExtension n).1

def extension? (p : Path) : Option String := p.fileName?.bind fun n => (splitExtension n).2

/-- A spelling of the path with the given components. -/
def ofComponents : List Component → Path
  | .root :: rest => ⟨"/" ++ Text.joinWith "/" (rest.map Component.text)⟩
  | parts => ⟨Text.joinWith "/" (parts.map Component.text)⟩

/-- The path without its last component; the root and the empty path have none. -/
def parent? (p : Path) : Option Path :=
  match p.components.reverse with
  | [] => none
  | [.root] => none
  | _ :: init => some (ofComponents init.reverse)

/-- The parent, unless it is the empty path. -/
def directory? (p : Path) : Option Path := p.parent?.filter fun q => !q.text.isEmpty

/-- The sibling named `name`. -/
def withFileName (p : Path) (name : String) : Path :=
  match p.fileName?, p.parent? with
  | some _, some dir => dir.join ⟨name⟩
  | _, _ => p.join ⟨name⟩

end Path

/-- Paths in increasing order, no two the same. -/
abbrev PathSet := List Path

namespace PathSet

def insert (s : PathSet) (p : Path) : PathSet := Ordered.insert Path.compare p s
def union (s t : PathSet) : PathSet := Ordered.union Path.compare s t

/-- The set of the paths in a list; of several spellings of one path the first counts. -/
def ofList (l : List Path) : PathSet := Ordered.ofList Path.compare l

/-- The set of the paths in a list; of several spellings of one path the last counts. -/
def ofLatest (l : List Path) : PathSet := ofList l.reverse

def contains (s : PathSet) (p : Path) : Bool := Ordered.contains Path.compare s p

end PathSet

end SchemaTables
