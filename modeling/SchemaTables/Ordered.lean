/-!
Sets and maps as lists in increasing order of a comparison. Two keys may compare equal and still be
written differently (a path has many spellings); what was inserted first keeps its spelling, and a map
takes the newer value.
-/

namespace SchemaTables.Ordered

variable {α κ β : Type}

/-- Adds `a` unless something equal to it is there. -/
def insert (cmp : α → α → Ordering) (a : α) : List α → List α
  | [] => [a]
  | b :: s =>
    match cmp a b with
    | .lt => a :: b :: s
    | .eq => b :: s
    | .gt => b :: insert cmp a s

/-- Adds the elements of a list, from the left. -/
def union (cmp : α → α → Ordering) (s t : List α) : List α :=
  t.foldl (fun s a => insert cmp a s) s

def ofList (cmp : α → α → Ordering) (l : List α) : List α := union cmp [] l

def contains (cmp : α → α → Ordering) (s : List α) (a : α) : Bool := s.any (cmp a · == .eq)

/-- Binds `k` to `v`, keeping the spelling of a key that is there already. -/
def put (cmp : κ → κ → Ordering) (k : κ) (v : β) : List (κ × β) → List (κ × β)
  | [] => [(k, v)]
  | (l, w) :: m =>
    match cmp k l with
    | .lt => (k, v) :: (l, w) :: m
    | .eq => (l, v) :: m
    | .gt => (l, w) :: put cmp k v m

def get? (cmp : κ → κ → Ordering) (m : List (κ × β)) (k : κ) : Option β :=
  (m.find? (cmp k ·.1 == .eq)).map (·.2)

def ofPairs (cmp : κ → κ → Ordering) (l : List (κ × β)) : List (κ × β) :=
  l.foldl (fun m (k, v) => put cmp k v m) []

end SchemaTables.Ordered
