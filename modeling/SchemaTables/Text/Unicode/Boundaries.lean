/-!
A set of code points, written as the increasing list of the places where membership changes. A code
point belongs to the set when an odd number of boundaries lie at or below it, so a table of a Unicode
property needs two numbers for each of its ranges.
-/

namespace SchemaTables.Text.Unicode

/-- Increasing code points: the first starts a range, the second ends it (exclusively), and so on. -/
structure Boundaries where
  points : Array Nat

namespace Boundaries

/-- How many boundaries lie at or below `n`. -/
def rank (b : Boundaries) (n : Nat) : Nat := b.points.foldl (fun k p => if p ≤ n then k + 1 else k) 0

def contains (b : Boundaries) (c : Char) : Bool := b.rank c.toNat % 2 == 1

end Boundaries

end SchemaTables.Text.Unicode
