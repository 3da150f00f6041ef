/-!
Cutting, splitting and replacing on lists of characters. Occurrences of a pattern are taken from the
left and do not overlap. The scans that skip over an occurrence carry the number of characters still
to be skipped, so that each is a plain recursion on the text.
-/

namespace SchemaTables.Text

/-- The text before and after the first `c`. -/
def cutAt (c : Char) : List Char → Option (List Char × List Char)
  | [] => none
  | d :: s => if d = c then some ([], s) else (cutAt c s).map fun (a, b) => (d :: a, b)

/-- The text before the first `c`, all of it when there is none. -/
def before (c : Char) (s : List Char) : List Char := s.takeWhile (· ≠ c)

/-- The text before and after the first occurrence of `pattern`. -/
def cutAtText (pattern : List Char) : List Char → Option (List Char × List Char)
  | [] => none
  | d :: s =>
    if pattern.isPrefixOf (d :: s) then some ([], (d :: s).drop pattern.length)
    else (cutAtText pattern s).map fun (a, b) => (d :: a, b)

/-- Whether `pattern` occurs in the text. -/
def occurs (pattern s : List Char) : Bool := (cutAtText pattern s).isSome

/-- The pieces between the occurrences of `c`; one more than there are occurrences. -/
def splitAt (c : Char) : List Char → List (List Char)
  | [] => [[]]
  | d :: s =>
    if d = c then [] :: splitAt c s
    else match splitAt c s with
      | [] => [[d]]
      | piece :: rest => (d :: piece) :: rest

theorem splitAt_ne_nil (c : Char) (s : List Char) : splitAt c s ≠ [] := by
  cases s with
  | nil => simp [splitAt]
  | cons d s =>
    simp only [splitAt]
    split
    · simp
    · split <;> simp

/-- The pieces of a text whose first `skip` characters belong to an occurrence of `sep`. -/
def piecesFrom (sep : List Char) : Nat → List Char → List (List Char)
  | _, [] => [[]]
  | skip + 1, _ :: s => piecesFrom sep skip s
  | 0, d :: s =>
    if sep.isPrefixOf (d :: s) then [] :: piecesFrom sep (sep.length - 1) s
    else match piecesFrom sep 0 s with
      | [] => [[d]]
      | piece :: rest => (d :: piece) :: rest

/-- The pieces between the occurrences of the text `sep`, which is not empty. -/
def pieces (sep s : List Char) : List (List Char) := piecesFrom sep 0 s

/-- Replaces occurrences of `pattern`, the first `skip` characters being part of one already replaced. -/
def replaceFrom (pattern new : List Char) : Nat → List Char → List Char
  | _, [] => []
  | skip + 1, _ :: s => replaceFrom pattern new skip s
  | 0, d :: s =>
    if pattern.isPrefixOf (d :: s) then new ++ replaceFrom pattern new (pattern.length - 1) s
    else d :: replaceFrom pattern new 0 s

/-- Every occurrence of `pattern`, which is not empty, is replaced by `new`. -/
def replaceAll (pattern new s : List Char) : List Char := replaceFrom pattern new 0 s

/-- The texts one after the other with `sep` between neighbours. -/
def joinWith (sep : String) (texts : List String) : String := sep.intercalate texts

end SchemaTables.Text
