import SchemaTables.Text.Search

/-!
References resolved against a base address. The base is cut where its parts begin, and the reference
takes the place of everything from the first part that it names itself. Dot segments stay as they are,
and the base may be a template: what stands in braces is path text like any other.
-/

namespace SchemaTables.Address

/-- The address without its fragment. -/
def withoutFragment (s : List Char) : List Char := Text.before '#' s

/-- The address without query and fragment. -/
def withoutQuery (s : List Char) : List Char := Text.before '?' (withoutFragment s)

/-- The text starts with a scheme and a colon. -/
def hasScheme (s : List Char) : Bool :=
  match Text.cutAt ':' s with
  | some (c :: rest, _) =>
    c.isAlpha && rest.all fun d => d.isAlphanum || d == '+' || d == '-' || d == '.'
  | _ => false

/-- Everything up to the last slash, which is included; nothing when there is none. -/
def directoryOf (path : List Char) : List Char :=
  (path.reverse.dropWhile (· ≠ '/')).reverse

/-- The scheme of an address and what follows `://`; without one all of it follows. -/
def cutScheme (base : List Char) : List Char × List Char :=
  (Text.cutAtText "://".toList base).getD ([], base)

/-- Resolves a reference that is a path relative to the directory of the base. -/
def resolveRelative (base reference : List Char) : List Char :=
  let rest := (cutScheme base).2
  let authorityEnd := base.length - rest.length + (Text.before '/' rest).length
  let whole := withoutQuery base
  let path := whole.drop authorityEnd
  if path.contains '/' then whole.take authorityEnd ++ directoryOf path ++ reference
  else whole ++ '/' :: reference

/-- The address that `reference` denotes for a reader at `base`. -/
def resolveChars (base reference : List Char) : List Char :=
  if reference = [] then withoutFragment base
  else if hasScheme reference then reference
  else
    let (scheme, rest) := cutScheme base
    match reference with
    | '/' :: '/' :: network => scheme ++ "://".toList ++ network
    | '/' :: _ => scheme ++ "://".toList ++ Text.before '/' rest ++ reference
    | '#' :: _ => withoutFragment base ++ reference
    | '?' :: _ => withoutQuery base ++ reference
    | _ => resolveRelative base reference

def resolve (base reference : String) : String :=
  String.ofList (resolveChars base.toList reference.toList)

end SchemaTables.Address
