import SchemaTables.Toml.Scalar
import SchemaTables.Toml.Table

/-!
Reading TOML. A text is a list of lines, each of which defines a field of the table opened last, opens a
table, or is empty.
-/

namespace SchemaTables.Toml

/-- Collections lie less deep in each other, and keys have fewer parts. -/
def limit : Nat := 80

def isBareChar (c : Char) : Bool := c.isAlphanum || c == '_' || c == '-'

/-- Reads one part of a key: a bare word, or a string on one line. -/
def keyPart? (s : List Char) : Option (String × List Char) :=
  match s.span isBareChar with
  | ([], s) => string? false s
  | (w, s) => some (String.ofList w, s)

/-- Reads the parts of a key; blanks may stand around each. -/
def keyFrom : Nat → List String → List Char → Option (List String × List Char)
  | 0, _, _ => none
  | fuel + 1, acc, s => do
    let (part, s) ← keyPart? (skipGap s)
    match skipGap s with
    | '.' :: s => keyFrom fuel (part :: acc) s
    | s => return (part :: acc, s)

/-- Reads a key as its last part and the parts before it. -/
def key? (s : List Char) : Option (String × List String × List Char) :=
  match keyFrom limit [] s with
  | some (last :: before, s) => if before.length + 1 < limit then some (last, before.reverse, s) else none
  | _ => none

/-- Reads the items of an array after its bracket or a comma. -/
def itemsFrom (value : List Char → Option (Json × List Char)) :
    Nat → List Json → List Char → Option (List Json × List Char)
  | 0, _, _ => none
  | fuel + 1, acc, s =>
    match skipFiller (s.length + 1) s with
    | ']' :: s => some (acc.reverse, s)
    | s => do
      let (v, s) ← value s
      match skipFiller (s.length + 1) s with
      | ',' :: s => itemsFrom value fuel (v :: acc) s
      | ']' :: s => return ((v :: acc).reverse, s)
      | _ => none

/-- Reads the fields of a table in braces after its brace or a comma. -/
def fieldsFrom (value : List Char → Option (Json × List Char)) :
    Nat → Fields → List Char → Option (Fields × List Char)
  | 0, _, _ => none
  | fuel + 1, t, s => do
    let (name, before, s) ← key? s
    let s ← expect '=' s
    let (v, s) ← value (skipGap s)
    let t ← Fields.define name (.value v) before t
    match skipGap s with
    | ',' :: s => fieldsFrom value fuel t s
    | '}' :: s => return (t, s)
    | _ => none

/-- Reads a value; `depth` bounds how deep collections lie in it. -/
def value? : Nat → List Char → Option (Json × List Char)
  | depth, s =>
    match s with
    | '"' :: _ | '\x27' :: _ => (string? true s).map fun (t, s) => (.str t, s)
    | '[' :: s =>
      match depth with
      | 0 => none
      | depth + 1 => (itemsFrom (value? depth) (s.length + 1) [] s).map fun (vs, s) => (.arr vs, s)
    | '{' :: s =>
      match depth with
      | 0 => none
      | depth + 1 =>
        match skipGap s with
        | '}' :: s => some (.obj [], s)
        | s => (fieldsFrom (value? depth) (s.length + 1) [] s).map fun (t, s) =>
            ((Entry.table .header t).toJson, s)
    | s =>
      let (w, s) := word s
      (wordValue w).map fun v => (v, s)

/-- The table opened last, as the path of its headers, and all that was read. -/
structure Reading where
  path : List String := []
  root : Fields := []

/-- Passes over what may stand at the end of a line. -/
def lineEnd? (s : List Char) : Option (List Char) :=
  match skipComment (skipGap s) with
  | [] => some []
  | s => lineBreak? s

/-- Reads a header in double brackets, from after them. -/
def doubleHeader (r : Reading) (s : List Char) : Option (Reading × List Char) := do
  let (name, before, s) ← key? s
  let s ← expect ']' s
  let s ← expect ']' s
  return (⟨before ++ [name], ← Fields.within (Fields.addTable name) before r.root⟩, s)

/-- Reads a header in brackets, from after the first. -/
def header (r : Reading) (s : List Char) : Option (Reading × List Char) := do
  let (name, before, s) ← key? s
  let s ← expect ']' s
  return (⟨before ++ [name], ← Fields.within (Fields.openTable name) before r.root⟩, s)

/-- Reads the definition of a field. -/
def definition (r : Reading) (s : List Char) : Option (Reading × List Char) := do
  let (name, before, s) ← key? s
  let s ← expect '=' s
  let (v, s) ← value? (limit - 1) (skipGap s)
  return ({ r with root := ← Fields.within (Fields.define name (.value v) before) r.path r.root }, s)

/-- Reads what stands on a line. -/
def line (r : Reading) (s : List Char) : Option (Reading × List Char) :=
  match s with
  | [] | '#' :: _ | '\n' :: _ | '\r' :: _ => some (r, s)
  | '[' :: '[' :: s => doubleHeader r s
  | '[' :: s => header r s
  | s => definition r s

/-- Reads lines to the end. -/
def linesFrom : Nat → Reading → List Char → Option Fields
  | 0, _, _ => none
  | fuel + 1, r, s =>
    match line r (skipGap s) with
    | none => none
    | some (r, s) =>
      match lineEnd? s with
      | none => none
      | some [] => some r.root
      | some s => linesFrom fuel r s

/-- Reads a text as one table. A byte-order mark may stand before it. -/
def parse (text : String) : Option Json :=
  let s := match text.toList with
    | '\ufeff' :: s => s
    | s => s
  (linesFrom (s.length + 1) {} s).map fun t => (Entry.table .header t).toJson

end SchemaTables.Toml
