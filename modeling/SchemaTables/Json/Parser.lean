import SchemaTables.Json.Number

/-!
Reading documents. A value may be nested 127 deep. Between the parts of a value stand spaces, tabs and
line breaks; a string holds no raw control character and no half of a surrogate pair; of two fields
with one name the later counts.
-/

namespace SchemaTables.Json

def isSpace (c : Char) : Bool := c == ' ' || c == '\n' || c == '\t' || c == '\r'

def skipSpace (s : List Char) : List Char := s.dropWhile isSpace

def hexValue? (c : Char) : Option Nat :=
  if '0' ≤ c ∧ c ≤ '9' then some (c.toNat - '0'.toNat)
  else if 'a' ≤ c ∧ c ≤ 'f' then some (c.toNat - 'a'.toNat + 10)
  else if 'A' ≤ c ∧ c ≤ 'F' then some (c.toNat - 'A'.toNat + 10)
  else none

def unit? : List Char → Option (Nat × List Char)
  | a :: b :: c :: d :: s => do
    let a ← hexValue? a
    let b ← hexValue? b
    let c ← hexValue? c
    let d ← hexValue? d
    return (((a * 16 + b) * 16 + c) * 16 + d, s)
  | _ => none

def isHighSurrogate (n : Nat) : Bool := 0xD800 ≤ n && n < 0xDC00
def isLowSurrogate (n : Nat) : Bool := 0xDC00 ≤ n && n < 0xE000

/-- The character of an escape with code units, the part after `\u`. -/
def unicodeEscape? (s : List Char) : Option (Char × List Char) := do
  let (n, s) ← unit? s
  if isHighSurrogate n then
    match s with
    | '\\' :: 'u' :: s => do
      let (m, s) ← unit? s
      if isLowSurrogate m then
        return (Char.ofNat (0x10000 + (n - 0xD800) * 0x400 + (m - 0xDC00)), s)
      else none
    | _ => none
  else if isLowSurrogate n then none
  else return (Char.ofNat n, s)

/-- The character of an escape, the part after the backslash. -/
def escape? : List Char → Option (Char × List Char)
  | '"' :: s => some ('"', s)
  | '\\' :: s => some ('\\', s)
  | '/' :: s => some ('/', s)
  | 'b' :: s => some ('\x08', s)
  | 'f' :: s => some ('\x0c', s)
  | 'n' :: s => some ('\n', s)
  | 'r' :: s => some ('\r', s)
  | 't' :: s => some ('\t', s)
  | 'u' :: s => unicodeEscape? s
  | _ => none

/-- Reads a string up to its closing quote. The characters read so far come last one first. -/
def stringFrom : Nat → List Char → List Char → Option (String × List Char)
  | 0, _, _ => none
  | fuel + 1, acc, s =>
    match s with
    | [] => none
    | '"' :: s => some (String.ofList acc.reverse, s)
    | '\\' :: s => do
      let (c, s) ← escape? s
      stringFrom fuel (c :: acc) s
    | c :: s => if c.toNat < 32 then none else stringFrom fuel (c :: acc) s

/-- Reads a string, its opening quote included. -/
def string? : List Char → Option (String × List Char)
  | '"' :: s => stringFrom (s.length + 1) [] s
  | _ => none

/-- Reads the items of an array after its first bracket or a comma. -/
def itemsFrom (value : List Char → Option (Json × List Char)) :
    Nat → List Json → List Char → Option (List Json × List Char)
  | 0, _, _ => none
  | fuel + 1, acc, s => do
    let (v, s) ← value s
    match skipSpace s with
    | ',' :: s => itemsFrom value fuel (v :: acc) s
    | ']' :: s => return ((v :: acc).reverse, s)
    | _ => none

/-- Reads the fields of an object after its first brace or a comma. -/
def fieldsFrom (value : List Char → Option (Json × List Char)) :
    Nat → List (String × Json) → List Char → Option (List (String × Json) × List Char)
  | 0, _, _ => none
  | fuel + 1, acc, s => do
    let (k, s) ← string? (skipSpace s)
    match skipSpace s with
    | ':' :: s => do
      let (v, s) ← value s
      match skipSpace s with
      | ',' :: s => fieldsFrom value fuel ((k, v) :: acc) s
      | '}' :: s => return (((k, v) :: acc).reverse, s)
      | _ => none
    | _ => none

/-- Reads one value and the space before it; `depth` bounds its nesting. -/
def value? : Nat → List Char → Option (Json × List Char)
  | 0, _ => none
  | depth + 1, s =>
    match skipSpace s with
    | 'n' :: 'u' :: 'l' :: 'l' :: s => some (null, s)
    | 't' :: 'r' :: 'u' :: 'e' :: s => some (bool true, s)
    | 'f' :: 'a' :: 'l' :: 's' :: 'e' :: s => some (bool false, s)
    | '"' :: s => (string? ('"' :: s)).map fun (t, s) => (str t, s)
    | '[' :: s =>
      if depth = 0 then none
      else match skipSpace s with
        | ']' :: s => some (arr [], s)
        | s => (itemsFrom (value? depth) (s.length + 1) [] s).map fun (vs, s) => (arr vs, s)
    | '{' :: s =>
      if depth = 0 then none
      else match skipSpace s with
        | '}' :: s => some (obj [], s)
        | s => (fieldsFrom (value? depth) (s.length + 1) [] s).map fun (fs, s) => (sortedObj fs, s)
    | s => (number? s).map fun (n, s) => (num n, s)

/-- Arrays and objects may lie this deep in each other. -/
def maxDepth : Nat := 128

/-- Reads a text that holds one document and nothing else. -/
def parse (text : String) : Option Json :=
  match value? maxDepth text.toList with
  | some (v, s) => if (skipSpace s).isEmpty then some v else none
  | none => none

end SchemaTables.Json
