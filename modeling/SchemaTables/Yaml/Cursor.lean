/-!
Reading a YAML text from the left. A cursor knows what is left of the text and where it stands; a line
may end in any of five ways, and all of them but two are read as a line feed.
-/

namespace SchemaTables.Yaml

/-- Line feeds, carriage returns and the three separators beyond ASCII. -/
def isBreak (c : Char) : Bool :=
  c == '\n' || c == '\r' || c == '\u0085' || c == '\u2028' || c == '\u2029'

def isGap (c : Char) : Bool := c == ' ' || c == '\t'

/-- Characters of names: of anchors, handles and directives. -/
def isNameChar (c : Char) : Bool := c.isAlphanum || c == '_' || c == '-'

/-- Characters that a text may contain at all. -/
def isAllowed (c : Char) : Bool :=
  let n := c.toNat
  n == 0x09 || n == 0x0A || n == 0x0D || (0x20 ≤ n && n ≤ 0x7E) || n == 0x85 ||
    (0xA0 ≤ n && n ≤ 0xD7FF) || (0xE000 ≤ n && n ≤ 0xFFFD) || 0x10000 ≤ n

/-- A place in a text. -/
structure Cursor where
  rest : List Char
  /-- The number of characters before the place. -/
  index : Nat := 0
  line : Nat := 0
  column : Nat := 0

namespace Cursor

/-- Passes over characters of one line. -/
def skip (k : Nat) (c : Cursor) : Cursor :=
  { c with rest := c.rest.drop k, index := c.index + k, column := c.column + k }

/-- Passes over a line break; a carriage return and a line feed together are one. -/
def skipBreak (c : Cursor) : Cursor :=
  let width := match c.rest with
    | '\r' :: '\n' :: _ => 2
    | _ => 1
  ⟨c.rest.drop width, c.index + width, c.line + 1, 0⟩

/-- What a line break is read as. -/
def breakText (c : Cursor) : List Char :=
  match c.rest with
  | [] => []
  | '\u2028' :: _ => ['\u2028']
  | '\u2029' :: _ => ['\u2029']
  | _ => ['\n']

def peek? (c : Cursor) : Option Char := c.rest.head?

def sees (x : Char) (c : Cursor) : Bool := c.rest.head? == some x

def atEnd (c : Cursor) : Bool := c.rest.isEmpty

def atBreak (c : Cursor) : Bool := c.rest.head?.any isBreak

def atGap (c : Cursor) : Bool := c.rest.head?.any isGap

/-- A blank, a line break or the end lies `k` characters ahead. -/
def spaceAt (k : Nat) (c : Cursor) : Bool :=
  match c.rest[k]? with
  | none => true
  | some x => isGap x || isBreak x

/-- Passes over the characters of this line that satisfy `p`. -/
def skipWhile (p : Char → Bool) (c : Cursor) : Cursor := c.skip (c.rest.takeWhile p).length

/-- The characters at the front that satisfy `p`, and the place after them. -/
def takeWhile (p : Char → Bool) (c : Cursor) : List Char × Cursor :=
  let taken := c.rest.takeWhile p
  (taken, c.skip taken.length)

/-- A marker between documents stands at the start of a line. -/
def atMarker (marker : List Char) (c : Cursor) : Bool :=
  c.column == 0 && marker.isPrefixOf c.rest && c.spaceAt 3

def atDocumentMarker (c : Cursor) : Bool := c.atMarker "---".toList || c.atMarker "...".toList

/-- Passes over a comment up to the end of the line. -/
def skipComment (c : Cursor) : Cursor := if c.sees '#' then c.skipWhile (!isBreak ·) else c

end Cursor

end SchemaTables.Yaml
