import SchemaTables.Yaml.Scalar

/-!
Tags and directives. A tag is a handle and a suffix; what a handle stands for is given by a directive
before the document.
-/

namespace SchemaTables.Yaml

/-- A tag before its handle is looked up. Without a handle the suffix is the whole tag. -/
structure TagName where
  handle : String
  suffix : String
deriving DecidableEq, Repr

inductive Directive where
  | version (major minor : Nat)
  /-- The handle stands for the start of a tag. -/
  | handle (name start : String)
deriving DecidableEq, Repr

/-- Characters of tags; commas and brackets only where the tag is delimited otherwise. -/
def isTagChar (delimited : Bool) (c : Char) : Bool :=
  isNameChar c || ";/?:@&=+$.%!~*'()".toList.contains c || (delimited && ",[]".toList.contains c)

/-- The octets of a run of percent signs with two hexadecimal digits each, at most `n` of them. -/
def percentOctets : Nat → Cursor → Option (List Nat × Cursor)
  | 0, c => some ([], c)
  | n + 1, c =>
    match c.rest with
    | '%' :: a :: b :: _ =>
      match hexNumber? [a, b], percentOctets n (c.skip 3) with
      | some octet, some (more, c) => some (octet :: more, c)
      | _, _ => none
    | _ => none

/-- How many octets the character has that starts with this one. -/
def octetCount? (first : Nat) : Option Nat :=
  if first < 0x80 then some 1
  else if 0xC0 ≤ first ∧ first < 0xE0 then some 2
  else if 0xE0 ≤ first ∧ first < 0xF0 then some 3
  else if 0xF0 ≤ first ∧ first < 0xF8 then some 4
  else none

/-- A character written as the octets of its encoding. -/
def percentChar? (c : Cursor) : Option (Char × Cursor) := do
  let (start, _) ← percentOctets 1 c
  let first ← start.head?
  let count ← octetCount? first
  let (octets, c) ← percentOctets count c
  if !(octets.drop 1).all fun o => 0x80 ≤ o && o < 0xC0 then none
  let value := octets.tail.foldl (fun n o => n * 64 + o % 64)
    (if count = 1 then first else first % Nat.pow 2 (7 - count))
  return (if value.isValidChar then Char.ofNat value else '\ufffd', c)

/-- Reads the characters of a tag, last one first. -/
def tagCharsFrom (delimited : Bool) : Nat → List Char → Cursor → Option (List Char × Cursor)
  | 0, _, _ => none
  | fuel + 1, acc, c =>
    match c.peek? with
    | some '%' =>
      match percentChar? c with
      | some (x, c) => tagCharsFrom delimited fuel (x :: acc) c
      | none => none
    | some x =>
      if isTagChar delimited x then tagCharsFrom delimited fuel (x :: acc) (c.skip 1) else some (acc, c)
    | none => some (acc, c)

/-- Reads the characters of a tag, none or more. -/
def tagText (delimited : Bool) (c : Cursor) : Option (List Char × Cursor) :=
  (tagCharsFrom delimited (c.rest.length + 1) [] c).map fun (acc, c) => (acc.reverse, c)

/-- Reads the characters of a tag, one or more. -/
def someTagText (delimited : Bool) (c : Cursor) : Option (List Char × Cursor) :=
  (tagText delimited c).filter fun (text, _) => !text.isEmpty

/-- Reads an exclamation mark, a name and the exclamation mark that may close it. -/
def handleText (c : Cursor) : Option (List Char × Cursor) :=
  if c.sees '!' then
    let (name, c) := (c.skip 1).takeWhile isNameChar
    if c.sees '!' then some ('!' :: name ++ ['!'], c.skip 1) else some ('!' :: name, c)
  else none

/-- Reads a tag up to what follows it. -/
def tagName (c : Cursor) : Option (TagName × Cursor) :=
  if (c.skip 1).sees '<' then do
    let (text, c) ← someTagText true (c.skip 2)
    if c.sees '>' then return (⟨"", String.ofList text⟩, c.skip 1) else none
  else do
    let (handle, c) ← handleText c
    if 1 < handle.length ∧ handle.getLast? = some '!' then
      let (text, c) ← someTagText false c
      return (⟨String.ofList handle, String.ofList text⟩, c)
    else
      let (text, c) ← tagText false c
      let suffix := handle.tail ++ text
      return (if suffix = [] then ⟨"", "!"⟩ else ⟨"!", String.ofList suffix⟩, c)

/-- Reads a tag. A blank follows it, or in flow collections a comma. -/
def tagToken (flow : Bool) (c : Cursor) : Option (TagName × Cursor) :=
  (tagName c).filter fun (_, c) => c.spaceAt 0 || (flow && c.sees ',')

/-- Reads a number of at most nine digits. -/
def versionNumber (c : Cursor) : Option (Nat × Cursor) :=
  let (ds, c) := c.takeWhile Char.isDigit
  if ds = [] ∨ 9 < ds.length then none
  else some (ds.foldl (fun n d => n * 10 + (d.toNat - '0'.toNat)) 0, c)

/-- Reads a directive, with the rest of its line. -/
def directive (c : Cursor) : Option (Directive × Cursor) := do
  let (name, c) := (c.skip 1).takeWhile isNameChar
  if name = [] ∨ !c.spaceAt 0 then none
  let (d, c) ←
    if name = "YAML".toList then do
      let (major, c) ← versionNumber (c.skipWhile isGap)
      if !c.sees '.' then none
      let (minor, c) ← versionNumber (c.skip 1)
      pure (Directive.version major minor, c)
    else if name = "TAG".toList then do
      let (handle, c) ← handleText (c.skipWhile isGap)
      if handle ≠ ['!'] ∧ handle.getLast? ≠ some '!' then none
      if !c.atGap then none
      let (start, c) ← someTagText true (c.skipWhile isGap)
      if !c.spaceAt 0 then none
      pure (Directive.handle (String.ofList handle) (String.ofList start), c)
    else none
  let c := (c.skipWhile isGap).skipComment
  if c.atBreak then return (d, c.skipBreak)
  else if c.atEnd then return (d, c)
  else none

end SchemaTables.Yaml
