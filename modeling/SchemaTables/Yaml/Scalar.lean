import SchemaTables.Yaml.Cursor

/-!
Scalars in their five styles. Quoted and plain scalars may go over several lines: the gap between two
words is kept when it lies within a line, and is folded when it holds a line break. Block scalars take
whole lines, less their indentation.
-/

namespace SchemaTables.Yaml

/-- The blanks and line breaks between two words. -/
structure Gap where
  /-- A line break was passed. -/
  broken : Bool := false
  /-- The blanks before the first line break. -/
  blanks : List Char := []
  first : List Char := []
  /-- The line breaks after the first. -/
  more : List Char := []

namespace Gap

/-- What the gap is in the value: a single line break becomes a space, of several the first is dropped. -/
def text (g : Gap) : List Char :=
  if !g.broken then g.blanks
  else if g.first = ['\n'] then (if g.more = [] then [' '] else g.more)
  else g.first ++ g.more

/-- Reads a gap to its end. Where `margin` is given, no tab may stand before that column at the start of
a line. -/
def read (margin : Option Int) : Nat → Gap → Cursor → Option (Gap × Cursor)
  | 0, g, c => some (g, c)
  | fuel + 1, g, c =>
    match c.peek? with
    | none => some (g, c)
    | some x =>
      if isGap x then
        if g.broken && x == '\t' && margin.any fun m => (c.column : Int) < m then none
        else
          let g := if g.broken then g else { g with blanks := g.blanks ++ [x] }
          read margin fuel g (c.skip 1)
      else if isBreak x then
        let g := if g.broken then { g with more := g.more ++ c.breakText }
          else { g with broken := true, blanks := [], first := c.breakText }
        read margin fuel g c.skipBreak
      else some (g, c)

end Gap

/-- The value of hexadecimal digits. -/
def hexNumber? (ds : List Char) : Option Nat :=
  ds.foldlM (fun n d =>
    if '0' ≤ d ∧ d ≤ '9' then some (n * 16 + (d.toNat - '0'.toNat))
    else if 'a' ≤ d ∧ d ≤ 'f' then some (n * 16 + (d.toNat - 'a'.toNat + 10))
    else if 'A' ≤ d ∧ d ≤ 'F' then some (n * 16 + (d.toNat - 'A'.toNat + 10))
    else none) 0

/-- The character with a number of `digits` hexadecimal digits. -/
def numberedChar? (digits : Nat) (c : Cursor) : Option (Char × Cursor) := do
  let ds := c.rest.take digits
  if ds.length < digits then none
  let n ← hexNumber? ds
  if (0xD800 ≤ n ∧ n ≤ 0xDFFF) ∨ 0x10FFFF < n then none
  return (Char.ofNat n, c.skip digits)

/-- The character of an escape, from after the backslash. -/
def escapedChar? (c : Cursor) : Option (Char × Cursor) :=
  let one (x : Char) := some (x, c.skip 1)
  match c.peek? with
  | some '0' => one '\x00'
  | some 'a' => one '\x07'
  | some 'b' => one '\x08'
  | some 't' | some '\t' => one '\t'
  | some 'n' => one '\n'
  | some 'v' => one '\x0b'
  | some 'f' => one '\x0c'
  | some 'r' => one '\r'
  | some 'e' => one '\x1b'
  | some ' ' => one ' '
  | some '"' => one '"'
  | some '/' => one '/'
  | some '\\' => one '\\'
  | some 'N' => one '\u0085'
  | some '_' => one '\u00a0'
  | some 'L' => one '\u2028'
  | some 'P' => one '\u2029'
  | some 'x' => numberedChar? 2 (c.skip 1)
  | some 'u' => numberedChar? 4 (c.skip 1)
  | some 'U' => numberedChar? 8 (c.skip 1)
  | _ => none

/-- Reads a word inside quotes. The flag tells that it ended in an escaped line break; the characters
come last one first. -/
def quotedWord (single : Bool) : Nat → List Char → Cursor → Option (List Char × Bool × Cursor)
  | 0, _, _ => none
  | fuel + 1, acc, c =>
    if c.spaceAt 0 then some (acc, false, c)
    else match single, c.rest with
      | true, '\x27' :: '\x27' :: _ => quotedWord single fuel ('\x27' :: acc) (c.skip 2)
      | true, '\x27' :: _ => some (acc, false, c)
      | false, '"' :: _ => some (acc, false, c)
      | false, '\\' :: x :: _ =>
        if isBreak x then some (acc, true, (c.skip 1).skipBreak)
        else match escapedChar? (c.skip 1) with
          | some (x, c) => quotedWord single fuel (x :: acc) c
          | none => none
      | false, ['\\'] => none
      | _, x :: _ => quotedWord single fuel (x :: acc) (c.skip 1)
      | _, [] => none

/-- Reads a quoted scalar from after its opening quote. -/
def quotedFrom (single : Bool) : Nat → List Char → Cursor → Option (String × Cursor)
  | 0, _, _ => none
  | fuel + 1, acc, c =>
    if c.atDocumentMarker || c.atEnd then none
    else match quotedWord single (c.rest.length + 1) acc c with
      | none => none
      | some (acc, folded, c) =>
        if c.sees (if single then '\x27' else '"') then some (String.ofList acc.reverse, c.skip 1)
        else match Gap.read none (c.rest.length + 1) { broken := folded } c with
          | none => none
          | some (g, c) => quotedFrom single fuel (g.text.reverse ++ acc) c

/-- Reads a quoted scalar. -/
def quotedScalar (single : Bool) (c : Cursor) : Option (String × Cursor) :=
  quotedFrom single (c.rest.length + 1) [] (c.skip 1)

/-- Brackets and the comma end a plain scalar inside of flow collections. -/
def isFlowIndicator (x : Char) : Bool := x == ',' || x == '[' || x == ']' || x == '{' || x == '}'

/-- Reads a word of a plain scalar; the gap before it goes in as soon as a character follows. -/
def plainWord (flow : Bool) : Nat → List Char → Gap → Cursor → Option (List Char × Gap × Cursor)
  | 0, _, _, _ => none
  | fuel + 1, acc, g, c =>
    match c.rest with
    | [] => some (acc, g, c)
    | x :: s =>
      if c.spaceAt 0 then some (acc, g, c)
      else if flow && x == ':' && s.head?.any (fun y => isFlowIndicator y || y == '?') then none
      else if (x == ':' && c.spaceAt 1) || (flow && isFlowIndicator x) then some (acc, g, c)
      else plainWord flow fuel (x :: g.text.reverse ++ acc) {} (c.skip 1)

/-- Reads the lines of a plain scalar whose continuation lines start at `margin` or after. -/
def plainFrom (flow : Bool) (margin : Int) :
    Nat → List Char → Gap → Cursor → Option (List Char × Gap × Cursor)
  | 0, _, _, _ => none
  | fuel + 1, acc, g, c =>
    if c.atDocumentMarker || c.sees '#' then some (acc, g, c)
    else match plainWord flow (c.rest.length + 1) acc g c with
      | none => none
      | some (acc, g, c) =>
        if !(c.atGap || c.atBreak) then some (acc, g, c)
        else match Gap.read (some margin) (c.rest.length + 1) g c with
          | none => none
          | some (g, c) =>
            if !flow && (c.column : Int) < margin then some (acc, g, c)
            else plainFrom flow margin fuel acc g c

/-- Reads a plain scalar; the flag tells that it was followed by a line break. -/
def plainScalar (flow : Bool) (margin : Int) (c : Cursor) : Option (String × Bool × Cursor) :=
  (plainFrom flow margin (c.rest.length + 1) [] {} c).map fun (acc, g, c) =>
    (String.ofList acc.reverse, g.broken, c)

/-- What happens to the line breaks at the end of a block scalar. -/
inductive Chomping where
  | strip
  | clip
  | keep
deriving DecidableEq

/-- Passes over empty lines before the content of a block scalar, up to its indentation; without one, up
to the first character that is no space. Gives the line breaks, the greatest column and the place. -/
def blockBreaks (indent : Option Nat) : Nat → List Char → Nat → Cursor → Option (List Char × Nat × Cursor)
  | 0, _, _, _ => none
  | fuel + 1, breaks, widest, c =>
    let room := indent.getD (c.column + c.rest.length) - c.column
    let c := c.skip ((c.rest.take room).takeWhile (· == ' ')).length
    let widest := max widest c.column
    if indent.all (c.column < ·) && c.sees '\t' then none
    else if c.atBreak then blockBreaks indent fuel (breaks ++ c.breakText) widest c.skipBreak
    else some (breaks, widest, c)

/-- Reads the lines of a block scalar. `acc` holds the text so far, last character first, `lead` the line
break after the last line and `breaks` those of the empty lines after it. -/
def blockLines (literal : Bool) (indent : Nat) :
    Nat → List Char → List Char → List Char → Bool → Cursor → Option (List Char × List Char × List Char × Cursor)
  | 0, _, _, _, _, _ => none
  | fuel + 1, acc, lead, breaks, afterBlank, c =>
    if c.column ≠ indent || c.atEnd then some (acc, lead, breaks, c)
    else
      let blank := c.atGap
      let joint :=
        if !literal && lead = ['\n'] && !afterBlank && !blank then
          if breaks = [] then [' '] else breaks
        else lead ++ breaks
      let (line, c) := c.takeWhile (!isBreak ·)
      let lead := c.breakText
      let c := if c.atEnd then c else c.skipBreak
      match blockBreaks (some indent) (c.rest.length + 1) [] 0 c with
      | none => none
      | some (breaks, _, c) =>
        blockLines literal indent fuel (line.reverse ++ joint.reverse ++ acc) lead breaks blank c

/-- Reads the indicators of a block scalar: how it ends and how far it is indented. -/
def blockHeader (c : Cursor) : Option (Chomping × Option Nat × Cursor) :=
  let chomping? (c : Cursor) : Option (Chomping × Cursor) := match c.peek? with
    | some '+' => some (.keep, c.skip 1)
    | some '-' => some (.strip, c.skip 1)
    | _ => none
  let digit? (c : Cursor) : Option (Nat × Cursor) := match c.peek? with
    | some d => if d.isDigit then some (d.toNat - '0'.toNat, c.skip 1) else none
    | none => none
  let result := match chomping? c with
    | some (chomping, c) => match digit? c with
      | some (n, c) => (chomping, some n, c)
      | none => (chomping, none, c)
    | none => match digit? c with
      | some (n, c) => match chomping? c with
        | some (chomping, c) => (chomping, some n, c)
        | none => (.clip, some n, c)
      | none => (.clip, none, c)
  if result.2.1 = some 0 then none else some result

/-- Reads a block scalar inside of a block that is indented to column `parent`, -1 at the top. -/
def blockScalar (literal : Bool) (parent : Int) (c : Cursor) : Option (String × Cursor) := do
  let (chomping, increment, c) ← blockHeader (c.skip 1)
  let c := (c.skipWhile isGap).skipComment
  if !(c.atBreak || c.atEnd) then none
  let c := if c.atEnd then c else c.skipBreak
  let given : Option Nat := increment.map fun k => (if 0 ≤ parent then parent + k else k).toNat
  let (breaks, widest, c) ← blockBreaks given (c.rest.length + 1) [] 0 c
  let indent := given.getD (max widest (max (parent + 1).toNat 1))
  let (acc, lead, breaks, c) ← blockLines literal indent (c.rest.length + 1) [] [] breaks false c
  let tail := match chomping with
    | .strip => []
    | .clip => lead
    | .keep => lead ++ breaks
  return (String.ofList (acc.reverse ++ tail), c)

end SchemaTables.Yaml
