import SchemaTables.Yaml.Tag

/-!
From characters to tokens. Blocks are delimited by indentation, so their starts and ends become tokens
of their own. Whether a token starts a mapping is known only at the colon after it; until then its place
among the tokens is remembered, and the tokens of the mapping are put there when the colon comes.
-/

namespace SchemaTables.Yaml

/-- The tokens of a text; anchors are told apart by names of type `ν`. -/
inductive Token (ν : Type) where
  | directive (d : Directive)
  | documentStart
  | documentEnd
  | blockSequence
  | blockMapping
  | blockEnd
  | flowSequence
  | flowSequenceEnd
  | flowMapping
  | flowMappingEnd
  /-- The dash of a block sequence. -/
  | item
  | comma
  | key
  | value
  | alias (name : ν)
  | anchor (name : ν)
  | tag (t : TagName)
  /-- A scalar, with a flag for plain ones. -/
  | scalar (text : String) (plain : Bool)
deriving DecidableEq, Repr

/-- The place of a token that becomes a key if a colon follows on its line. -/
structure PossibleKey where
  /-- The colon has to come: the token stands where only a key can. -/
  required : Bool
  /-- The number of tokens before it. -/
  place : Nat
  index : Nat
  line : Nat
  column : Nat

/-- The state between two tokens. -/
structure Scanner where
  cursor : Cursor
  tokens : Array (Token String) := #[]
  /-- The column of the innermost block, -1 outside of all blocks. -/
  indent : Int := -1
  /-- The columns of the blocks around it. -/
  indents : List Int := []
  /-- A key may start here. -/
  keyAllowed : Bool := true
  possible : Option PossibleKey := none
  /-- What is possible around the innermost flow collection; empty outside of all of them. -/
  outer : List (Option PossibleKey) := []

namespace Scanner

/-- Inside of a flow collection. -/
def inFlow (s : Scanner) : Bool := !s.outer.isEmpty

def emit (t : Token String) (s : Scanner) : Scanner := { s with tokens := s.tokens.push t }

def allowKey (allowed : Bool) (s : Scanner) : Scanner := { s with keyAllowed := allowed }

/-- Passes over blanks, comments and line breaks. A tab is no blank where a key may start. A byte-order
mark at the start of a line takes a column, so what follows it is indented. -/
def skipSpace : Nat → Scanner → Scanner
  | 0, s => s
  | fuel + 1, s =>
    let c := if s.cursor.column = 0 ∧ s.cursor.sees '\ufeff' then s.cursor.skip 1 else s.cursor
    let tabs := s.inFlow || !s.keyAllowed
    let c := (c.skipWhile fun x => x == ' ' || (tabs && x == '\t')).skipComment
    if c.atBreak then skipSpace fuel { s with cursor := c.skipBreak, keyAllowed := s.keyAllowed || !s.inFlow }
    else { s with cursor := c }

/-- A possible key is no longer one when its line is over, or after 1024 characters. -/
def expired (c : Cursor) (k : PossibleKey) : Bool := k.line < c.line || k.index + 1024 < c.index

/-- Gives up keys that are no longer possible; nothing when one of them is required. -/
def dropExpired (s : Scanner) : Option Scanner :=
  let check (k : Option PossibleKey) : Option (Option PossibleKey) := match k with
    | none => some none
    | some k => if expired s.cursor k then (if k.required then none else some none) else some (some k)
  match check s.possible, s.outer.mapM check with
  | some possible, some outer => some { s with possible, outer }
  | _, _ => none

/-- Gives up the innermost possible key; nothing when it is required. -/
def dropKey (s : Scanner) : Option Scanner :=
  if s.possible.any PossibleKey.required then none else some { s with possible := none }

/-- The next token is a possible key. -/
def noteKey (s : Scanner) : Option Scanner :=
  if s.keyAllowed then
    (dropKey s).map fun s => { s with possible := some {
      required := !s.inFlow && s.indent == (s.cursor.column : Int)
      place := s.tokens.size
      index := s.cursor.index
      line := s.cursor.line
      column := s.cursor.column } }
  else some s

/-- Opens a block at a column that is further in; its token goes to the given place. -/
def openBlock (column : Nat) (place : Nat) (t : Token String) (s : Scanner) : Scanner :=
  if s.inFlow || (column : Int) ≤ s.indent then s
  else { s with
    indent := column
    indents := s.indent :: s.indents
    tokens := s.tokens.insertIdxIfInBounds place t }

/-- Opens a block here. -/
def openHere (t : Token String) (s : Scanner) : Scanner := s.openBlock s.cursor.column s.tokens.size t

/-- Closes blocks that are further in than the column. -/
def closeBlocks (column : Int) (s : Scanner) : Scanner :=
  if s.inFlow then s else go s.indents s
where
  go : List Int → Scanner → Scanner
    | [], s => s
    | i :: is, s => if column < s.indent then go is { (s.emit .blockEnd) with indent := i, indents := is } else s

/-- A token of `width` characters. -/
def symbol (t : Token String) (width : Nat) (s : Scanner) : Scanner :=
  { (s.emit t) with cursor := s.cursor.skip width }

/-- Leaves all blocks, at a directive or a marker between documents. -/
def leaveDocument (s : Scanner) : Option Scanner :=
  (s.closeBlocks (-1)).dropKey.map (allowKey false)

def scanDirective (s : Scanner) : Option Scanner := do
  let s ← s.leaveDocument
  let (d, c) ← directive s.cursor
  return { (s.emit (.directive d)) with cursor := c }

def scanMarker (t : Token String) (s : Scanner) : Option Scanner := s.leaveDocument.map (symbol t 3)

def scanFlowStart (t : Token String) (s : Scanner) : Option Scanner :=
  s.noteKey.map fun s =>
    (({ s with outer := s.possible :: s.outer, possible := none }.allowKey true)).symbol t 1

def scanFlowEnd (t : Token String) (s : Scanner) : Option Scanner :=
  s.dropKey.map fun s =>
    let s := match s.outer with
      | [] => s
      | k :: ks => { s with possible := k, outer := ks }
    (s.allowKey false).symbol t 1

def scanComma (s : Scanner) : Option Scanner := s.dropKey.map fun s => (s.allowKey true).symbol .comma 1

def scanItem (s : Scanner) : Option Scanner :=
  if !s.inFlow && !s.keyAllowed then none
  else (s.openHere .blockSequence).dropKey.map fun s => (s.allowKey true).symbol .item 1

def scanKey (s : Scanner) : Option Scanner :=
  if !s.inFlow && !s.keyAllowed then none
  else (s.openHere .blockMapping).dropKey.map fun s => (s.allowKey (!s.inFlow)).symbol .key 1

def scanValue (s : Scanner) : Option Scanner :=
  match s.possible with
  | some k =>
    let s := { s with tokens := s.tokens.insertIdxIfInBounds k.place .key, possible := none }
    some (((s.openBlock k.column k.place .blockMapping).allowKey false).symbol .value 1)
  | none =>
    if !s.inFlow && !s.keyAllowed then none
    else some (((s.openHere .blockMapping).allowKey (!s.inFlow)).symbol .value 1)

/-- The name of an anchor or alias, and the place after it. -/
def anchorName (c : Cursor) : Option (String × Cursor) :=
  let (name, c) := (c.skip 1).takeWhile isNameChar
  if name = [] then none
  else if c.spaceAt 0 || c.peek?.any (fun x => "?:,]\x7d%@`".toList.contains x) then some (String.ofList name, c)
  else none

/-- A token that may become a key, read by `read`. -/
def scanKeyLike (read : Scanner → Option (Token String × Cursor)) (s : Scanner) : Option Scanner := do
  let s ← s.noteKey
  let (t, c) ← read s
  return { (s.emit t) with cursor := c, keyAllowed := false }

def scanQuoted (single : Bool) : Scanner → Option Scanner :=
  scanKeyLike fun s => (quotedScalar single s.cursor).map fun (text, c) => (.scalar text false, c)

def scanPlain (s : Scanner) : Option Scanner := do
  let s ← s.noteKey
  let (text, broken, c) ← plainScalar s.inFlow (s.indent + 1) s.cursor
  return { (s.emit (.scalar text true)) with cursor := c, keyAllowed := broken }

def scanBlockScalar (literal : Bool) (s : Scanner) : Option Scanner := do
  let s ← s.dropKey
  let (text, c) ← blockScalar literal s.indent s.cursor
  return { (s.emit (.scalar text false)) with cursor := c, keyAllowed := true }

/-- Characters that no plain scalar starts with, unless a character follows that makes them part of it. -/
def isIndicator (x : Char) : Bool := "-?:,[]\x7b\x7d#&*!|>'\"%@`".toList.contains x

def startsPlain (s : Scanner) : Bool :=
  match s.cursor.rest with
  | [] => false
  | x :: rest =>
    (!isIndicator x && !isGap x) || (x == '-' && !rest.head?.any isGap) ||
      (!s.inFlow && (x == '?' || x == ':') && !s.cursor.spaceAt 1)

/-- Reads the token that starts with the character at the front. -/
def scanToken (x : Char) (s : Scanner) : Option Scanner :=
  let atColumn0 := s.cursor.column == 0
  let spaced := s.cursor.spaceAt 1
  if atColumn0 && x == '%' then s.scanDirective
  else if s.cursor.atMarker "---".toList then s.scanMarker .documentStart
  else if s.cursor.atMarker "...".toList then s.scanMarker .documentEnd
  else match x with
    | '[' => s.scanFlowStart .flowSequence
    | '{' => s.scanFlowStart .flowMapping
    | ']' => s.scanFlowEnd .flowSequenceEnd
    | '}' => s.scanFlowEnd .flowMappingEnd
    | ',' => s.scanComma
    | '*' => s.scanKeyLike fun s => (anchorName s.cursor).map fun (n, c) => (.alias n, c)
    | '&' => s.scanKeyLike fun s => (anchorName s.cursor).map fun (n, c) => (.anchor n, c)
    | '!' => s.scanKeyLike fun s => (tagToken s.inFlow s.cursor).map fun (t, c) => (.tag t, c)
    | '\x27' => s.scanQuoted true
    | '"' => s.scanQuoted false
    | _ =>
      if x == '-' && spaced then s.scanItem
      else if x == '?' && (s.inFlow || spaced) then s.scanKey
      else if x == ':' && (s.inFlow || spaced) then s.scanValue
      else if x == '|' && !s.inFlow then s.scanBlockScalar true
      else if x == '>' && !s.inFlow then s.scanBlockScalar false
      else if s.startsPlain then s.scanPlain
      else none

/-- Reads the tokens from here to the end. -/
def run : Nat → Scanner → Option (Array (Token String))
  | 0, _ => none
  | fuel + 1, s =>
    match (s.skipSpace (s.cursor.rest.length + 1)).dropExpired with
    | none => none
    | some s =>
      let s := s.closeBlocks s.cursor.column
      match s.cursor.peek? with
      | none => s.leaveDocument.map Scanner.tokens
      | some x => (s.scanToken x).bind (run fuel)

end Scanner

/-- The tokens of a text. -/
def tokens? (text : String) : Option (List (Token String)) :=
  let s := text.toList
  if s.all isAllowed then (Scanner.run (s.length + 2) { cursor := { rest := s } }).map Array.toList
  else none

end SchemaTables.Yaml
