import SchemaTables.Yaml.Token

/-!
From tokens to the nodes of a document. A text holds at most one document, after which only markers of
its end may come. Where a node may be left out, an empty plain scalar stands for it.
-/

namespace SchemaTables.Yaml

/-- What stands before a node. -/
structure Properties where
  anchor : Option Nat := none
  tag : Option String := none
deriving DecidableEq, Repr

inductive Node where
  /-- The node with this anchor. -/
  | alias (anchor : Nat)
  | scalar (props : Properties) (text : String) (plain : Bool)
  | sequence (props : Properties) (items : List Node)
  | mapping (props : Properties) (entries : List (Node × Node))
deriving Repr

namespace Node

/-- The node that stands for one that is left out. -/
def empty : Node := .scalar {} "" true

mutual

/-- The anchored nodes in the order in which they start. -/
def anchored : Node → List (Nat × Node)
  | .alias _ => []
  | .scalar p text plain => own p (.scalar p text plain)
  | .sequence p items => own p (.sequence p items) ++ anchoredItems items
  | .mapping p entries => own p (.mapping p entries) ++ anchoredEntries entries

def anchoredItems : List Node → List (Nat × Node)
  | [] => []
  | n :: ns => n.anchored ++ anchoredItems ns

def anchoredEntries : List (Node × Node) → List (Nat × Node)
  | [] => []
  | (k, v) :: es => k.anchored ++ v.anchored ++ anchoredEntries es

def own (p : Properties) (n : Node) : List (Nat × Node) :=
  match p.anchor with
  | some a => [(a, n)]
  | none => []

end

mutual

/-- One for a scalar or alias; two for a collection, and those of what is in it. -/
def size : Node → Nat
  | .alias _ | .scalar _ _ _ => 1
  | .sequence _ items => 2 + sizeItems items
  | .mapping _ entries => 2 + sizeEntries entries

def sizeItems : List Node → Nat
  | [] => 0
  | n :: ns => n.size + sizeItems ns

def sizeEntries : List (Node × Node) → Nat
  | [] => 0
  | (k, v) :: es => k.size + v.size + sizeEntries es

end

end Node

/-- The token with another name for its anchor. -/
def Token.rename {ν μ : Type} (name : ν → Option μ) : Token ν → Option (Token μ)
  | .directive d => some (.directive d)
  | .documentStart => some .documentStart
  | .documentEnd => some .documentEnd
  | .blockSequence => some .blockSequence
  | .blockMapping => some .blockMapping
  | .blockEnd => some .blockEnd
  | .flowSequence => some .flowSequence
  | .flowSequenceEnd => some .flowSequenceEnd
  | .flowMapping => some .flowMapping
  | .flowMappingEnd => some .flowMappingEnd
  | .item => some .item
  | .comma => some .comma
  | .key => some .key
  | .value => some .value
  | .alias n => (name n).map .alias
  | .anchor n => (name n).map .anchor
  | .tag t => some (.tag t)
  | .scalar text plain => some (.scalar text plain)

/-- Gives anchors their numbers. The number of an anchor is the count of the names known before it, so a
name that is defined again can share its number with another; nothing for an alias to an unknown name. -/
def numbered (known : List (String × Nat)) : List (Token String) → Option (List (Token Nat))
  | [] => some []
  | t :: ts => do
    let known := match t with
      | .anchor n => (n, known.length) :: known.filter (·.1 ≠ n)
      | _ => known
    let t ← t.rename fun n => known.lookup n
    let ts ← numbered known ts
    return t :: ts

/-- What handles stand for. -/
abbrev Handles := List (String × String)

def standardHandles : Handles := [("!", "!"), ("!!", "tag:yaml.org,2002:")]

/-- The tag with its handle replaced by what it stands for. -/
def TagName.resolve? (handles : Handles) (t : TagName) : Option String :=
  if t.handle.isEmpty then some t.suffix else (handles.lookup t.handle).map (· ++ t.suffix)

/-- Reads the anchor and the tag before a node, in either order. -/
def properties (handles : Handles) : List (Token Nat) → Option (Properties × List (Token Nat))
  | .anchor a :: .tag t :: ts | .tag t :: .anchor a :: ts =>
    (t.resolve? handles).map fun tag => (⟨some a, some tag⟩, ts)
  | .anchor a :: ts => some (⟨some a, none⟩, ts)
  | .tag t :: ts => (t.resolve? handles).map fun tag => (⟨none, some tag⟩, ts)
  | ts => some ({}, ts)

/-- Where a node can stand: inside of a flow collection, in a block, or as the key or value of a block
mapping, where a sequence need not be indented. -/
inductive Place where
  | flow
  | block
  | entry
deriving DecidableEq

mutual

/-- Reads a node. -/
def node (h : Handles) (place : Place) : Nat → List (Token Nat) → Option (Node × List (Token Nat))
  | 0, _ => none
  | _ + 1, .alias a :: ts => some (.alias a, ts)
  | fuel + 1, ts =>
    match properties h ts with
    | none => none
    | some (p, ts) =>
      match ts with
      | .scalar text plain :: ts =>
        some (.scalar (if p.tag = some "!" then { p with tag := none } else p) text plain, ts)
      | .flowSequence :: ts => (flowItems h true fuel ts).map fun (items, ts) => (.sequence p items, ts)
      | .flowMapping :: ts => (flowEntries h true fuel ts).map fun (es, ts) => (.mapping p es, ts)
      | ts =>
        match place, ts with
        | .entry, .item :: _ => (looseItems h fuel ts).map fun (items, ts) => (.sequence p items, ts)
        | .block, .blockSequence :: ts | .entry, .blockSequence :: ts =>
          (blockItems h fuel ts).map fun (items, ts) => (.sequence p items, ts)
        | .block, .blockMapping :: ts | .entry, .blockMapping :: ts =>
          (blockEntries h fuel ts).map fun (es, ts) => (.mapping p es, ts)
        | _, ts => if p = {} then none else some (.scalar p "" true, ts)

/-- Reads a node unless one of the tokens `stop` comes. -/
def nodeUnless (h : Handles) (place : Place) (stop : Token Nat → Bool) :
    Nat → List (Token Nat) → Option (Node × List (Token Nat))
  | 0, _ => none
  | fuel + 1, ts => if ts.head?.any stop then some (.empty, ts) else node h place fuel ts

/-- Reads the items of an indented sequence. -/
def blockItems (h : Handles) : Nat → List (Token Nat) → Option (List Node × List (Token Nat))
  | 0, _ => none
  | fuel + 1, .item :: ts => do
    let (n, ts) ← nodeUnless h .block (fun t => t = .item || t = .blockEnd) fuel ts
    let (ns, ts) ← blockItems h fuel ts
    return (n :: ns, ts)
  | _ + 1, .blockEnd :: ts => some ([], ts)
  | _ + 1, _ => none

/-- Reads the items of a sequence that is not indented; what is no item ends it. -/
def looseItems (h : Handles) : Nat → List (Token Nat) → Option (List Node × List (Token Nat))
  | 0, _ => none
  | fuel + 1, .item :: ts => do
    let (n, ts) ← nodeUnless h .block
      (fun t => t = .item || t = .key || t = .value || t = .blockEnd) fuel ts
    let (ns, ts) ← looseItems h fuel ts
    return (n :: ns, ts)
  | _ + 1, ts => some ([], ts)

/-- Reads the entries of an indented mapping. -/
def blockEntries (h : Handles) : Nat → List (Token Nat) → Option (List (Node × Node) × List (Token Nat))
  | 0, _ => none
  | fuel + 1, .key :: ts => do
    let stop := fun t : Token Nat => t = .key || t = .value || t = .blockEnd
    let (k, ts) ← nodeUnless h .entry stop fuel ts
    let (v, ts) ← match ts with
      | .value :: ts => nodeUnless h .entry stop fuel ts
      | ts => some (.empty, ts)
    let (es, ts) ← blockEntries h fuel ts
    return ((k, v) :: es, ts)
  | _ + 1, .blockEnd :: ts => some ([], ts)
  | _ + 1, _ => none

/-- Reads the items of a sequence in brackets. A key among them makes a mapping of one entry; where that
key is left out, the token after it is passed over. -/
def flowItems (h : Handles) (first : Bool) : Nat → List (Token Nat) → Option (List Node × List (Token Nat))
  | 0, _ => none
  | _ + 1, .flowSequenceEnd :: ts => some ([], ts)
  | fuel + 1, ts =>
    let after := if first then some ts else match ts with
      | .comma :: ts => some ts
      | _ => none
    match after with
    | none => none
    | some (.flowSequenceEnd :: ts) => some ([], ts)
    | some (.key :: ts) => do
      let stop := fun t : Token Nat => t = .comma || t = .flowSequenceEnd
      let (k, ts) ←
        if ts.head?.any fun t => t = .value || stop t then some (.empty, ts.tail)
        else node h .flow fuel ts
      let (v, ts) ← match ts with
        | .value :: ts => nodeUnless h .flow stop fuel ts
        | ts => some (.empty, ts)
      let (ns, ts) ← flowItems h false fuel ts
      return (.mapping {} [(k, v)] :: ns, ts)
    | some ts => do
      let (n, ts) ← node h .flow fuel ts
      let (ns, ts) ← flowItems h false fuel ts
      return (n :: ns, ts)

/-- Reads the entries of a mapping in braces; an entry without a key mark has no value. -/
def flowEntries (h : Handles) (first : Bool) :
    Nat → List (Token Nat) → Option (List (Node × Node) × List (Token Nat))
  | 0, _ => none
  | _ + 1, .flowMappingEnd :: ts => some ([], ts)
  | fuel + 1, ts =>
    let after := if first then some ts else match ts with
      | .comma :: ts => some ts
      | _ => none
    match after with
    | none => none
    | some (.flowMappingEnd :: ts) => some ([], ts)
    | some (.key :: ts) => do
      let stop := fun t : Token Nat => t = .comma || t = .flowMappingEnd
      let (k, ts) ← nodeUnless h .flow (fun t => t = .value || stop t) fuel ts
      let (v, ts) ← match ts with
        | .value :: ts => nodeUnless h .flow stop fuel ts
        | ts => some (.empty, ts)
      let (es, ts) ← flowEntries h false fuel ts
      return ((k, v) :: es, ts)
    | some ts => do
      let (k, ts) ← node h .flow fuel ts
      let (es, ts) ← flowEntries h false fuel ts
      return ((k, .empty) :: es, ts)

end

/-- Reads the directives before a document: at most one version, which is 1.1 or 1.2, and each handle at
most once. Gives what handles stand for. -/
def directives (version : Bool) (given : Handles) : List (Token Nat) → Option (Handles × List (Token Nat))
  | .directive (.version major minor) :: ts =>
    if !version && major == 1 && (minor == 1 || minor == 2) then directives true given ts else none
  | .directive (.handle name start) :: ts =>
    if (given.lookup name).isSome then none else directives version ((name, start) :: given) ts
  | ts => some (given ++ standardHandles, ts)

/-- After the document only markers of its end may come. -/
def onlyEnds (ts : List (Token Nat)) : Bool := ts.all (· = .documentEnd)

/-- The document of a text; nothing inside when the text has none. -/
def document? (ts : List (Token Nat)) : Option (Option Node) := do
  if ts = [] then return none
  let (h, rest) ← directives false [] ts
  let fuel := 4 * rest.length + 8
  let (n, rest) ← match rest with
    | .documentStart :: rest =>
      if rest = [] then some (.empty, rest)
      else nodeUnless h .block (fun t => t = .documentEnd || t matches .directive _) fuel rest
    | rest => if rest.length = ts.length then node h .block fuel rest else none
  if onlyEnds rest then return some n else none

end SchemaTables.Yaml
