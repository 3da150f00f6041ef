import SchemaTables.Json.Basic
import SchemaTables.Yaml.Node

/-!
The value of a YAML document. A plain scalar is null, a flag or a number when it looks like one; every
other scalar is its text. Aliases stand for a copy of their node, and are bounded in number so that a
short text cannot have an enormous value.
-/

namespace SchemaTables.Yaml

/-- The value of a digit in bases up to 16. -/
def digit? (base : Nat) (c : Char) : Option Nat := (hexNumber? [c]).filter (· < base)

/-- The number with these digits; there has to be one. -/
def digits? (base : Nat) (ds : List Char) : Option Nat :=
  if ds = [] then none else ds.foldlM (fun n c => (digit? base c).map (n * base + ·)) 0

/-- The magnitude of an integer, from after its sign: in base 16, 8 or 2 after a mark, or else in base 10,
where no zero stands before other digits. -/
def magnitude? (s : List Char) : Option Nat :=
  let marked := match s with
    | '0' :: 'x' :: ds => digits? 16 ds
    | '0' :: 'o' :: ds => digits? 8 ds
    | '0' :: 'b' :: ds => digits? 2 ds
    | _ => none
  marked <|> if s.head? = some '0' ∧ 1 < s.length then none else digits? 10 s

/-- What a plain scalar looks like to someone who reads integers. -/
inductive IntegerReading where
  | integer (n : Int)
  /-- An integer of more than 64 bits, but not more than 128: no value. -/
  | tooLarge
  | otherwise

def readInteger (s : List Char) : IntegerReading :=
  match s with
  | '-' :: s => match magnitude? s with
    | some n => if n ≤ Nat.pow 2 63 then .integer (-(n : Int)) else if n ≤ Nat.pow 2 127 then .tooLarge else .otherwise
    | none => .otherwise
  | s =>
    let s := match s with
      | '+' :: s => s
      | s => s
    match magnitude? s with
    | some n => if n < Nat.pow 2 64 then .integer n else if n < Nat.pow 2 128 then .tooLarge else .otherwise
    | none => .otherwise

/-- The exponent after an `e`; nothing may follow it. -/
def exponent? (s : List Char) : Option Int :=
  match s with
  | '-' :: ds => (digits? 10 ds).map fun n => -(n : Int)
  | '+' :: ds => (digits? 10 ds).map fun n => (n : Int)
  | ds => (digits? 10 ds).map fun n => (n : Int)

/-- The number nearest to a decimal; nothing when it is too large. -/
def decimal? (s : List Char) : Option Binary64 := do
  let (negative, s) := match s with
    | '-' :: s => (true, s)
    | '+' :: s => (false, s)
    | s => (false, s)
  let (whole, s) := s.span Char.isDigit
  let (fraction, s) := match s with
    | '.' :: s => s.span Char.isDigit
    | s => ([], s)
  let digits ← digits? 10 (whole ++ fraction)
  let exponent ← match s with
    | [] => some 0
    | 'e' :: s | 'E' :: s => exponent? s
    | _ => none
  Binary64.ofDecimal negative digits (exponent - fraction.length)

/-- Infinities and what is no number have no value of their own. -/
def isNonFinite (s : String) : Bool :=
  [".inf", ".Inf", ".INF", "+.inf", "+.Inf", "+.INF", "-.inf", "-.Inf", "-.INF", ".nan", ".NaN", ".NAN"].contains s

def float? (s : String) : Option Json :=
  if isNonFinite s then some .null else (decimal? s.toList).map fun x => .num (.float x)

def isNull (s : String) : Bool := ["null", "Null", "NULL", "~"].contains s

def flag? (s : String) : Option Bool :=
  if ["true", "True", "TRUE"].contains s then some true
  else if ["false", "False", "FALSE"].contains s then some false
  else none

/-- Digits after a zero are a text. -/
def isPaddedDigits (s : List Char) : Bool :=
  let s := match s with
    | '-' :: s | '+' :: s => s
    | s => s
  s.head? == some '0' && 1 < s.length && s.all Char.isDigit

/-- The value of a plain scalar without a tag. -/
def plainValue (s : String) : Option Json :=
  if s.isEmpty || isNull s then some .null
  else match flag? s with
    | some b => some (.bool b)
    | none => match readInteger s.toList with
      | .integer n => some (.num (.int n))
      | .tooLarge => none
      | .otherwise =>
        if isPaddedDigits s.toList then some (.str s) else some ((float? s).getD (.str s))

/-- A tag that starts with an exclamation mark belongs to an application, and has no value here. -/
def isOwnTag (tag : Option String) : Bool := tag.any fun t => t.toList.head? == some '!'

/-- The value of a scalar. -/
def scalarValue (tag : Option String) (s : String) (plain : Bool) : Option Json :=
  match tag with
  | none => if plain then plainValue s else some (.str s)
  | some "tag:yaml.org,2002:bool" => (flag? s).map .bool
  | some "tag:yaml.org,2002:int" => match readInteger s.toList with
    | .integer n => some (.num (.int n))
    | _ => none
  | some "tag:yaml.org,2002:float" => float? s
  | some "tag:yaml.org,2002:null" => if isNull s then some .null else none
  | some t => if isOwnTag (some t) then none else some (.str s)

/-- A document whose aliases are to be followed. -/
structure Linked where
  /-- The anchored nodes; of several with one number the first counts. -/
  anchored : List (Nat × Node)
  /-- So many aliases may be followed. -/
  limit : Nat

namespace Linked

/-- The node itself, or the one that an alias stands for. The state counts the aliases followed. -/
def follow (d : Linked) : Node → StateT Nat Option Node
  | .alias a => do
    let n ← get
    if d.limit ≤ n then failure
    set (n + 1)
    StateT.lift (d.anchored.lookup a)
  | n => pure n

/-- The name of a field: the text of a scalar, whatever it looks like. -/
def fieldName (d : Linked) (n : Node) : StateT Nat Option String := do
  match ← d.follow n with
  | .scalar _ s _ => return s
  | _ => failure

/-- The value of a node in which collections lie at most `depth` deep in each other. -/
def value (d : Linked) : Nat → Node → StateT Nat Option Json
  | depth, n => do
    match ← d.follow n with
    | .alias _ => failure
    | .scalar p s plain => StateT.lift (scalarValue p.tag s plain)
    | .sequence p items =>
      match depth with
      | 0 => failure
      | depth + 1 =>
        if isOwnTag p.tag then failure
        let vs ← items.mapM (d.value depth)
        return .arr vs
    | .mapping p entries =>
      match depth with
      | 0 => failure
      | depth + 1 =>
        if isOwnTag p.tag then failure
        let fs ← entries.mapM fun (k, v) => do
          let k ← d.fieldName k
          let v ← d.value depth v
          return (k, v)
        return .sortedObj fs

end Linked

/-- Collections may lie this deep in each other. -/
def maxDepth : Nat := 128

/-- The value of a document. -/
def Node.value (n : Node) : Option Json :=
  ((Linked.mk n.anchored.reverse (100 * n.size)).value maxDepth n 0).map Prod.fst

/-- Reads a text with one document, or none: then its value is null. -/
def parse (text : String) : Option Json := do
  match ← document? (← numbered [] (← tokens? text)) with
  | none => return .null
  | some n => n.value

end SchemaTables.Yaml
