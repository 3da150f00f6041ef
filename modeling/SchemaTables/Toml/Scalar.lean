import SchemaTables.Calendar
import SchemaTables.Json.Basic
import SchemaTables.Text.Search

/-!
Strings, numbers and times of TOML. A string may hold every character but control characters, of which
it may hold tabs; one in triple quotes may hold line breaks too. Numbers and times are words without
blanks, but for the one that may stand between a day and a time.
-/

namespace SchemaTables.Toml

/-- Characters of comments and strings. -/
def isAllowed (c : Char) : Bool := c == '\t' || (' ' ≤ c && c ≤ '~') || 0x80 ≤ c.toNat

def isGap (c : Char) : Bool := c == ' ' || c == '\t'

def skipGap (s : List Char) : List Char := s.dropWhile isGap

/-- Passes over a line feed, or a carriage return with one. -/
def lineBreak? : List Char → Option (List Char)
  | '\n' :: s => some s
  | '\r' :: '\n' :: s => some s
  | _ => none

def skipComment : List Char → List Char
  | '#' :: s => s.dropWhile isAllowed
  | s => s

/-- Passes over blanks, comments and line breaks. -/
def skipFiller : Nat → List Char → List Char
  | 0, s => s
  | fuel + 1, s =>
    let s := skipComment (skipGap s)
    match lineBreak? s with
    | some s => skipFiller fuel s
    | none => s

/-! Strings -/

def hexValue? (c : Char) : Option Nat :=
  if '0' ≤ c ∧ c ≤ '9' then some (c.toNat - '0'.toNat)
  else if 'a' ≤ c ∧ c ≤ 'f' then some (c.toNat - 'a'.toNat + 10)
  else if 'A' ≤ c ∧ c ≤ 'F' then some (c.toNat - 'A'.toNat + 10)
  else none

/-- The value of the first `n` characters as hexadecimal digits. -/
def hexNumber? (n : Nat) (s : List Char) : Option Nat :=
  if s.length < n then none else (s.take n).foldlM (fun m c => (hexValue? c).map (m * 16 + ·)) 0

/-- The character with a number of `n` hexadecimal digits. -/
def numberedChar? (n : Nat) (s : List Char) : Option (Char × List Char) :=
  ((hexNumber? n s).filter Nat.isValidChar).map fun m => (Char.ofNat m, s.drop n)

/-- The character of an escape, the part after the backslash. -/
def escape? : List Char → Option (Char × List Char)
  | 'b' :: s => some ('\x08', s)
  | 't' :: s => some ('\t', s)
  | 'n' :: s => some ('\n', s)
  | 'f' :: s => some ('\x0c', s)
  | 'r' :: s => some ('\r', s)
  | '"' :: s => some ('"', s)
  | '\\' :: s => some ('\\', s)
  | 'u' :: s => numberedChar? 4 s
  | 'U' :: s => numberedChar? 8 s
  | _ => none

/-- Passes over the rest of a line that ends in a backslash, and over the blanks and line breaks that
follow; nothing when more than blanks is left of the line. -/
def continuation? (s : List Char) : Option (List Char) :=
  (lineBreak? (skipGap s)).map fun s => skip (s.length + 1) s
where
  skip : Nat → List Char → List Char
    | 0, s => s
    | fuel + 1, s =>
      let s := skipGap s
      match lineBreak? s with
      | some s => skip fuel s
      | none => s

/-- How the characters of a string are read. -/
structure Quotes where
  mark : Char
  /-- Three marks on either side; line breaks are allowed. -/
  triple : Bool
  /-- A backslash starts an escape. -/
  escapes : Bool

/-- Reads a string up to its closing marks. The characters read so far come last one first. In triple
quotes up to two marks may stand right before the closing ones. -/
def stringFrom (q : Quotes) : Nat → List Char → List Char → Option (String × List Char)
  | 0, _, _ => none
  | fuel + 1, acc, s =>
    match s with
    | [] => none
    | c :: t =>
      if c = q.mark then
        if !q.triple then some (String.ofList acc.reverse, t)
        else
          let marks := (s.takeWhile (· = q.mark)).length
          if marks < 3 then stringFrom q fuel (c :: acc) t
          else
            let own := min (marks - 3) 2
            some (String.ofList (List.replicate own c ++ acc).reverse, s.drop (own + 3))
      else if q.escapes && c == '\\' then
        match if q.triple then continuation? t else none with
        | some t => stringFrom q fuel acc t
        | none =>
          match escape? t with
          | some (x, t) => stringFrom q fuel (x :: acc) t
          | none => none
      else if isAllowed c then stringFrom q fuel (c :: acc) t
      else match if q.triple then lineBreak? s else none with
        | some t => stringFrom q fuel ('\n' :: acc) t
        | none => none

/-- Reads a string, its opening marks included. A line break right after three marks is no part of it. -/
def string? (triples : Bool) : List Char → Option (String × List Char)
  | c :: s =>
    if c = '"' ∨ c = '\x27' then
      match triples, s with
      | true, d :: e :: s =>
        if d = c ∧ e = c then
          let s := (lineBreak? s).getD s
          stringFrom ⟨c, true, c == '"'⟩ (s.length + 1) [] s
        else stringFrom ⟨c, false, c == '"'⟩ (s.length + 3) [] (d :: e :: s)
      | _, s => stringFrom ⟨c, false, c == '"'⟩ (s.length + 1) [] s
    else none
  | [] => none

/-! Numbers -/

/-- Digits among which single underscores may stand. -/
def digits? (isDigit : Char → Bool) (s : List Char) : Option (List Char) :=
  let groups := Text.splitAt '_' s
  if groups.all fun g => !g.isEmpty && g.all isDigit then some groups.flatten else none

/-- The digits of a decimal integer; no zero stands before another digit. -/
def wholeDigits? (s : List Char) : Option (List Char) :=
  if s.head? = some '0' ∧ s ≠ ['0'] then none else digits? Char.isDigit s

def ofDigits (base : Nat) (ds : List Char) : Nat :=
  ds.foldl (fun n c => n * base + (hexValue? c).getD 0) 0

/-- Takes the sign off; the flag tells that it is a minus. -/
def splitSign : List Char → Bool × List Char
  | '-' :: s => (true, s)
  | '+' :: s => (false, s)
  | s => (false, s)

/-- A number is an integer only if it fits into 64 bits with a sign. -/
def bounded? (n : Int) : Option Json :=
  if Number.minInt ≤ n ∧ n ≤ Number.maxSigned then some (.num (.int n)) else none

def isDigitIn (base : Nat) (c : Char) : Bool := (hexValue? c).any (· < base)

def integer? : List Char → Option Json
  | '0' :: 'x' :: s => (digits? (isDigitIn 16) s).bind fun ds => bounded? (ofDigits 16 ds)
  | '0' :: 'o' :: s => (digits? (isDigitIn 8) s).bind fun ds => bounded? (ofDigits 8 ds)
  | '0' :: 'b' :: s => (digits? (isDigitIn 2) s).bind fun ds => bounded? (ofDigits 2 ds)
  | s =>
    let (negative, s) := splitSign s
    (wholeDigits? s).bind fun ds =>
      let n : Int := ofDigits 10 ds
      bounded? (if negative then -n else n)

/-- What is no number, and what is beyond all numbers, has no value of its own. -/
def float? (s : List Char) : Option Json := do
  let (negative, s) := splitSign s
  if s = "inf".toList ∨ s = "nan".toList then return .null
  let (mantissa, exponent) := match s.span (fun c => c ≠ 'e' && c ≠ 'E') with
    | (m, _ :: e) => (m, some e)
    | (m, []) => (m, none)
  let (whole, fraction) := match Text.cutAt '.' mantissa with
    | some (w, f) => (w, some f)
    | none => (mantissa, none)
  if fraction = none ∧ exponent = none then none
  let whole ← wholeDigits? whole
  let fraction ← match fraction with
    | some f => digits? Char.isDigit f
    | none => some []
  let power ← match exponent with
    | some e =>
      let (down, e) := splitSign e
      (digits? Char.isDigit e).map fun ds => if down then -(ofDigits 10 ds : Int) else ofDigits 10 ds
    | none => some 0
  match Binary64.ofDecimal negative (ofDigits 10 (whole ++ fraction)) (power - fraction.length) with
  | some x => some (.num (.float x))
  | none => if negative then some .null else none

/-! Times -/

/-- A number of exactly `n` digits between two bounds. -/
def field? (n least greatest : Nat) (s : List Char) : Option (Nat × List Char) :=
  let ds := s.take n
  if ds.length = n ∧ ds.all Char.isDigit then
    let v := ofDigits 10 ds
    if least ≤ v ∧ v ≤ greatest then some (v, s.drop n) else none
  else none

/-- Passes over one character. -/
def expect (c : Char) (s : List Char) : Option (List Char) :=
  if s.head? = some c then some s.tail else none

/-- Reads a day; the text of it is the one read. -/
def day? (s : List Char) : Option (List Char × List Char) := do
  let (y, r) ← field? 4 0 9999 s
  let (m, r) ← field? 2 1 12 (← expect '-' r)
  let (_, r) ← field? 2 1 (Day.monthLength y m) (← expect '-' r)
  return (s.take 10, r)

/-- Reads a time of day; of its fraction nine digits count, and no zeros at the end. -/
def clock? (s : List Char) : Option (List Char × List Char) := do
  let (_, r) ← field? 2 0 23 s
  let (_, r) ← field? 2 0 59 (← expect ':' r)
  let (_, r) ← field? 2 0 60 (← expect ':' r)
  match r with
  | '.' :: f =>
    let (ds, r) := f.span Char.isDigit
    if ds = [] then none
    let kept := ((ds.take 9).reverse.dropWhile (· = '0')).reverse
    return (s.take 8 ++ (if kept = [] then [] else '.' :: kept), r)
  | r => return (s.take 8, r)

/-- Reads the distance from universal time. -/
def zone? : List Char → Option (List Char × List Char)
  | 'Z' :: r | 'z' :: r => some (['Z'], r)
  | sign :: s =>
    if sign = '+' ∨ sign = '-' then do
      let (h, r) ← field? 2 0 23 s
      let (m, r) ← field? 2 0 59 (← expect ':' r)
      return ((if h = 0 ∧ m = 0 then '+' else sign) :: s.take 5, r)
    else none
  | [] => none

/-- The text of a time in its plain spelling. The word is a day, a time of day, or both with one mark
between them and perhaps a distance from universal time. -/
def time? (s : List Char) : Option String :=
  match day? s with
  | some (d, []) => some (String.ofList d)
  | some (d, mark :: r) =>
    if mark = 'T' ∨ mark = 't' ∨ mark = ' ' then
      match clock? r with
      | some (t, []) => some (String.ofList (d ++ 'T' :: t))
      | some (t, r) =>
        match zone? r with
        | some (z, []) => some (String.ofList (d ++ 'T' :: t ++ z))
        | _ => none
      | none => none
    else none
  | none =>
    match clock? s with
    | some (t, []) => some (String.ofList t)
    | _ => none

/-- A time is an object with one field of this name. -/
def timeField : String := "$__toml_private_datetime"

/-! Words -/

def isWordChar (c : Char) : Bool := c.isAlphanum || "+-_.:".toList.contains c

/-- Reads the word of a number, time or flag. A blank between a day and a digit belongs to it. -/
def word (s : List Char) : List Char × List Char :=
  let (w, r) := s.span isWordChar
  match r with
  | ' ' :: c :: r =>
    if (day? w).any (fun d => d.2.isEmpty) && c.isDigit then
      let (v, r) := (c :: r).span isWordChar
      (w ++ ' ' :: v, r)
    else (w, ' ' :: c :: r)
  | r => (w, r)

/-- The value of a word. -/
def wordValue (w : List Char) : Option Json :=
  if w = "true".toList then some (.bool true)
  else if w = "false".toList then some (.bool false)
  else match time? w with
    | some t => some (.obj [(timeField, .str t)])
    | none => float? w <|> integer? w

end SchemaTables.Toml
