import SchemaTables.Json.Basic

/-!
Documents as text: on one line without any space, or with one field or item to a line, indented. Empty
arrays and objects stay on their line in both.
-/

namespace SchemaTables.Json

def hex4 (n : Nat) : String :=
  let ds := Nat.toDigits 16 n
  String.ofList (List.replicate (4 - ds.length) '0' ++ ds)

/-- A character inside a string: quotes, backslashes and controls are escaped, nothing else is. -/
def escapeChar (c : Char) : String :=
  match c with
  | '"' => "\\\""
  | '\\' => "\\\\"
  | '\n' => "\\n"
  | '\r' => "\\r"
  | '\t' => "\\t"
  | '\x08' => "\\b"
  | '\x0c' => "\\f"
  | c => if c.toNat < 32 then "\\u" ++ hex4 c.toNat else c.toString

def quoteText (s : String) : String := "\"" ++ String.join (s.toList.map escapeChar) ++ "\""

mutual

/-- The value on one line. -/
def compact : Json → String
  | null => "null"
  | bool b => if b then "true" else "false"
  | num n => n.render
  | str s => quoteText s
  | arr items => "[" ++ compactItems items ++ "]"
  | obj fields => "\x7b" ++ compactFields fields ++ "\x7d"

def compactItems : List Json → String
  | [] => ""
  | [v] => v.compact
  | v :: vs => v.compact ++ "," ++ compactItems vs

def compactFields : List (String × Json) → String
  | [] => ""
  | [(k, v)] => quoteText k ++ ":" ++ v.compact
  | (k, v) :: fs => quoteText k ++ ":" ++ v.compact ++ "," ++ compactFields fs

end

mutual

/-- The value over several lines; `margin` starts the lines of the value, `step` is one level more. -/
def indented (step margin : String) : Json → String
  | null => "null"
  | bool b => if b then "true" else "false"
  | num n => n.render
  | str s => quoteText s
  | arr [] => "[]"
  | arr (v :: vs) =>
    let inner := margin ++ step
    "[\n" ++ inner ++ v.indented step inner ++ indentedItems step inner vs ++ "\n" ++ margin ++ "]"
  | obj [] => "\x7b\x7d"
  | obj ((k, v) :: fs) =>
    let inner := margin ++ step
    "\x7b\n" ++ inner ++ quoteText k ++ ": " ++ v.indented step inner ++
      indentedFields step inner fs ++ "\n" ++ margin ++ "\x7d"

/-- The items after the first. -/
def indentedItems (step inner : String) : List Json → String
  | [] => ""
  | v :: vs => ",\n" ++ inner ++ v.indented step inner ++ indentedItems step inner vs

/-- The fields after the first. -/
def indentedFields (step inner : String) : List (String × Json) → String
  | [] => ""
  | (k, v) :: fs =>
    ",\n" ++ inner ++ quoteText k ++ ": " ++ v.indented step inner ++ indentedFields step inner fs

end

/-- The form of reports and run records: two spaces a level, no line break at the end. -/
def report (v : Json) : String := v.indented "  " ""

/-- The form of published documents: four spaces a level, a line break at the end. -/
def document (v : Json) : String := v.indented "    " "" ++ "\n"

end SchemaTables.Json
