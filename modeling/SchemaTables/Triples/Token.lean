import SchemaTables.Text.Blank
import SchemaTables.Text.Letters
import SchemaTables.Text.Quoted

/-!
The tokens of statement templates, a small part of Turtle: addresses in angle brackets, names with a
prefix, the word `a`, and three separators. Blank space and comments stand between tokens and mean
nothing. The scan is a recursion on the text; its state says what the scan is inside of.
-/

namespace SchemaTables.Triples

inductive Token where
  | iri (reference : String)
  | prefixed (name : String)
  | isType
  | semicolon
  | comma
  | dot
deriving DecidableEq, Repr

/-- How a token is named in a message. -/
def Token.shown : Token → String
  | iri reference => "Iri(" ++ Text.quoted reference ++ ")"
  | prefixed name => "Prefixed(" ++ Text.quoted name ++ ")"
  | isType => "A"
  | semicolon => "Semicolon"
  | comma => "Comma"
  | dot => "Dot"

/-- What is wrong with a template. -/
inductive TemplateError where
  | blankInIri (start : String)
  | openIri (start : String)
  | literal
  | literalWord (word : String)
  | unsupported (c : Char)
  | directive
  | bareWord (word : String)
  | notAddress (found : Token)
  | typeAsObject
  | noPredicate
  | noObject
  | noSeparator (found : Token)
  | noDot
deriving DecidableEq, Repr

namespace TemplateError

/-- Literals have a message of their own; all else is a malformed template. -/
def message : TemplateError → String
  | literal =>
    "literal objects are not supported in virtual triple templates; objects must be URI references"
  | literalWord word =>
    "literal object '" ++ word ++
      "' is not supported in virtual triple templates; objects must be URI references"
  | e => "malformed virtual triple template: " ++ match e with
    | blankInIri start => "whitespace inside <" ++ start
    | openIri start => "unterminated IRI <" ++ start
    | unsupported c => "blank nodes and collections are not supported (found '" ++ c.toString ++ "')"
    | directive => "directives are not supported; schema prefixes are pre-bound"
    | bareWord word => "unexpected token '" ++ word ++ "'"
    | notAddress found => "expected a URI, found " ++ found.shown
    | typeAsObject => "'a' is only valid as a predicate"
    | noPredicate => "statement ends after its subject"
    | noObject => "statement ends before its object"
    | noSeparator found => "expected ',', ';' or '.', found " ++ found.shown
    | noDot => "missing '.' at end of statement"
    | literal | literalWord _ => ""

end TemplateError

/-- Characters that go on with a name after a dot. -/
def isNameChar (c : Char) : Bool :=
  Text.isAlphanumeric c || c == '_' || c == '-' || c == ':' || c == '.' || c == '/' || c == '%'

/-- Whether a word ends before `c`, which is followed by `rest`. A dot ends it unless a character of a
name comes next. -/
def endsWord (c : Char) (rest : List Char) : Bool :=
  Text.isBlank c || c == ';' || c == ',' || c == '<' || c == '"' || c == '#' ||
    (c == '.' && !(rest.head?.any isNameChar))

/-- The token that a whole word stands for. -/
def Token.ofWord (word : List Char) : Except TemplateError Token :=
  if word = ['a'] then .ok .isType
  else if word = "true".toList ∨ word = "false".toList ∨
      word.head?.any (fun c => c.isDigit || c == '-' || c == '+') then
    .error (.literalWord (String.ofList word))
  else if word.contains ':' then .ok (.prefixed (String.ofList word))
  else .error (.bareWord (String.ofList word))

/-- What the scan is inside of; the characters read so far come last one first. -/
inductive ScanState where
  | between
  | comment
  | iri (read : List Char)
  | word (read : List Char)

/-- What `c` starts between tokens, with the token it is if it is one by itself. -/
def ScanState.start (c : Char) : Except TemplateError (List Token × ScanState) :=
  if Text.isBlank c then .ok ([], .between)
  else match c with
    | '#' => .ok ([], .comment)
    | '<' => .ok ([], .iri [])
    | ';' => .ok ([.semicolon], .between)
    | ',' => .ok ([.comma], .between)
    | '.' => .ok ([.dot], .between)
    | '"' | '\x27' => .error .literal
    | '[' | ']' | '(' | ')' | '_' => .error (.unsupported c)
    | '@' => .error .directive
    | c => .ok ([], .word [c])

/-- The tokens of the text that is still to be read. -/
def Token.scan (state : ScanState) : List Char → Except TemplateError (List Token)
  | [] =>
    match state with
    | .between | .comment => .ok []
    | .iri read => .error (.openIri (String.ofList read.reverse))
    | .word read => (ofWord read.reverse).map ([·])
  | c :: s =>
    match state with
    | .comment => scan (if c = '\n' then .between else .comment) s
    | .iri read =>
      if c = '>' then (scan .between s).map (iri (String.ofList read.reverse) :: ·)
      else if Text.isBlank c then .error (.blankInIri (String.ofList read.reverse))
      else scan (.iri (c :: read)) s
    | .between => do
      let (tokens, next) ← ScanState.start c
      return tokens ++ (← scan next s)
    | .word read =>
      if endsWord c s then do
        let word ← ofWord read.reverse
        let (tokens, next) ← ScanState.start c
        return word :: tokens ++ (← scan next s)
      else scan (.word (c :: read)) s

/-- The tokens of a template. -/
def tokenize (text : String) : Except TemplateError (List Token) := Token.scan .between text.toList

end SchemaTables.Triples
