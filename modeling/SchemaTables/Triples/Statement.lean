import SchemaTables.Address.Curie
import SchemaTables.Address.Reference
import SchemaTables.Ordered

/-!
The statements of a template. A statement is a subject followed by groups of a predicate and its
objects; commas stand between the objects of a group, semicolons between groups, and a dot ends the
statement, which may have one semicolon more right before the dot. Subjects and objects are addresses,
predicates are addresses or the word `a`.
-/

namespace SchemaTables.Triples

structure Triple where
  subject : String
  predicate : String
  object : String
deriving DecidableEq, Repr

/-- By subject, then predicate, then object. -/
def Triple.compare : Triple → Triple → Ordering :=
  compareLex (compareOn subject) (compareLex (compareOn predicate) (compareOn object))

/-- What the word `a` stands for. -/
def typePredicate : String := "http://www.w3.org/1999/02/22-rdf-syntax-ns#type"

/-- The address that a token denotes. -/
def Token.address (prefixes : PrefixTable) (base : String) : Token → Except SchemaError String
  | iri reference => .ok (Address.resolve base reference)
  | prefixed name => Address.expand prefixes name
  | other => .error (.template (.notAddress other))

/-- The address that a token denotes as a predicate. -/
def Token.predicate (prefixes : PrefixTable) (base : String) : Token → Except SchemaError String
  | isType => .ok typePredicate
  | other => other.address prefixes base

/-- The address that a token denotes as an object. -/
def Token.object (prefixes : PrefixTable) (base : String) : Token → Except SchemaError String
  | isType => .error (.template .typeAsObject)
  | other => other.address prefixes base

/-- What may come next in a statement, with what has been said of it so far. -/
inductive Expected where
  | subject
  | predicate (subject : String)
  | predicateOrDot (subject : String)
  | object (subject predicate : String)
  | separator (subject predicate : String)

/-- The triples of the remaining tokens, in the order they are stated. -/
def readStatements (prefixes : PrefixTable) (base : String) (state : Expected) :
    List Token → Except SchemaError (List Triple)
  | [] =>
    match state with
    | .subject => .ok []
    | .predicate _ | .predicateOrDot _ => .error (.template .noPredicate)
    | .object _ _ => .error (.template .noObject)
    | .separator _ _ => .error (.template .noDot)
  | t :: rest =>
    match state with
    | .subject => do
      let s ← t.address prefixes base
      readStatements prefixes base (.predicate s) rest
    | .predicate s => do
      let p ← t.predicate prefixes base
      readStatements prefixes base (.object s p) rest
    | .predicateOrDot s =>
      if t = .dot then readStatements prefixes base .subject rest
      else do
        let p ← t.predicate prefixes base
        readStatements prefixes base (.object s p) rest
    | .object s p => do
      let o ← t.object prefixes base
      return ⟨s, p, o⟩ :: (← readStatements prefixes base (.separator s p) rest)
    | .separator s p =>
      match t with
      | .comma => readStatements prefixes base (.object s p) rest
      | .semicolon => readStatements prefixes base (.predicateOrDot s) rest
      | .dot => readStatements prefixes base .subject rest
      | other => .error (.template (.noSeparator other))

/-- The set of triples that a list of tokens states, in increasing order. -/
def parseStatements (prefixes : PrefixTable) (base : String) (tokens : List Token) :
    Except SchemaError (List Triple) :=
  (readStatements prefixes base .subject tokens).map (Ordered.ofList Triple.compare)

end SchemaTables.Triples
