import SchemaTables.Proofs.Ordered
import SchemaTables.Proofs.Table.Validity
import SchemaTables.Triples.Statement

/-!
The grammar of templates. A statement is a subject followed by clauses, a clause a predicate followed by its
objects; without these abbreviations it stands for sentences of one subject, one predicate and one object each.
The reader accepts the tokens of statements whose names expand and nothing else, and what it returns are the
triples that the sentences denote.
-/

namespace SchemaTables.Triples

set_option autoImplicit false

/-- An address as a template writes it. -/
inductive Term where
  | iri (reference : String)
  | prefixed (name : String)
deriving DecidableEq, Repr

/-- A predicate as a template writes it. -/
inductive Verb where
  | term (t : Term)
  | isType
deriving DecidableEq, Repr

/-- A predicate with its objects, of which there is at least one. -/
structure Clause where
  verb : Verb
  object : Term
  more : List Term := []
deriving DecidableEq, Repr

/-- A subject with what is said of it, in at least one clause. -/
structure Statement where
  subject : Term
  clause : Clause
  more : List Clause := []
  /-- Whether one semicolon more stands right before the dot. -/
  trailing : Bool := false
deriving DecidableEq, Repr

/-- A statement with nothing left out. -/
structure Sentence where
  subject : Term
  verb : Verb
  object : Term
deriving DecidableEq, Repr

namespace Term

def token : Term → Token
  | iri reference => .iri reference
  | prefixed name => .prefixed name

/-- The address that a written address denotes for a reader at the base. -/
inductive Denotes (prefixes : PrefixTable) (base : String) : Term → String → Prop where
  | iri (reference : String) : Denotes prefixes base (iri reference) (Address.resolve base reference)
  | prefixed {name address : String} :
      Address.expand prefixes name = .ok address → Denotes prefixes base (prefixed name) address

end Term

namespace Verb

def token : Verb → Token
  | term t => t.token
  | isType => .isType

/-- The predicate that a written predicate denotes. -/
inductive Denotes (prefixes : PrefixTable) (base : String) : Verb → String → Prop where
  | term {t : Term} {address : String} :
      t.Denotes prefixes base address → Denotes prefixes base (term t) address
  | isType : Denotes prefixes base isType "http://www.w3.org/1999/02/22-rdf-syntax-ns#type"

end Verb

/-- Further objects, each after a comma. -/
def objectTokens (objects : List Term) : List Token := objects.flatMap fun o => [.comma, o.token]

namespace Clause

def objects (c : Clause) : List Term := c.object :: c.more

def tokens (c : Clause) : List Token := c.verb.token :: c.object.token :: objectTokens c.more

end Clause

/-- Further clauses, each after a semicolon. -/
def clauseTokens (clauses : List Clause) : List Token := clauses.flatMap fun c => .semicolon :: c.tokens

/-- The end of a statement. -/
def endTokens (trailing : Bool) : List Token := if trailing then [.semicolon, .dot] else [.dot]

namespace Statement

def clauses (s : Statement) : List Clause := s.clause :: s.more

def tokens (s : Statement) : List Token :=
  s.subject.token :: (s.clause.tokens ++ clauseTokens s.more ++ endTokens s.trailing)

/-- Each object of a clause together with the predicate of the clause and the subject of the statement. -/
def sentences (s : Statement) : List Sentence :=
  s.clauses.flatMap fun c => c.objects.map fun o => ⟨s.subject, c.verb, o⟩

end Statement

/-- The tokens of a whole template. -/
def statementTokens (statements : List Statement) : List Token := statements.flatMap Statement.tokens

/-- The triple that a sentence denotes. -/
structure Sentence.Denotes (prefixes : PrefixTable) (base : String) (w : Sentence) (t : Triple) : Prop where
  subject : w.subject.Denotes prefixes base t.subject
  predicate : w.verb.Denotes prefixes base t.predicate
  object : w.object.Denotes prefixes base t.object

theorem Clause.prefixed_mem_tokens_iff {c : Clause} {name : String} : .prefixed name ∈ c.tokens ↔
    c.verb.token = .prefixed name ∨ ∃ o ∈ c.objects, o.token = .prefixed name := by
  simp [tokens, objects, objectTokens, eq_comm]

theorem Statement.prefixed_mem_tokens_iff {s : Statement} {name : String} : .prefixed name ∈ s.tokens ↔
    s.subject.token = .prefixed name ∨ ∃ c ∈ s.clauses, .prefixed name ∈ c.tokens := by
  have hend : .prefixed name ∉ endTokens s.trailing := by cases s.trailing <;> simp [endTokens]
  simp [tokens, clauses, clauseTokens, hend, eq_comm]

section Denotation
variable {prefixes : PrefixTable} {base a a' : String} {t : Term} {v : Verb}

theorem Term.Denotes.unique (h : t.Denotes prefixes base a) (h' : t.Denotes prefixes base a') : a = a' := by
  cases h with
  | iri reference =>
    cases h'
    rfl
  | prefixed hexpand =>
    cases h' with
    | prefixed hexpand' => exact Except.ok.inj (hexpand.symm.trans hexpand')

theorem Verb.Denotes.unique (h : v.Denotes prefixes base a) (h' : v.Denotes prefixes base a') : a = a' := by
  cases h with
  | term ht =>
    cases h' with
    | term ht' => exact ht.unique ht'
  | isType =>
    cases h'
    rfl

/-- Only names may fail to denote, when they do not expand. -/
theorem Term.exists_denotes_iff : (∃ a, t.Denotes prefixes base a) ↔
    ∀ name, t.token = .prefixed name → Address.Expands prefixes name := by
  cases t with
  | iri reference => exact iff_of_true ⟨_, .iri reference⟩ nofun
  | prefixed name =>
    constructor
    · rintro ⟨a, ha⟩ _ heq
      cases heq
      cases ha with
      | prefixed hexpand => exact ⟨a, hexpand⟩
    · intro h
      obtain ⟨a, ha⟩ := h name rfl
      exact ⟨a, .prefixed ha⟩

theorem Verb.exists_denotes_iff : (∃ a, v.Denotes prefixes base a) ↔
    ∀ name, v.token = .prefixed name → Address.Expands prefixes name := by
  cases v with
  | term t =>
    have hterm : (∃ a, t.Denotes prefixes base a) ↔
        ∀ name, t.token = .prefixed name → Address.Expands prefixes name := Term.exists_denotes_iff
    rw [Verb.token, ← hterm]
    constructor
    · rintro ⟨a, ha⟩
      cases ha with
      | term ht => exact ⟨a, ht⟩
    · rintro ⟨a, ha⟩
      exact ⟨a, .term ha⟩
  | isType => exact iff_of_true ⟨_, .isType⟩ nofun

theorem Token.object_eq_address {x : Token} (h : x ≠ .isType) : x.object prefixes base = x.address prefixes base := by
  cases x with
  | isType => exact absurd rfl h
  | _ => rfl

theorem Token.predicate_eq_address {x : Token} (h : x ≠ .isType) :
    x.predicate prefixes base = x.address prefixes base := by
  cases x with
  | isType => exact absurd rfl h
  | _ => rfl

theorem Term.token_ne_isType (t : Term) : t.token ≠ .isType := by cases t <;> exact nofun

theorem Verb.token_ne_dot (v : Verb) : v.token ≠ .dot := by
  cases v with
  | term t => cases t <;> exact nofun
  | isType => exact nofun

/-- A token is read as an address exactly when it is one as it is written. -/
theorem Token.address_eq_ok_iff {x : Token} :
    x.address prefixes base = .ok a ↔ ∃ t : Term, x = t.token ∧ t.Denotes prefixes base a := by
  constructor
  · intro h
    cases x with
    | iri reference =>
      cases h
      exact ⟨.iri reference, rfl, .iri reference⟩
    | prefixed name => exact ⟨.prefixed name, rfl, .prefixed h⟩
    | _ => cases h
  · rintro ⟨t, rfl, h⟩
    cases h with
    | iri reference => rfl
    | prefixed hexpand => exact hexpand

theorem Token.object_eq_ok_iff {x : Token} :
    x.object prefixes base = .ok a ↔ ∃ t : Term, x = t.token ∧ t.Denotes prefixes base a := by
  by_cases hx : x = .isType
  · subst hx
    constructor
    · intro h
      cases h
    · rintro ⟨t, ht, _⟩
      exact absurd ht.symm t.token_ne_isType
  · rw [object_eq_address hx, address_eq_ok_iff]

theorem Token.predicate_eq_ok_iff {x : Token} :
    x.predicate prefixes base = .ok a ↔ ∃ v : Verb, x = v.token ∧ v.Denotes prefixes base a := by
  constructor
  · intro h
    by_cases hx : x = .isType
    · subst hx
      cases h
      exact ⟨.isType, rfl, .isType⟩
    · rw [predicate_eq_address hx, address_eq_ok_iff] at h
      obtain ⟨t, ht, hdenotes⟩ := h
      exact ⟨.term t, ht, .term hdenotes⟩
  · rintro ⟨v, rfl, h⟩
    cases h with
    | @term t _ ht =>
      rw [Verb.token, predicate_eq_address t.token_ne_isType, address_eq_ok_iff]
      exact ⟨t, rfl, ht⟩
    | isType => rfl

theorem Term.eq_of_token_eq {t t' : Term} (h : t.token = t'.token) : t = t' := by
  cases t <;> cases t' <;> cases h <;> rfl

theorem Verb.eq_of_token_eq {v v' : Verb} (h : v.token = v'.token) : v = v' := by
  cases v with
  | term t =>
    cases v' with
    | term t' => rw [Term.eq_of_token_eq h]
    | isType => exact absurd h t.token_ne_isType
  | isType =>
    cases v' with
    | term t' => exact absurd h.symm t'.token_ne_isType
    | isType => rfl

/-- The token of a written address is read as what it denotes. -/
theorem Term.object_token_iff : t.token.object prefixes base = .ok a ↔ t.Denotes prefixes base a := by
  rw [Token.object_eq_ok_iff]
  constructor
  · rintro ⟨t', heq, h⟩
    rwa [Term.eq_of_token_eq heq]
  · exact fun h => ⟨t, rfl, h⟩

theorem Term.address_token_iff : t.token.address prefixes base = .ok a ↔ t.Denotes prefixes base a := by
  rw [← Token.object_eq_address t.token_ne_isType, Term.object_token_iff]

theorem Verb.predicate_token_iff : v.token.predicate prefixes base = .ok a ↔ v.Denotes prefixes base a := by
  rw [Token.predicate_eq_ok_iff]
  constructor
  · rintro ⟨v', heq, h⟩
    rwa [Verb.eq_of_token_eq heq]
  · exact fun h => ⟨v, rfl, h⟩

end Denotation

end SchemaTables.Triples
