import SchemaTables.Proofs.Triples.Grammar

/-!
The reader against the grammar. One way, every part of a statement is read as the triples that its sentences
denote, whatever comes after it. The other way, what the reader accepts from any of its states is what the grammar
lets follow there.
-/

namespace SchemaTables.Triples

set_option autoImplicit false

open List (Forall₂)

/-- The triples that a clause states of the subject, in the order of its objects. -/
def Clause.Lists (prefixes : PrefixTable) (base subject : String) (c : Clause) (triples : List Triple) : Prop :=
  ∃ predicate objects, c.verb.Denotes prefixes base predicate ∧
    Forall₂ (Term.Denotes prefixes base) c.objects objects ∧ triples = objects.map (Triple.mk subject predicate)

/-- The triples of a statement, clause by clause. -/
def Statement.Lists (prefixes : PrefixTable) (base : String) (s : Statement) (triples : List Triple) : Prop :=
  ∃ subject lists, s.subject.Denotes prefixes base subject ∧
    Forall₂ (Clause.Lists prefixes base subject) s.clauses lists ∧ triples = lists.flatten

section Reading
variable {prefixes : PrefixTable} {base s p : String} {rest : List Token} {triples : List Triple}

theorem readStatements_subject_iff {t : Term} :
    readStatements prefixes base .subject (t.token :: rest) = .ok triples ↔
      ∃ s, t.Denotes prefixes base s ∧ readStatements prefixes base (.predicate s) rest = .ok triples := by
  rw [readStatements]
  simp only [Except.bind_eq_ok_iff, Term.address_token_iff]

theorem readStatements_predicate_iff {v : Verb} :
    readStatements prefixes base (.predicate s) (v.token :: rest) = .ok triples ↔
      ∃ p, v.Denotes prefixes base p ∧ readStatements prefixes base (.object s p) rest = .ok triples := by
  rw [readStatements]
  simp only [Except.bind_eq_ok_iff, Verb.predicate_token_iff]

theorem readStatements_object_iff {o : Term} :
    readStatements prefixes base (.object s p) (o.token :: rest) = .ok triples ↔
      ∃ a later, o.Denotes prefixes base a ∧ readStatements prefixes base (.separator s p) rest = .ok later ∧
        triples = ⟨s, p, a⟩ :: later := by
  simp only [readStatements, Except.bind_eq_ok_iff, Term.object_token_iff, pure, Except.pure, Except.ok.injEq]
  constructor
  · rintro ⟨a, ha, later, hlater, rfl⟩
    exact ⟨a, later, ha, hlater, rfl⟩
  · rintro ⟨a, later, ha, hlater, rfl⟩
    exact ⟨a, ha, later, hlater, rfl⟩

theorem readStatements_objects_iff {objects : List Term} :
    readStatements prefixes base (.separator s p) (objectTokens objects ++ rest) = .ok triples ↔
      ∃ addresses later, Forall₂ (Term.Denotes prefixes base) objects addresses ∧
        readStatements prefixes base (.separator s p) rest = .ok later ∧
        triples = addresses.map (Triple.mk s p) ++ later := by
  induction objects generalizing triples with
  | nil =>
    constructor
    · exact fun h => ⟨[], triples, .nil, h, rfl⟩
    · rintro ⟨_, later, hobjects, hlater, rfl⟩
      cases hobjects
      exact hlater
  | cons o objects ih =>
    have hstep : readStatements prefixes base (.separator s p) (objectTokens (o :: objects) ++ rest) =
        readStatements prefixes base (.object s p) (o.token :: (objectTokens objects ++ rest)) := rfl
    rw [hstep, readStatements_object_iff]
    constructor
    · rintro ⟨a, _, ha, htail, rfl⟩
      obtain ⟨addresses, later, hobjects, hlater, rfl⟩ := ih.mp htail
      exact ⟨a :: addresses, later, .cons ha hobjects, hlater, rfl⟩
    · rintro ⟨_, later, hobjects, hlater, rfl⟩
      cases hobjects with
      | @cons _ a _ addresses ha hobjects =>
        exact ⟨a, addresses.map (Triple.mk s p) ++ later, ha, ih.mpr ⟨addresses, later, hobjects, hlater, rfl⟩, rfl⟩

theorem readStatements_clause_iff {c : Clause} :
    readStatements prefixes base (.predicate s) (c.tokens ++ rest) = .ok triples ↔
      ∃ p addresses later, c.verb.Denotes prefixes base p ∧
        Forall₂ (Term.Denotes prefixes base) c.objects addresses ∧
        readStatements prefixes base (.separator s p) rest = .ok later ∧
        triples = addresses.map (Triple.mk s p) ++ later := by
  rw [Clause.tokens, List.cons_append, List.cons_append, readStatements_predicate_iff]
  constructor
  · rintro ⟨p, hp, hobject⟩
    obtain ⟨a, _, ha, htail, rfl⟩ := readStatements_object_iff.mp hobject
    obtain ⟨addresses, later, hobjects, hlater, rfl⟩ := readStatements_objects_iff.mp htail
    exact ⟨p, a :: addresses, later, hp, .cons ha hobjects, hlater, rfl⟩
  · rintro ⟨p, _, later, hp, hobjects, hlater, rfl⟩
    cases hobjects with
    | @cons _ a _ addresses ha hobjects =>
      refine ⟨p, hp, readStatements_object_iff.mpr ⟨a, _, ha, ?_, rfl⟩⟩
      exact readStatements_objects_iff.mpr ⟨addresses, later, hobjects, hlater, rfl⟩

/-- A semicolon before a clause has no part in how the clause is read. -/
theorem readStatements_semicolon {c : Clause} :
    readStatements prefixes base (.separator s p) (.semicolon :: c.tokens ++ rest) =
      readStatements prefixes base (.predicate s) (c.tokens ++ rest) := by
  simp only [Clause.tokens, List.cons_append, readStatements, if_neg c.verb.token_ne_dot]

theorem readStatements_end (trailing : Bool) :
    readStatements prefixes base (.separator s p) (endTokens trailing ++ rest) =
      readStatements prefixes base .subject rest := by
  cases trailing <;> rfl

/-- The last predicate has no part in how the next clauses are read. -/
theorem readStatements_clauses_iff {clauses : List Clause} {trailing : Bool} :
    readStatements prefixes base (.separator s p) (clauseTokens clauses ++ (endTokens trailing ++ rest)) =
        .ok triples ↔
      ∃ lists later, Forall₂ (Clause.Lists prefixes base s) clauses lists ∧
        readStatements prefixes base .subject rest = .ok later ∧ triples = lists.flatten ++ later := by
  induction clauses generalizing p triples with
  | nil =>
    rw [clauseTokens, List.flatMap_nil, List.nil_append, readStatements_end]
    constructor
    · exact fun h => ⟨[], triples, .nil, h, rfl⟩
    · rintro ⟨_, later, hclauses, hlater, rfl⟩
      cases hclauses
      exact hlater
  | cons c clauses ih =>
    have htokens : clauseTokens (c :: clauses) ++ (endTokens trailing ++ rest) =
        .semicolon :: c.tokens ++ (clauseTokens clauses ++ (endTokens trailing ++ rest)) := by
      rw [clauseTokens, List.flatMap_cons, List.append_assoc]
      rfl
    rw [htokens, readStatements_semicolon, readStatements_clause_iff]
    constructor
    · rintro ⟨p', addresses, _, hp, hobjects, htail, rfl⟩
      obtain ⟨lists, later, hclauses, hlater, rfl⟩ := ih.mp htail
      refine ⟨addresses.map (Triple.mk s p') :: lists, later, .cons ⟨p', addresses, hp, hobjects, rfl⟩ hclauses,
        hlater, ?_⟩
      rw [List.flatten_cons, List.append_assoc]
    · rintro ⟨_, later, hclauses, hlater, rfl⟩
      cases hclauses with
      | @cons _ _ _ lists hlists hclauses =>
        obtain ⟨p', addresses, hp, hobjects, rfl⟩ := hlists
        refine ⟨p', addresses, lists.flatten ++ later, hp, hobjects, ih.mpr ⟨lists, later, hclauses, hlater, rfl⟩, ?_⟩
        rw [List.flatten_cons, List.append_assoc]

theorem readStatements_statement_iff {statement : Statement} :
    readStatements prefixes base .subject (statement.tokens ++ rest) = .ok triples ↔
      ∃ own later, statement.Lists prefixes base own ∧ readStatements prefixes base .subject rest = .ok later ∧
        triples = own ++ later := by
  simp only [Statement.tokens, List.cons_append, List.append_assoc, readStatements_subject_iff,
    readStatements_clause_iff, readStatements_clauses_iff]
  constructor
  · rintro ⟨s, hs, p, addresses, _, hp, hobjects, ⟨lists, later, hclauses, hlater, rfl⟩, rfl⟩
    refine ⟨_, later, ⟨s, addresses.map (Triple.mk s p) :: lists, hs, ?_, rfl⟩, hlater, ?_⟩
    · exact .cons ⟨p, addresses, hp, hobjects, rfl⟩ hclauses
    · rw [List.flatten_cons, List.append_assoc]
  · rintro ⟨_, later, ⟨s, _, hs, hclauses, rfl⟩, hlater, rfl⟩
    cases hclauses with
    | @cons _ _ _ lists hlists hclauses =>
      obtain ⟨p, addresses, hp, hobjects, rfl⟩ := hlists
      refine ⟨s, hs, p, addresses, _, hp, hobjects, ⟨lists, later, hclauses, hlater, rfl⟩, ?_⟩
      rw [List.flatten_cons, List.append_assoc]

theorem readStatements_statements_iff {statements : List Statement} :
    readStatements prefixes base .subject (statementTokens statements) = .ok triples ↔
      ∃ lists, Forall₂ (Statement.Lists prefixes base) statements lists ∧ triples = lists.flatten := by
  induction statements generalizing triples with
  | nil =>
    constructor
    · intro h
      cases h
      exact ⟨[], .nil, rfl⟩
    · rintro ⟨_, hstatements, rfl⟩
      cases hstatements
      rfl
  | cons statement statements ih =>
    rw [statementTokens, List.flatMap_cons, readStatements_statement_iff]
    constructor
    · rintro ⟨own, _, hown, htail, rfl⟩
      obtain ⟨lists, hstatements, rfl⟩ := ih.mp htail
      exact ⟨own :: lists, .cons hown hstatements, rfl⟩
    · rintro ⟨_, hstatements, rfl⟩
      cases hstatements with
      | @cons _ own _ lists hown hstatements =>
        exact ⟨own, lists.flatten, hown, ih.mpr ⟨lists, hstatements, rfl⟩, rfl⟩

/-- The rest of a statement after one of its clauses, and the statements after it. -/
structure Tail where
  clauses : List Clause
  trailing : Bool
  later : List Statement

def Tail.tokens (tail : Tail) : List Token :=
  clauseTokens tail.clauses ++ (endTokens tail.trailing ++ statementTokens tail.later)

/-- A subject with a clause opens a statement that the tail ends. -/
theorem Tail.subject_tokens (t : Term) (c : Clause) (tail : Tail) :
    t.token :: (c.tokens ++ tail.tokens) =
      statementTokens (⟨t, c, tail.clauses, tail.trailing⟩ :: tail.later) := by
  simp only [Tail.tokens, statementTokens, List.flatMap_cons, Statement.tokens, List.cons_append, List.append_assoc]

theorem Tail.semicolon_tokens (c : Clause) (tail : Tail) :
    .semicolon :: (c.tokens ++ tail.tokens) = Tail.tokens ⟨c :: tail.clauses, tail.trailing, tail.later⟩ := by
  simp only [Tail.tokens, clauseTokens, List.flatMap_cons, List.cons_append, List.append_assoc]

/-- What the grammar lets follow in a state of the reader. -/
inductive Expected.Allows : Expected → List Token → Prop where
  | statements (statements : List Statement) : Allows .subject (statementTokens statements)
  | clause {s : String} (c : Clause) (tail : Tail) : Allows (.predicate s) (c.tokens ++ tail.tokens)
  | dot {s : String} (later : List Statement) : Allows (.predicateOrDot s) (.dot :: statementTokens later)
  | nextClause {s : String} (c : Clause) (tail : Tail) : Allows (.predicateOrDot s) (c.tokens ++ tail.tokens)
  | object {s p : String} (o : Term) (objects : List Term) (tail : Tail) :
      Allows (.object s p) (o.token :: (objectTokens objects ++ tail.tokens))
  | objects {s p : String} (objects : List Term) (tail : Tail) :
      Allows (.separator s p) (objectTokens objects ++ tail.tokens)

/-- What the reader accepts the grammar allows: the state of the reader is the place in the statement. -/
theorem allows_of_readStatements {tokens : List Token} {state : Expected}
    (h : readStatements prefixes base state tokens = .ok triples) : state.Allows tokens := by
  induction tokens generalizing state triples with
  | nil =>
    cases state with
    | subject => exact .statements []
    | _ => cases h
  | cons x rest ih =>
    -- a predicate is followed by its first object, and with it opens a clause
    have hclause : ∀ {s}, (∃ p, x.predicate prefixes base = .ok p ∧
        readStatements prefixes base (.object s p) rest = .ok triples) →
        ∃ (c : Clause) (tail : Tail), x :: rest = c.tokens ++ tail.tokens := by
      rintro s ⟨p, hp, hrest⟩
      obtain ⟨v, rfl, _⟩ := Token.predicate_eq_ok_iff.mp hp
      cases ih hrest with
      | object o objects tail => exact ⟨⟨v, o, objects⟩, tail, rfl⟩
    cases state with
    | subject =>
      rw [readStatements] at h
      obtain ⟨s, hs, hrest⟩ := Except.bind_eq_ok_iff.mp h
      obtain ⟨t, rfl, _⟩ := Token.address_eq_ok_iff.mp hs
      cases ih hrest with
      | clause c tail =>
        rw [Tail.subject_tokens]
        exact .statements _
    | predicate s =>
      rw [readStatements] at h
      obtain ⟨c, tail, htokens⟩ := hclause (Except.bind_eq_ok_iff.mp h)
      rw [htokens]
      exact .clause c tail
    | predicateOrDot s =>
      rw [readStatements] at h
      split at h
      · rename_i hdot
        subst hdot
        cases ih h with
        | statements later => exact .dot later
      · obtain ⟨c, tail, htokens⟩ := hclause (Except.bind_eq_ok_iff.mp h)
        rw [htokens]
        exact .nextClause c tail
    | object s p =>
      rw [readStatements] at h
      obtain ⟨a, ha, hrest⟩ := Except.bind_eq_ok_iff.mp h
      obtain ⟨o, rfl, _⟩ := Token.object_eq_ok_iff.mp ha
      obtain ⟨later, hlater, _⟩ := Except.bind_eq_ok_iff.mp hrest
      cases ih hlater with
      | objects objects tail => exact .object o objects tail
    | separator s p =>
      cases x with
      | comma =>
        cases ih h with
        | object o objects tail => exact .objects (o :: objects) tail
      | semicolon =>
        cases ih h with
        | dot later => exact .objects [] ⟨[], true, later⟩
        | nextClause c tail =>
          rw [Tail.semicolon_tokens]
          exact .objects [] ⟨c :: tail.clauses, tail.trailing, tail.later⟩
      | dot =>
        cases ih h with
        | statements later => exact .objects [] ⟨[], false, later⟩
      | _ => cases h

end Reading

section Stating
variable {prefixes : PrefixTable} {base s : String} {c : Clause} {statement : Statement} {triples : List Triple}
  {t : Triple}

theorem Clause.Lists.mem_iff (h : c.Lists prefixes base s triples) :
    t ∈ triples ↔ t.subject = s ∧ c.verb.Denotes prefixes base t.predicate ∧
      ∃ o ∈ c.objects, o.Denotes prefixes base t.object := by
  obtain ⟨p, addresses, hp, hobjects, rfl⟩ := h
  rw [List.mem_map]
  constructor
  · rintro ⟨a, ha, rfl⟩
    exact ⟨rfl, hp, hobjects.exists_of_mem_right ha⟩
  · rintro ⟨rfl, hp', o, ho, hdenotes⟩
    obtain ⟨a, ha, hdenotes'⟩ := hobjects.exists_of_mem_left ho
    refine ⟨a, ha, ?_⟩
    rw [hp.unique hp', hdenotes'.unique hdenotes]

theorem Statement.Lists.mem_iff (h : statement.Lists prefixes base triples) :
    t ∈ triples ↔ ∃ w ∈ statement.sentences, w.Denotes prefixes base t := by
  obtain ⟨s, lists, hs, hclauses, rfl⟩ := h
  rw [hclauses.mem_flatten_iff fun _ _ hlists => hlists.mem_iff]
  simp only [sentences, List.mem_flatMap, List.mem_map]
  constructor
  · rintro ⟨c, hc, rfl, hp, o, ho, hobject⟩
    exact ⟨_, ⟨c, hc, o, ho, rfl⟩, ⟨hs, hp, hobject⟩⟩
  · rintro ⟨_, ⟨c, hc, o, ho, rfl⟩, hdenotes⟩
    exact ⟨c, hc, hdenotes.subject.unique hs, hdenotes.predicate, o, ho, hdenotes.object⟩

/-- Where a statement has its triples, each of its sentences denotes one. -/
theorem Statement.Lists.exists_denotes {w : Sentence} (h : statement.Lists prefixes base triples)
    (hw : w ∈ statement.sentences) : ∃ t, w.Denotes prefixes base t := by
  obtain ⟨s, lists, hs, hclauses, _⟩ := h
  obtain ⟨c, hc, hobject⟩ := List.mem_flatMap.mp hw
  obtain ⟨o, ho, rfl⟩ := List.mem_map.mp hobject
  obtain ⟨_, _, p, addresses, hp, hobjects, _⟩ := hclauses.exists_of_mem_left hc
  obtain ⟨a, _, ha⟩ := hobjects.exists_of_mem_left ho
  exact ⟨⟨s, p, a⟩, hs, hp, ha⟩

theorem Clause.exists_lists_iff : (∃ triples, c.Lists prefixes base s triples) ↔
    ∀ name, .prefixed name ∈ c.tokens → Address.Expands prefixes name := by
  have hparts : (∃ triples, c.Lists prefixes base s triples) ↔
      (∃ p, c.verb.Denotes prefixes base p) ∧ ∀ o ∈ c.objects, ∃ a, o.Denotes prefixes base a := by
    rw [← List.Forall₂.exists_iff]
    constructor
    · rintro ⟨_, p, addresses, hp, hobjects, _⟩
      exact ⟨⟨p, hp⟩, addresses, hobjects⟩
    · rintro ⟨⟨p, hp⟩, addresses, hobjects⟩
      exact ⟨_, p, addresses, hp, hobjects, rfl⟩
  rw [hparts, Verb.exists_denotes_iff]
  simp only [Term.exists_denotes_iff, prefixed_mem_tokens_iff]
  constructor
  · rintro ⟨hverb, hobjects⟩ name (hname | ⟨o, ho, hname⟩)
    · exact hverb name hname
    · exact hobjects o ho name hname
  · intro h
    exact ⟨fun name hname => h name (Or.inl hname), fun o ho name hname => h name (Or.inr ⟨o, ho, hname⟩)⟩

/-- A statement has its triples when the names in it expand. -/
theorem Statement.exists_lists_iff : (∃ triples, statement.Lists prefixes base triples) ↔
    ∀ name, .prefixed name ∈ statement.tokens → Address.Expands prefixes name := by
  have hparts : (∃ triples, statement.Lists prefixes base triples) ↔
      ∃ s, statement.subject.Denotes prefixes base s ∧
        ∀ c ∈ statement.clauses, ∃ list, c.Lists prefixes base s list := by
    simp only [← List.Forall₂.exists_iff]
    constructor
    · rintro ⟨_, s, lists, hs, hclauses, _⟩
      exact ⟨s, hs, lists, hclauses⟩
    · rintro ⟨s, hs, lists, hclauses⟩
      exact ⟨_, s, lists, hs, hclauses, rfl⟩
  rw [hparts]
  simp only [Clause.exists_lists_iff, exists_and_right, Term.exists_denotes_iff, prefixed_mem_tokens_iff]
  constructor
  · rintro ⟨hsubject, hclauses⟩ name (hname | ⟨c, hc, hname⟩)
    · exact hsubject name hname
    · exact hclauses c hc name hname
  · intro h
    exact ⟨fun name hname => h name (Or.inl hname), fun c hc name hname => h name (Or.inr ⟨c, hc, hname⟩)⟩

end Stating

/-- The tokens of statements can be read when the names in them expand. -/
theorem exists_readStatements_iff (prefixes : PrefixTable) (base : String) (statements : List Statement) :
    (∃ triples, readStatements prefixes base .subject (statementTokens statements) = .ok triples) ↔
      ∀ name, .prefixed name ∈ statementTokens statements → Address.Expands prefixes name := by
  have hlists : (∃ triples, readStatements prefixes base .subject (statementTokens statements) = .ok triples) ↔
      ∀ s ∈ statements, ∃ list, s.Lists prefixes base list := by
    rw [← List.Forall₂.exists_iff]
    simp only [readStatements_statements_iff]
    constructor
    · rintro ⟨_, lists, hstatements, _⟩
      exact ⟨lists, hstatements⟩
    · rintro ⟨lists, hstatements⟩
      exact ⟨_, lists, hstatements, rfl⟩
  rw [hlists]
  simp only [Statement.exists_lists_iff, statementTokens, List.mem_flatMap]
  constructor
  · rintro h name ⟨s, hs, hname⟩
    exact h s hs name hname
  · exact fun h s hs name hname => h name ⟨s, hs, hname⟩

instance : Std.TransCmp Triple.compare := inferInstanceAs (Std.TransCmp (compareLex _ _))

instance : Std.LawfulEqCmp Triple.compare where
  compare_self := Std.ReflCmp.compare_self
  eq_of_compare := by
    intro t t' h
    obtain ⟨hsubject, hrest⟩ := Ordering.then_eq_eq.mp h
    obtain ⟨hpredicate, hobject⟩ := Ordering.then_eq_eq.mp hrest
    cases t
    cases t'
    rw [Triple.mk.injEq]
    exact ⟨Std.LawfulEqOrd.eq_of_compare hsubject, Std.LawfulEqOrd.eq_of_compare hpredicate,
      Std.LawfulEqOrd.eq_of_compare hobject⟩

theorem parseStatements_eq_ok_iff {prefixes : PrefixTable} {base : String} {tokens : List Token}
    {triples : List Triple} : parseStatements prefixes base tokens = .ok triples ↔
      ∃ read, readStatements prefixes base .subject tokens = .ok read ∧ Ordered.ofList Triple.compare read = triples :=
  Except.map_eq_ok_iff

/-- What is read from the tokens of statements are the triples that their sentences denote. -/
theorem mem_iff_of_parseStatements {prefixes : PrefixTable} {base : String} {statements : List Statement}
    {triples : List Triple} (h : parseStatements prefixes base (statementTokens statements) = .ok triples)
    (t : Triple) :
    t ∈ triples ↔ ∃ s ∈ statements, ∃ w ∈ s.sentences, w.Denotes prefixes base t := by
  obtain ⟨read, hread, rfl⟩ := parseStatements_eq_ok_iff.mp h
  obtain ⟨lists, hstatements, rfl⟩ := readStatements_statements_iff.mp hread
  rw [Ordered.mem_ofList_iff]
  exact hstatements.mem_flatten_iff fun _ _ hlists => hlists.mem_iff

theorem exists_denotes_of_parseStatements {prefixes : PrefixTable} {base : String} {statements : List Statement}
    {triples : List Triple} {s : Statement} {w : Sentence}
    (h : parseStatements prefixes base (statementTokens statements) = .ok triples) (hs : s ∈ statements)
    (hw : w ∈ s.sentences) : ∃ t, w.Denotes prefixes base t := by
  obtain ⟨read, hread, _⟩ := parseStatements_eq_ok_iff.mp h
  obtain ⟨lists, hstatements, _⟩ := readStatements_statements_iff.mp hread
  obtain ⟨_, _, hlists⟩ := hstatements.exists_of_mem_left hs
  exact hlists.exists_denotes hw

/-- What is read is the tokens of statements. -/
theorem exists_statements_of_parseStatements {prefixes : PrefixTable} {base : String} {tokens : List Token}
    {triples : List Triple} (h : parseStatements prefixes base tokens = .ok triples) :
    ∃ statements, tokens = statementTokens statements := by
  obtain ⟨_, hread, _⟩ := parseStatements_eq_ok_iff.mp h
  cases allows_of_readStatements hread with
  | statements statements => exact ⟨statements, rfl⟩

/-- The reader accepts the tokens of statements whose names all expand, and nothing else. What it returns are the
triples that the sentences of the statements denote, in increasing order and each of them once. -/
theorem parseStatements_by_grammar (prefixes : PrefixTable) (base : String) (tokens : List Token) :
    ((∃ triples, parseStatements prefixes base tokens = .ok triples) ↔
      (∃ statements, tokens = statementTokens statements) ∧
        ∀ name, .prefixed name ∈ tokens → Address.Expands prefixes name) ∧
    ∀ statements triples, tokens = statementTokens statements →
      parseStatements prefixes base tokens = .ok triples →
      Ordered.Increasing Triple.compare triples ∧
        ∀ t, t ∈ triples ↔ ∃ s ∈ statements, ∃ w ∈ s.sentences, w.Denotes prefixes base t := by
  have hsucceeds : (∃ triples, parseStatements prefixes base tokens = .ok triples) ↔
      ∃ read, readStatements prefixes base .subject tokens = .ok read := by
    simp only [parseStatements_eq_ok_iff]
    exact ⟨fun ⟨_, read, hread, _⟩ => ⟨read, hread⟩, fun ⟨read, hread⟩ => ⟨_, read, hread, rfl⟩⟩
  refine ⟨⟨?_, ?_⟩, ?_⟩
  · rintro ⟨triples, h⟩
    obtain ⟨statements, rfl⟩ := exists_statements_of_parseStatements h
    exact ⟨⟨statements, rfl⟩, (exists_readStatements_iff prefixes base statements).mp (hsucceeds.mp ⟨triples, h⟩)⟩
  · rintro ⟨⟨statements, rfl⟩, hnames⟩
    exact hsucceeds.mpr ((exists_readStatements_iff prefixes base statements).mpr hnames)
  · rintro statements triples rfl h
    refine ⟨?_, mem_iff_of_parseStatements h⟩
    obtain ⟨read, _, rfl⟩ := parseStatements_eq_ok_iff.mp h
    exact Ordered.increasing_ofList read

/-- The row has two keywords and a type, and a semicolon too many. -/
def keywordStatement : Statement where
  subject := .iri ""
  clause := ⟨.term (.prefixed "ex:keyword"), .prefixed "ex:b", [.prefixed "ex:a"]⟩
  more := [⟨.isType, .prefixed "ex:Dataset", []⟩]
  trailing := true

theorem parseStatements_keywords : ∃ triples, parseStatements [("ex", "https://example.org/")] "https://example.org/row"
      (statementTokens [keywordStatement]) = .ok triples ∧ Ordered.Increasing Triple.compare triples ∧
    ⟨"https://example.org/row", "https://example.org/keyword", "https://example.org/a"⟩ ∈ triples := by
  obtain ⟨hsucceeds, hreads⟩ := parseStatements_by_grammar [("ex", "https://example.org/")] "https://example.org/row"
    (statementTokens [keywordStatement])
  have hnames : ∀ name, .prefixed name ∈ statementTokens [keywordStatement] →
      Address.Expands [("ex", "https://example.org/")] name := by
    simp only [statementTokens, keywordStatement, Statement.tokens, Clause.tokens, objectTokens, clauseTokens,
      endTokens, Verb.token, Term.token, List.flatMap_cons, List.flatMap_nil, List.mem_append, List.mem_cons, List.not_mem_nil,
      Token.prefixed.injEq, reduceCtorEq, or_false, false_or, if_true]
    rintro name (((rfl | rfl | rfl) | rfl))
    · exact ⟨_, rfl⟩
    · exact ⟨_, rfl⟩
    · exact ⟨_, rfl⟩
    · exact ⟨_, rfl⟩
  obtain ⟨triples, h⟩ := hsucceeds.mpr ⟨⟨[keywordStatement], rfl⟩, hnames⟩
  obtain ⟨hincreasing, hmem⟩ := hreads [keywordStatement] triples rfl h
  refine ⟨triples, h, hincreasing, (hmem _).mpr ⟨keywordStatement, List.mem_singleton.mpr rfl, ?_⟩⟩
  exact ⟨_, .tail _ (.head _), ⟨.iri "", .term (.prefixed rfl), .prefixed rfl⟩⟩

end SchemaTables.Triples
