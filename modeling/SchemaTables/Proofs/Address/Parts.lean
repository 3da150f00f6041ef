import Mathlib.Data.List.DropRight
import SchemaTables.Proofs.Text.Search

/-!
The parts of addresses and references: scheme, authority, path, query and fragment. Every text is read as parts in
exactly one way. What a reference means is told on parts alone: what it names itself replaces a part of the base and
all that comes after it.
-/

namespace SchemaTables.Address

set_option autoImplicit false

open scoped List

/-- A letter, then letters, digits and three marks. -/
def IsScheme : List Char → Prop
  | [] => False
  | c :: rest => c.isAlpha ∧ ∀ d ∈ rest, d.isAlphanum ∨ d ∈ ['+', '-', '.']

instance : DecidablePred IsScheme
  | [] => .isFalse id
  | _ :: rest =>
    @instDecidableAnd _ _ inferInstance (List.decidableBAll (fun d => d.isAlphanum ∨ d ∈ ['+', '-', '.']) rest)

/-- A part that is not there is told from one that is empty. -/
structure Parts where
  scheme : Option (List Char)
  authority : Option (List Char)
  path : List Char
  query : Option (List Char)
  fragment : Option (List Char)
deriving DecidableEq, Repr

/-- A part at the end with the mark before it, if it is there. -/
def marked (c : Char) (part : Option (List Char)) : List Char := part.elim [] (c :: ·)

namespace Parts

/-- Authority and path. -/
def place (p : Parts) : List Char := (p.authority.elim [] fun a => '/' :: '/' :: a) ++ p.path

/-- The parts before the query. -/
def front (p : Parts) : List Char := (p.scheme.elim [] (· ++ [':'])) ++ p.place

/-- The parts one after the other, each with its mark. -/
def chars (p : Parts) : List Char := p.front ++ marked '?' p.query ++ marked '#' p.fragment

def text (p : Parts) : String := String.ofList p.chars

/-- No part has a mark of a later one in it, and none could be taken for another. -/
structure Valid (p : Parts) : Prop where
  scheme : ∀ s ∈ p.scheme, IsScheme s
  authority : ∀ a ∈ p.authority, '/' ∉ a ∧ '?' ∉ a ∧ '#' ∉ a
  path : '?' ∉ p.path ∧ '#' ∉ p.path
  query : ∀ q ∈ p.query, '#' ∉ q
  /-- After an authority a path starts with a slash. -/
  rooted : p.authority ≠ none → p.path = [] ∨ p.path.head? = some '/'
  /-- Without an authority two slashes would start one. -/
  unrooted : p.authority = none → ¬ ['/', '/'] <+: p.path
  /-- Without a scheme the text before a colon would be one. -/
  schemeless : p.scheme = none → p.authority = none → ':' ∈ p.path → ¬ IsScheme (p.path.takeWhile (· ≠ ':'))

instance (p : Parts) : Decidable p.Valid :=
  decidable_of_iff ((∀ s ∈ p.scheme, IsScheme s) ∧ (∀ a ∈ p.authority, '/' ∉ a ∧ '?' ∉ a ∧ '#' ∉ a) ∧
      ('?' ∉ p.path ∧ '#' ∉ p.path) ∧ (∀ q ∈ p.query, '#' ∉ q) ∧
      (p.authority ≠ none → p.path = [] ∨ p.path.head? = some '/') ∧
      (p.authority = none → ¬ ['/', '/'] <+: p.path) ∧
      (p.scheme = none → p.authority = none → ':' ∈ p.path → ¬ IsScheme (p.path.takeWhile (· ≠ ':'))))
    ⟨fun ⟨scheme, authority, path, query, rooted, unrooted, schemeless⟩ =>
        ⟨scheme, authority, path, query, rooted, unrooted, schemeless⟩,
      fun h => ⟨h.scheme, h.authority, h.path, h.query, h.rooted, h.unrooted, h.schemeless⟩⟩

/-- A relative path follows the last slash in the path of the base; after an authority without a path it takes a slash
of its own. -/
def merge (base : Parts) (path : List Char) : List Char :=
  if base.authority.isSome ∧ base.path = [] then '/' :: path else base.path.rdropWhile (· ≠ '/') ++ path

/-- What a reference means to a reader at the base; dot segments stay. -/
def target (base r : Parts) : Parts :=
  if r.scheme.isSome then r
  else if r.authority.isSome then { r with scheme := base.scheme }
  else if r.path = [] then
    { base with query := if r.query.isSome then r.query else base.query, fragment := r.fragment }
  else if r.path.head? = some '/' then
    { base with path := r.path, query := r.query, fragment := r.fragment }
  else { base with path := base.merge r.path, query := r.query, fragment := r.fragment }

end Parts

section Marks
variable {c : Char} {s t a b : List Char} {part part' : Option (List Char)}

theorem notMem_of_isScheme (h : IsScheme s) (hc : ¬ (c.isAlphanum ∨ c ∈ ['+', '-', '.'])) : c ∉ s := by
  cases s with
  | nil => exact List.not_mem_nil
  | cons first rest =>
    intro hmem
    rcases List.mem_cons.mp hmem with rfl | hmem
    · apply hc
      exact Or.inl (by simp [Char.isAlphanum, h.1])
    · exact hc (h.2 c hmem)

theorem not_isScheme_cons (h : c.isAlpha = false) (t : List Char) : ¬ IsScheme (c :: t) := by
  intro hscheme
  have halpha := hscheme.1
  rw [h] at halpha
  cases halpha

theorem before_append_marked (h : c ∉ a) (part : Option (List Char)) : Text.before c (a ++ marked c part) = a := by
  cases part with
  | none =>
    rw [marked, Option.elim_none, List.append_nil]
    exact Text.before_of_notMem h
  | some b => exact Text.before_append_cons h b

theorem marked_inj (ha : c ∉ a) (hb : c ∉ b) (h : a ++ marked c part = b ++ marked c part') :
    a = b ∧ part = part' := by
  have hfront : a = b := by rw [← before_append_marked ha part, h, before_append_marked hb part']
  subst hfront
  have hparts := List.append_cancel_left h
  cases part <;> cases part' <;> simp_all [marked]

theorem exists_marked (c : Char) (s : List Char) : ∃ a part, s = a ++ marked c part ∧ c ∉ a := by
  by_cases h : c ∈ s
  · obtain ⟨rest, hrest⟩ := Text.exists_of_mem h
    exact ⟨_, some rest, hrest, Text.notMem_before c s⟩
  · exact ⟨s, none, (List.append_nil s).symm, h⟩

end Marks

namespace Parts
variable {p q : Parts} {c : Char} {s t : List Char}

theorem Valid.notMem_front (h : p.Valid) (hc : c = '?' ∨ c = '#') : c ∉ p.front := by
  have hscheme : c ∉ p.scheme.elim [] (· ++ [':']) := by
    cases hs : p.scheme with
    | none => exact List.not_mem_nil
    | some s =>
      apply List.not_mem_append
      · apply notMem_of_isScheme (h.scheme s hs)
        rcases hc with rfl | rfl <;> decide
      · rcases hc with rfl | rfl <;> decide
  have hauthority : c ∉ p.authority.elim [] fun a => '/' :: '/' :: a := by
    cases ha : p.authority with
    | none => exact List.not_mem_nil
    | some a =>
      obtain ⟨_, hquery, hfragment⟩ := h.authority a ha
      rcases hc with rfl | rfl
      · simpa using hquery
      · simpa using hfragment
  have hpath : c ∉ p.path := by
    rcases hc with rfl | rfl
    · exact h.path.1
    · exact h.path.2
  exact List.not_mem_append hscheme (List.not_mem_append hauthority hpath)

theorem Valid.notMem_query (h : p.Valid) : '#' ∉ p.front ++ marked '?' p.query := by
  apply List.not_mem_append (h.notMem_front (Or.inr rfl))
  cases hq : p.query with
  | none => exact List.not_mem_nil
  | some q => simpa [marked] using h.query q hq

/-- What has no scheme does not start like one. -/
theorem Valid.place_ne (h : p.Valid) (hnone : p.scheme = none) (hs : IsScheme s) : p.place ≠ s ++ ':' :: t := by
  intro heq
  cases ha : p.authority with
  | none =>
    have hpath : p.path = s ++ ':' :: t := by simpa [place, ha] using heq
    have hbefore : p.path.takeWhile (· ≠ ':') = s := by
      rw [hpath]
      exact Text.before_append_cons (notMem_of_isScheme hs (by decide)) t
    refine h.schemeless hnone ha ?_ (hbefore ▸ hs)
    rw [hpath]
    exact List.mem_append_right s List.mem_cons_self
  | some a =>
    rw [place, ha] at heq
    cases s with
    | nil => exact hs
    | cons first rest =>
      obtain ⟨hfirst, _⟩ := List.cons.inj heq
      subst hfirst
      exact not_isScheme_cons (by decide) rest hs

theorem Valid.path_cases {a : List Char} (h : p.Valid) (ha : p.authority = some a) :
    p.path = [] ∨ ∃ t, p.path = '/' :: t := by
  rcases h.rooted (by simp [ha]) with hpath | hpath
  · exact Or.inl hpath
  · exact Or.inr (List.head?_eq_some_iff.mp hpath)

theorem Valid.path_ne (h : p.Valid) (ha : p.authority = none) (t : List Char) : p.path ≠ '/' :: '/' :: t := by
  intro hpath
  exact h.unrooted ha ⟨t, hpath.symm⟩

theorem Valid.place_inj (hp : p.Valid) (hq : q.Valid) (h : p.place = q.place) :
    p.authority = q.authority ∧ p.path = q.path := by
  have hauthority : ∀ {p : Parts} {a : List Char}, p.Valid → p.authority = some a → Text.before '/' (a ++ p.path) = a := by
    intro p a hp ha
    obtain ⟨hslash, _⟩ := hp.authority a ha
    rcases hp.path_cases ha with hpath | ⟨t, hpath⟩
    · rw [hpath, List.append_nil, Text.before_of_notMem hslash]
    · rw [hpath, Text.before_append_cons hslash]
  cases ha : p.authority with
  | none =>
    cases hb : q.authority with
    | none => exact ⟨rfl, by simpa [place, ha, hb] using h⟩
    | some b => exact absurd (by simpa [place, ha, hb] using h) (hp.path_ne ha (b ++ q.path))
  | some a =>
    cases hb : q.authority with
    | none => exact absurd (by simpa [place, ha, hb] using h.symm) (hq.path_ne hb (a ++ p.path))
    | some b =>
      have heq : a ++ p.path = b ++ q.path := by simpa [place, ha, hb] using h
      have hab : a = b := by rw [← hauthority hp ha, heq, hauthority hq hb]
      subst hab
      exact ⟨rfl, List.append_cancel_left heq⟩

theorem Valid.front_inj (hp : p.Valid) (hq : q.Valid) (h : p.front = q.front) :
    p.scheme = q.scheme ∧ p.place = q.place := by
  have hcolon : ∀ {s : List Char}, IsScheme s → ':' ∉ s := fun hs => notMem_of_isScheme hs (by decide)
  cases hs : p.scheme with
  | none =>
    cases ht : q.scheme with
    | none => exact ⟨rfl, by simpa [front, hs, ht] using h⟩
    | some t => exact absurd (by simpa [front, hs, ht] using h) (hp.place_ne hs (hq.scheme t ht))
  | some s =>
    cases ht : q.scheme with
    | none => exact absurd (by simpa [front, hs, ht] using h.symm) (hq.place_ne ht (hp.scheme s hs))
    | some t =>
      have heq : s ++ ':' :: p.place = t ++ ':' :: q.place := by simpa [front, hs, ht] using h
      have hst : s = t := by
        rw [← Text.before_append_cons (hcolon (hp.scheme s hs)) p.place, heq,
          Text.before_append_cons (hcolon (hq.scheme t ht))]
      subst hst
      exact ⟨rfl, List.tail_eq_of_cons_eq (List.append_cancel_left heq)⟩

/-- A text is read in one way at most. -/
theorem Valid.eq_of_chars_eq (hp : p.Valid) (hq : q.Valid) (h : p.chars = q.chars) : p = q := by
  obtain ⟨h, hfragment⟩ := marked_inj hp.notMem_query hq.notMem_query h
  obtain ⟨h, hquery⟩ := marked_inj (hp.notMem_front (Or.inl rfl)) (hq.notMem_front (Or.inl rfl)) h
  obtain ⟨hscheme, h⟩ := hp.front_inj hq h
  obtain ⟨hauthority, hpath⟩ := hp.place_inj hq h
  cases p
  cases q
  simp_all

theorem exists_scheme (s : List Char) : ∃ (scheme : Option (List Char)) (rest : List Char),
    s = scheme.elim [] (· ++ [':']) ++ rest ∧ (∀ t ∈ scheme, IsScheme t) ∧
      (scheme = none → ':' ∈ rest → ¬ IsScheme (rest.takeWhile (· ≠ ':'))) := by
  by_cases h : ':' ∈ s ∧ IsScheme (Text.before ':' s)
  · obtain ⟨hcolon, hscheme⟩ := h
    obtain ⟨rest, hrest⟩ := Text.exists_of_mem hcolon
    refine ⟨some (Text.before ':' s), rest, by simpa using hrest, ?_, nofun⟩
    rintro _ ⟨⟩
    exact hscheme
  · exact ⟨none, s, rfl, nofun, fun _ hcolon hscheme => h ⟨hcolon, hscheme⟩⟩

theorem exists_authority (s : List Char) : ∃ (authority : Option (List Char)) (path : List Char),
    s = (authority.elim [] fun a => '/' :: '/' :: a) ++ path ∧ (∀ a ∈ authority, '/' ∉ a) ∧
      (authority ≠ none → path = [] ∨ path.head? = some '/') ∧ (authority = none → ¬ ['/', '/'] <+: path) := by
  by_cases h : ['/', '/'] <+: s
  · obtain ⟨t, rfl⟩ := h
    obtain ⟨a, part, rfl, hslash⟩ := exists_marked '/' t
    refine ⟨some a, marked '/' part, rfl, ?_, fun _ => ?_, nofun⟩
    · rintro _ ⟨⟩
      exact hslash
    · cases part with
      | none => exact Or.inl rfl
      | some t => exact Or.inr rfl
  · exact ⟨none, s, rfl, nofun, fun hne => absurd rfl hne, fun _ => h⟩

/-- Every text is read in some way. -/
theorem exists_valid (s : List Char) : ∃ p : Parts, p.Valid ∧ p.chars = s := by
  obtain ⟨whole, fragment, rfl, hfragment⟩ := exists_marked '#' s
  obtain ⟨front, query, rfl, hquery⟩ := exists_marked '?' whole
  obtain ⟨scheme, place, rfl, hscheme, hschemeless⟩ := exists_scheme front
  obtain ⟨authority, path, rfl, hslash, hrooted, hunrooted⟩ := exists_authority place
  refine ⟨⟨scheme, authority, path, query, fragment⟩, ⟨hscheme, ?_, ?_, ?_, hrooted, hunrooted, ?_⟩, rfl⟩
  · rintro a rfl
    refine ⟨hslash a rfl, ?_, ?_⟩ <;> simp_all
  · constructor <;> simp_all
  · rintro q rfl
    simp_all [marked]
  · rintro rfl rfl
    exact hschemeless rfl

theorem text_eq_iff {r : String} : p.text = r ↔ p.chars = r.toList := by
  rw [← String.toList_inj, text, String.toList_ofList]

/-- Every text is read in exactly one way. -/
theorem existsUnique_valid (r : String) : ∃! p : Parts, p.Valid ∧ p.text = r := by
  obtain ⟨p, hp, hchars⟩ := exists_valid r.toList
  refine ⟨p, ⟨hp, text_eq_iff.mpr hchars⟩, ?_⟩
  rintro q ⟨hq, htext⟩
  exact hq.eq_of_chars_eq hp ((text_eq_iff.mp htext).trans hchars.symm)

end Parts

end SchemaTables.Address
