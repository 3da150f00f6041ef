import SchemaTables.Proofs.Address.Parts
import SchemaTables.Proofs.Address.Reference

/-!
Resolving agrees with the meaning of references on parts, for every base with a scheme and an authority, but for one
kind of reference: a path from the root. The authority of a base is taken to end at the first slash, so that a query
or a fragment that comes straight after the authority is kept in front of the path.
-/

namespace SchemaTables.Address

set_option autoImplicit false

open scoped List

theorem hasScheme_append_cons {s : List Char} (h : IsScheme s) (t : List Char) : hasScheme (s ++ ':' :: t) = true := by
  cases s with
  | nil => exact h.elim
  | cons c rest =>
    have hcolon : ':' ∉ c :: rest := notMem_of_isScheme h (by decide)
    rw [hasScheme, Text.cutAt_append_cons hcolon]
    obtain ⟨hfirst, hrest⟩ := h
    simp only [hfirst, Bool.true_and, List.all_eq_true]
    intro d hd
    simpa [or_assoc] using hrest d hd

theorem exists_of_hasScheme {s : List Char} (h : hasScheme s = true) : ∃ a t, s = a ++ ':' :: t ∧ IsScheme a := by
  unfold hasScheme at h
  split at h
  · rename_i c rest t hcut
    rw [Bool.and_eq_true, List.all_eq_true] at h
    refine ⟨c :: rest, t, Text.eq_of_cutAt hcut, h.1, fun d hd => ?_⟩
    simpa [or_assoc] using h.2 d hd
  · cases h

namespace Parts

/-- Query and fragment. -/
def ends (p : Parts) : List Char := marked '?' p.query ++ marked '#' p.fragment

variable {base r : Parts} {scheme authority t : List Char}

theorem chars_eq (p : Parts) : p.chars = p.front ++ p.ends := List.append_assoc _ _ _

theorem ends_cases (p : Parts) : p.query = none ∧ p.fragment = none ∧ p.ends = [] ∨
    ∃ c t, (c = '?' ∨ c = '#') ∧ p.ends = c :: t := by
  unfold ends
  cases p.query with
  | some q => exact Or.inr ⟨'?', _, Or.inl rfl, rfl⟩
  | none =>
    cases p.fragment with
    | some f => exact Or.inr ⟨'#', f, Or.inr rfl, rfl⟩
    | none => exact Or.inl ⟨rfl, rfl, rfl⟩

theorem Valid.hasScheme_chars (hr : r.Valid) : hasScheme r.chars = r.scheme.isSome := by
  cases hscheme : r.scheme with
  | some s =>
    have hchars : r.chars = s ++ ':' :: (r.place ++ r.ends) := by simp [chars_eq, front, hscheme]
    rw [hchars, hasScheme_append_cons (hr.scheme s hscheme)]
    rfl
  | none =>
    have hfront : r.front = r.place := by simp [front, hscheme]
    rw [Option.isSome_none, Bool.eq_false_iff]
    intro h
    obtain ⟨s, t, heq, hs⟩ := exists_of_hasScheme h
    rw [chars_eq, hfront] at heq
    have hends : ∀ u, r.ends ≠ ':' :: u := by
      intro u hu
      rcases r.ends_cases with ⟨_, _, hnil⟩ | ⟨c, t, rfl | rfl, hcons⟩ <;> simp_all
    rcases List.append_eq_append_iff.mp heq with ⟨e, rfl, he⟩ | ⟨e, hplace, he⟩
    · cases e with
      | nil => exact hends t he
      | cons d e =>
        have hd : d ∉ r.place ++ d :: e := by
          apply notMem_of_isScheme hs
          rcases r.ends_cases with ⟨_, _, hnil⟩ | ⟨c, t, hc, hcons⟩
          · rw [hnil] at he
            cases he
          · rw [hcons] at he
            obtain ⟨rfl, _⟩ := List.cons.inj he
            rcases hc with rfl | rfl <;> decide
        exact hd (List.mem_append_right _ List.mem_cons_self)
    · cases e with
      | nil => exact hends t he.symm
      | cons d e =>
        obtain ⟨rfl, _⟩ := List.cons.inj he
        exact hr.place_ne hscheme hs hplace

theorem merge_append (base : Parts) (s t : List Char) : base.merge (s ++ t) = base.merge s ++ t := by
  unfold merge
  split
  · rfl
  · exact (List.append_assoc _ _ _).symm

/-- The base has no path but goes on after the authority, and the reference is a path from the root. -/
def Overruns (base r : Parts) : Prop :=
  base.path = [] ∧ (base.query ≠ none ∨ base.fragment ≠ none) ∧
    r.scheme = none ∧ r.authority = none ∧ r.path.head? = some '/'

instance (base r : Parts) : Decidable (Overruns base r) :=
  inferInstanceAs (Decidable (_ ∧ _ ∧ _ ∧ _ ∧ _))

/-- A base has a scheme and an authority. -/
structure Hierarchical (base : Parts) (scheme authority : List Char) : Prop where
  valid : base.Valid
  scheme : base.scheme = some scheme
  authority : base.authority = some authority

namespace Hierarchical

theorem front (h : base.Hierarchical scheme authority) :
    base.front = scheme ++ "://".toList ++ authority ++ base.path := by
  simp [Parts.front, place, h.scheme, h.authority]

theorem chars (h : base.Hierarchical scheme authority) :
    base.chars = scheme ++ "://".toList ++ (authority ++ base.path ++ base.ends) := by
  rw [chars_eq, h.front]
  simp only [List.append_assoc]

theorem cutScheme_chars (h : base.Hierarchical scheme authority) :
    cutScheme base.chars = (scheme, authority ++ base.path ++ base.ends) := by
  have hcolon : ':' ∉ scheme := notMem_of_isScheme (h.valid.scheme scheme h.scheme) (by decide)
  rw [cutScheme, h.chars]
  exact congrArg (Option.getD · _) (Text.cutAtText_append_of_notMem hcolon ['/', '/'] _)

theorem withoutFragment_chars (h : base.Hierarchical scheme authority) :
    withoutFragment base.chars = base.front ++ marked '?' base.query :=
  before_append_marked h.valid.notMem_query base.fragment

theorem withoutQuery_chars (h : base.Hierarchical scheme authority) : withoutQuery base.chars = base.front := by
  rw [withoutQuery, h.withoutFragment_chars]
  exact before_append_marked (h.valid.notMem_front (Or.inl rfl)) base.query

/-- A path ends the authority; without one the authority is taken to go on into the query. -/
theorem before_slash (h : base.Hierarchical scheme authority) :
    Text.before '/' (authority ++ base.path ++ base.ends) =
      if base.path = [] then authority ++ Text.before '/' base.ends else authority := by
  obtain ⟨hslash, _⟩ := h.valid.authority authority h.authority
  rcases h.valid.path_cases h.authority with hpath | ⟨t, hpath⟩
  · rw [if_pos hpath, hpath, List.append_nil, Text.before_append_of_notMem hslash]
  · rw [hpath, if_neg (List.cons_ne_nil _ _), List.append_assoc, List.cons_append, Text.before_append_cons hslash]

theorem authorityEnd_chars (h : base.Hierarchical scheme authority) : authorityEnd base.chars =
    (scheme ++ "://".toList).length + (Text.before '/' (authority ++ base.path ++ base.ends)).length := by
  have hlength : ∀ rest : List Char, (scheme ++ "://".toList ++ rest).length - rest.length =
      (scheme ++ "://".toList).length := fun rest => Nat.sub_eq_of_eq_add List.length_append
  rw [authorityEnd, h.cutScheme_chars, h.chars, hlength]

/-- A relative path replaces the last part of the path of the base. -/
theorem resolveRelative_chars (h : base.Hierarchical scheme authority) (reference : List Char) :
    resolveRelative base.chars reference = scheme ++ "://".toList ++ authority ++ base.merge reference := by
  have hend := h.authorityEnd_chars
  rw [h.before_slash] at hend
  rw [resolveRelative_eq, h.withoutQuery_chars, h.front]
  rcases h.valid.path_cases h.authority with hpath | ⟨t, hpath⟩
  · have hmerge : base.merge reference = '/' :: reference := if_pos ⟨by simp [h.authority], hpath⟩
    have hlong : (scheme ++ "://".toList ++ authority ++ []).length ≤ authorityEnd base.chars := by
      rw [if_pos hpath] at hend
      simp only [List.length_append, List.length_nil] at hend ⊢
      omega
    rw [hmerge, hpath, List.drop_eq_nil_of_le hlong, if_neg List.not_mem_nil, List.append_nil]
  · have hne : base.path ≠ [] := by simp [hpath]
    have hmerge : base.merge reference = directoryOf base.path ++ reference := if_neg fun hand => hne hand.2
    have hlength : authorityEnd base.chars = (scheme ++ "://".toList ++ authority).length := by
      rw [hend, if_neg hne]
      exact List.length_append.symm
    have hslash : '/' ∈ base.path := by simp [hpath]
    rw [hmerge, hlength, List.drop_left, List.take_left, if_pos hslash, List.append_assoc]

/-- What has the authority of the base. -/
theorem chars_with (h : base.Hierarchical scheme authority) (path : List Char) (query fragment : Option (List Char)) :
    ({ base with path := path, query := query, fragment := fragment } : Parts).chars =
      scheme ++ "://".toList ++ authority ++ path ++ (marked '?' query ++ marked '#' fragment) := by
  simp [Parts.chars, Parts.front, place, h.scheme, h.authority]

section Kinds
variable (h : base.Hierarchical scheme authority) (hr : r.Valid) (hscheme : r.scheme = none)
  (hauthority : r.authority = none)
include h hscheme hauthority

/-- Query and fragment replace what the base has after its path. -/
theorem resolveChars_pathless (hpath : r.path = []) : resolveChars base.chars r.chars = (base.target r).chars := by
  cases hquery : r.query with
  | some q =>
    have hchars : r.chars = '?' :: (q ++ marked '#' r.fragment) := by
      simp [Parts.chars, Parts.front, place, marked, hscheme, hauthority, hpath, hquery]
    have htarget : base.target r = { base with query := some q, fragment := r.fragment } := by
      simp [target, hscheme, hauthority, hpath, hquery]
    rw [hchars, resolveChars_query, h.withoutQuery_chars, htarget]
    exact (List.append_assoc base.front ('?' :: q) _).symm
  | none =>
    have htarget : base.target r = { base with fragment := r.fragment } := by
      simp [target, hscheme, hauthority, hpath, hquery]
    rw [htarget]
    cases hfragment : r.fragment with
    | some f =>
      have hchars : r.chars = '#' :: f := by
        simp [Parts.chars, Parts.front, place, marked, hscheme, hauthority, hpath, hquery, hfragment]
      rw [hchars, resolveChars_fragment, h.withoutFragment_chars]
      rfl
    | none =>
      have hchars : r.chars = [] := by
        simp [Parts.chars, Parts.front, place, marked, hscheme, hauthority, hpath, hquery, hfragment]
      rw [hchars, resolveChars_nil, h.withoutFragment_chars]
      exact (List.append_nil _).symm

include hr

theorem resolveChars_relative_path {c : Char} (hpath : r.path = c :: t) (hc : c ≠ '/') :
    resolveChars base.chars r.chars = (base.target r).chars := by
  have hmarks : c ≠ '?' ∧ c ≠ '#' := by
    obtain ⟨hquery, hfragment⟩ := hr.path
    rw [hpath, List.mem_cons, not_or] at hquery hfragment
    exact ⟨Ne.symm hquery.1, Ne.symm hfragment.1⟩
  have hchars : r.chars = c :: (t ++ r.ends) := by simp [chars_eq, Parts.front, place, hscheme, hauthority, hpath]
  have hhas := hr.hasScheme_chars
  rw [hscheme, hchars] at hhas
  have htarget : base.target r =
      { base with path := base.merge r.path, query := r.query, fragment := r.fragment } := by
    simp [target, hscheme, hauthority, hpath, hc]
  rw [hchars, resolveChars_relative hhas (by simp [hc, hmarks]), ← hchars, h.resolveRelative_chars, htarget,
    h.chars_with]
  have hreference : r.chars = r.path ++ r.ends := by rw [hchars, hpath, List.cons_append]
  rw [hreference, merge_append, ← List.append_assoc]
  rfl

theorem resolveChars_rooted (hpath : r.path = '/' :: t) : resolveChars base.chars r.chars =
    scheme ++ "://".toList ++ Text.before '/' (authority ++ base.path ++ base.ends) ++ r.chars := by
  have hchars : r.chars = '/' :: (t ++ r.ends) := by simp [chars_eq, Parts.front, place, hscheme, hauthority, hpath]
  have hhead : (t ++ r.ends).head? ≠ some '/' := by
    cases t with
    | nil => rcases r.ends_cases with ⟨_, _, hnil⟩ | ⟨c, u, rfl | rfl, hcons⟩ <;> simp_all
    | cons d t =>
      rintro hd
      obtain rfl : d = '/' := by simpa using hd
      exact hr.path_ne hauthority t hpath
  rw [hchars, resolveChars_absolute hhead, h.cutScheme_chars]

end Kinds

theorem resolveChars_eq_target (h : base.Hierarchical scheme authority) (hr : r.Valid) (hover : ¬ Overruns base r) :
    resolveChars base.chars r.chars = (base.target r).chars := by
  have hhas := hr.hasScheme_chars
  cases hscheme : r.scheme with
  | some s =>
    have htarget : base.target r = r := by simp [target, hscheme]
    rw [hscheme] at hhas
    rw [resolveChars_of_hasScheme hhas, htarget]
  | none =>
    cases hauthority : r.authority with
    | some a =>
      have hchars : r.chars = '/' :: '/' :: (a ++ r.path ++ r.ends) := by
        simp [chars_eq, Parts.front, place, hscheme, hauthority]
      have htarget : base.target r = { r with scheme := base.scheme } := by simp [target, hscheme, hauthority]
      rw [hchars, resolveChars_network, h.cutScheme_chars, htarget]
      simp [chars_eq, Parts.front, place, h.scheme, ends, hauthority]
    | none =>
      cases hpath : r.path with
      | nil => exact h.resolveChars_pathless hscheme hauthority hpath
      | cons c t =>
        by_cases hc : c = '/'
        · subst hc
          have hends : base.path = [] → base.ends = [] := by
            intro hnil
            rcases base.ends_cases with ⟨_, _, hends⟩ | ⟨d, u, _, hends⟩
            · exact hends
            · refine absurd ⟨hnil, ?_, hscheme, hauthority, by rw [hpath]; rfl⟩ hover
              by_contra hnone
              simp_all [ends, marked]
          have hbefore : Text.before '/' (authority ++ base.path ++ base.ends) = authority := by
            rw [h.before_slash]
            split
            · rename_i hnil
              rw [hends hnil]
              exact List.append_nil authority
            · rfl
          have htarget : base.target r = { base with path := r.path, query := r.query, fragment := r.fragment } := by
            simp [target, hscheme, hauthority, hpath]
          rw [h.resolveChars_rooted hr hscheme hauthority hpath, hbefore, htarget, h.chars_with]
          simp [chars_eq, Parts.front, place, hscheme, hauthority, ends]
        · exact h.resolveChars_relative_path hr hscheme hauthority hpath hc

/-- What the base has up to its first slash stays between the authority and the path. -/
theorem resolveChars_of_overruns (h : base.Hierarchical scheme authority) (hr : r.Valid) (hover : Overruns base r) :
    resolveChars base.chars r.chars =
      scheme ++ "://".toList ++ authority ++ Text.before '/' base.ends ++ r.chars ∧
    (base.target r).chars = scheme ++ "://".toList ++ authority ++ r.chars ∧ Text.before '/' base.ends ≠ [] := by
  obtain ⟨hnil, hsome, hscheme, hauthority, hhead⟩ := hover
  obtain ⟨t, hpath⟩ := List.head?_eq_some_iff.mp hhead
  have htarget : base.target r = { base with path := r.path, query := r.query, fragment := r.fragment } := by
    simp [target, hscheme, hauthority, hpath]
  refine ⟨?_, ?_, ?_⟩
  · rw [h.resolveChars_rooted hr hscheme hauthority hpath, h.before_slash, if_pos hnil, ← List.append_assoc]
  · rw [htarget, h.chars_with]
    simp [chars_eq, Parts.front, place, hscheme, hauthority, ends]
  · rcases base.ends_cases with ⟨hquery, hfragment, _⟩ | ⟨c, u, hc, hends⟩
    · exact absurd hsome (by simp [hquery, hfragment])
    · have hslash : c ≠ '/' := by rcases hc with rfl | rfl <;> decide
      rw [hends, Text.before_cons_of_ne hslash]
      exact List.cons_ne_nil _ _

end Hierarchical

theorem resolve_text (base r : Parts) : resolve base.text r.text = String.ofList (resolveChars base.chars r.chars) := by
  rw [resolve, text, text, String.toList_ofList, String.toList_ofList]

/-- A reference has one reading, and it resolves to its target except where the query or fragment of a base without a
path comes before a path from the root. -/
theorem resolve_eq_target_iff (h : base.Hierarchical scheme authority) (reference : String) :
    (∃! r : Parts, r.Valid ∧ r.text = reference) ∧
    ∀ r : Parts, r.Valid → r.text = reference →
      (resolve base.text reference = (base.target r).text ↔ ¬ Overruns base r) ∧
      (Overruns base r → resolve base.text reference = String.ofList scheme ++ "://" ++
        String.ofList authority ++ String.ofList (Text.before '/' base.ends) ++ reference) := by
  refine ⟨existsUnique_valid reference, ?_⟩
  rintro r hr rfl
  rw [resolve_text]
  constructor
  · constructor
    · intro heq hover
      obtain ⟨hresolve, htarget, hne⟩ := h.resolveChars_of_overruns hr hover
      have hchars : resolveChars base.chars r.chars = (base.target r).chars := String.ofList_injective heq
      rw [hresolve, htarget, List.append_left_inj, List.append_right_eq_self] at hchars
      exact hne hchars
    · intro hover
      rw [h.resolveChars_eq_target hr hover]
      rfl
  · intro hover
    obtain ⟨hresolve, _, _⟩ := h.resolveChars_of_overruns hr hover
    rw [hresolve, ← String.toList_inj]
    simp [text]

/-- A relative path with a query, from a page with a query and a fragment of its own. -/
theorem resolve_eq_target_iff_page :
    let base : Parts := ⟨some "https".toList, some "example.org".toList, "/id/7".toList, some "lang=en".toList,
      some "top".toList⟩
    let r : Parts := ⟨none, none, "8/names".toList, some "lang=de".toList, none⟩
    base.text = "https://example.org/id/7?lang=en#top" ∧ r.text = "8/names?lang=de" ∧
      resolve base.text r.text = (base.target r).text ∧
      (base.target r).text = "https://example.org/id/8/names?lang=de" := by
  intro base r
  have hbase : base.Hierarchical "https".toList "example.org".toList := ⟨by decide, rfl, rfl⟩
  have hr : r.Valid := by decide
  have hover : ¬ Overruns base r := by decide
  obtain ⟨_, hall⟩ := resolve_eq_target_iff hbase r.text
  obtain ⟨htarget, _⟩ := hall r hr rfl
  exact ⟨by decide, by decide, htarget.mpr hover, by decide⟩

/-- The query of the base is kept in front of the path. -/
theorem resolve_ne_target :
    let base : Parts := ⟨some "https".toList, some "example.org".toList, [], some "lang=en".toList, none⟩
    let r : Parts := ⟨none, none, "/people".toList, none, none⟩
    base.Hierarchical "https".toList "example.org".toList ∧ base.text = "https://example.org?lang=en" ∧
      r.Valid ∧ r.text = "/people" ∧ (base.target r).text = "https://example.org/people" ∧
      resolve "https://example.org?lang=en" "/people" = "https://example.org?lang=en/people" := by
  intro base r
  have hbase : base.Hierarchical "https".toList "example.org".toList := ⟨by decide, rfl, rfl⟩
  have hr : r.Valid := by decide
  exact ⟨hbase, by decide, hr, by decide, by decide, by decide⟩

end Parts

end SchemaTables.Address
