import SchemaTables.Proofs.Address.Reference
import SchemaTables.Proofs.Table.Compile
import SchemaTables.Proofs.Triples.Statement

/-!
The row in the columns of a template. References are resolved while a placeholder stands for the identifier of the
row, and the address template of the row takes its place afterwards. The outcome is what resolving against the address
template would have been, so a reference to the row or to one of its fragments reaches the row as far as the
namespace lets it: a fragment in the namespace is cut off with all that follows it.
-/

namespace SchemaTables

set_option autoImplicit false

open scoped List

/-- What the address template of a row has after the namespace. -/
def rowExpression (slot : String) : List Char := '\x7b' :: '+' :: (slot.toList ++ ['\x7d'])

theorem toList_rowTemplate (ns slot : String) : (rowTemplate ns slot).toList = ns.toList ++ rowExpression slot := by
  simp [rowTemplate, rowExpression, String.toList_append]

theorem notMem_rowExpression {c : Char} {slot : String} (h : c ∉ slot.toList) (hc : c ∉ ['\x7b', '+', '\x7d']) :
    c ∉ rowExpression slot := by
  simp only [List.mem_cons, List.not_mem_nil, or_false, not_or] at hc
  simp [rowExpression, h, hc]

theorem solid_rowExpression {slot : String} (h : Address.Solid slot.toList) : Address.Solid (rowExpression slot) where
  slash := notMem_rowExpression h.slash (by decide)
  query := notMem_rowExpression h.query (by decide)
  fragment := notMem_rowExpression h.fragment (by decide)

namespace Triples

theorem solid_rowPlaceholder : Address.Solid rowPlaceholder.toList where
  slash := by decide
  query := by decide
  fragment := by decide

section Substitution
variable {ns slot reference f : String}

theorem substituteRow_eq_of_replaceAll
    (h : Text.replaceAll (ns.toList ++ rowPlaceholder.toList) (ns.toList ++ rowExpression slot)
      (Address.resolveChars (ns.toList ++ rowPlaceholder.toList) reference.toList) =
        Address.resolveChars (ns.toList ++ rowExpression slot) reference.toList) :
    substituteRow (ns ++ rowPlaceholder) (rowTemplate ns slot) (Address.resolve (ns ++ rowPlaceholder) reference) =
      Address.resolve (rowTemplate ns slot) reference := by
  rw [substituteRow, Address.resolve, Address.resolve, String.toList_ofList, toList_rowTemplate, String.toList_append,
    h]

/-- Resolving a reference against the placeholder of the row, and then putting the row in, is the same as resolving it
against the address template of the row. -/
theorem substituteRow_resolve (ns slot reference : String) (hslot : Address.Solid slot.toList)
    (h : ¬ rowPlaceholder.toList <:+: reference.toList) :
    substituteRow (ns ++ rowPlaceholder) (rowTemplate ns slot) (Address.resolve (ns ++ rowPlaceholder) reference) =
      Address.resolve (rowTemplate ns slot) reference :=
  substituteRow_eq_of_replaceAll
    (Address.replaceAll_resolveChars solid_rowPlaceholder (solid_rowExpression hslot) (by decide) h ns.toList)

/-- A path beside the row. -/
theorem substituteRow_resolve_path : Address.Solid "id".toList ∧ ¬ rowPlaceholder.toList <:+: "../people/1".toList ∧
    substituteRow ("https://example.org/rows/" ++ rowPlaceholder) (rowTemplate "https://example.org/rows/" "id")
        (Address.resolve ("https://example.org/rows/" ++ rowPlaceholder) "../people/1") =
      Address.resolve (rowTemplate "https://example.org/rows/" "id") "../people/1" ∧
    Address.resolve (rowTemplate "https://example.org/rows/" "id") "../people/1" =
      "https://example.org/rows/../people/1" := by
  have hslot : Address.Solid "id".toList := ⟨by decide, by decide, by decide⟩
  have hreference : ¬ rowPlaceholder.toList <:+: "../people/1".toList := by decide
  exact ⟨hslot, hreference, substituteRow_resolve "https://example.org/rows/" "id" "../people/1" hslot hreference, rfl⟩

/-- What a reference to the row denotes: its address template, or what stands before the fragment that the namespace
has already. -/
def rowAddress (ns slot : String) : String :=
  if '#' ∈ ns.toList then String.ofList (Text.before '#' ns.toList) else rowTemplate ns slot

theorem withoutFragment_rowTemplate (hslot : '#' ∉ slot.toList) :
    Address.withoutFragment (rowTemplate ns slot).toList = (rowAddress ns slot).toList := by
  rw [Address.withoutFragment, toList_rowTemplate, rowAddress]
  by_cases hns : '#' ∈ ns.toList
  · rw [Text.before_append_of_mem hns, if_pos hns, String.toList_ofList]
  · rw [Text.before_append_of_notMem hns, if_neg hns, Text.before_of_notMem (notMem_rowExpression hslot (by decide)),
      toList_rowTemplate]

theorem resolve_rowTemplate_empty (hslot : '#' ∉ slot.toList) :
    Address.resolve (rowTemplate ns slot) "" = rowAddress ns slot := by
  rw [Address.resolve, String.toList_empty, Address.resolveChars_nil, withoutFragment_rowTemplate hslot,
    String.ofList_toList]

theorem toList_fragment (f : String) : ("#" ++ f).toList = '#' :: f.toList := by
  rw [String.toList_append]
  rfl

theorem resolve_rowTemplate_fragment (hslot : '#' ∉ slot.toList) :
    Address.resolve (rowTemplate ns slot) ("#" ++ f) = rowAddress ns slot ++ "#" ++ f := by
  rw [Address.resolve, toList_fragment, Address.resolveChars_fragment, withoutFragment_rowTemplate hslot,
    ← toList_fragment, ← String.toList_append, String.ofList_toList, String.append_assoc]

theorem substituteRow_empty (hslot : '#' ∉ slot.toList) :
    substituteRow (ns ++ rowPlaceholder) (rowTemplate ns slot) (Address.resolve (ns ++ rowPlaceholder) "") =
      rowAddress ns slot := by
  rw [← resolve_rowTemplate_empty hslot]
  refine substituteRow_eq_of_replaceAll ?_
  exact Address.replaceAll_resolve_nil solid_rowPlaceholder.fragment (notMem_rowExpression hslot (by decide))
    (by decide) ns.toList

theorem substituteRow_fragment (hslot : '#' ∉ slot.toList) (hf : ¬ rowPlaceholder.toList <:+: f.toList) :
    substituteRow (ns ++ rowPlaceholder) (rowTemplate ns slot) (Address.resolve (ns ++ rowPlaceholder) ("#" ++ f)) =
      rowAddress ns slot ++ "#" ++ f := by
  rw [← resolve_rowTemplate_fragment hslot]
  refine substituteRow_eq_of_replaceAll ?_
  rw [toList_fragment]
  exact Address.replaceAll_resolve_fragment solid_rowPlaceholder.fragment (notMem_rowExpression hslot (by decide))
    (by decide) hf ns.toList

/-- The base is what it denotes itself, when its namespace has no fragment. -/
theorem resolve_base_empty_iff :
    Address.resolve (ns ++ rowPlaceholder) "" = ns ++ rowPlaceholder ↔ '#' ∉ ns.toList := by
  rw [← String.toList_inj, Address.resolve, String.toList_ofList, String.toList_empty, Address.resolveChars_nil,
    Address.withoutFragment, String.toList_append]
  constructor
  · intro h hns
    exact Text.notMem_before '#' _ (h ▸ List.mem_append_left rowPlaceholder.toList hns)
  · intro hns
    rw [Text.before_append_of_notMem hns, Text.before_of_notMem solid_rowPlaceholder.fragment]

/-- A fragment is not the base, which ends in the placeholder. -/
theorem resolve_base_fragment_ne (hf : ¬ rowPlaceholder.toList <:+: f.toList) :
    Address.resolve (ns ++ rowPlaceholder) ("#" ++ f) ≠ ns ++ rowPlaceholder := by
  intro h
  rw [← String.toList_inj, Address.resolve, String.toList_ofList, toList_fragment, Address.resolveChars_fragment,
    String.toList_append] at h
  rcases List.append_eq_append_iff.mp h with ⟨u, _, hrest⟩ | ⟨u, _, hplaceholder⟩
  · rcases List.cons_eq_append_iff.mp hrest with ⟨_, hplaceholder⟩ | ⟨u', _, hfragment⟩
    · exact solid_rowPlaceholder.fragment (hplaceholder ▸ List.mem_cons_self)
    · exact hf (hfragment ▸ (List.suffix_append u' rowPlaceholder.toList).isInfix)
  · exact solid_rowPlaceholder.fragment (hplaceholder ▸ List.mem_append_right u List.mem_cons_self)

end Substitution

/-- What a sentence of a template becomes for the rows of a table. -/
def Sentence.States (prefixes : PrefixTable) (ns row : String) (w : Sentence) (column : Column) : Prop :=
  ∃ t, w.Denotes prefixes (ns ++ rowPlaceholder) t ∧ t.toColumn (ns ++ rowPlaceholder) row = column

/-- References to the row and to its fragments, as the column of a sentence has them. -/
structure Sentence.ReachesRow (ns slot : String) (w : Sentence) (column : Column) : Prop where
  /-- A column about the row names no subject, unless a fragment in the namespace has the row cut off. -/
  subject : w.subject = .iri "" → column.aboutUrl = if '#' ∈ ns.toList then some (rowAddress ns slot) else none
  object : w.object = .iri "" → column.valueUrl = some (rowAddress ns slot)
  subjectFragment : ∀ f : String, ¬ rowPlaceholder.toList <:+: f.toList → w.subject = .iri ("#" ++ f) →
    column.aboutUrl = some (rowAddress ns slot ++ "#" ++ f)
  objectFragment : ∀ f : String, ¬ rowPlaceholder.toList <:+: f.toList → w.object = .iri ("#" ++ f) →
    column.valueUrl = some (rowAddress ns slot ++ "#" ++ f)

section Columns
variable {template ns slot row f : String} {prefixes : PrefixTable} {columns : List Column} {w : Sentence}
  {column : Column}

theorem columns_eq_ok_iff : Triples.columns template prefixes ns row = .ok columns ↔
    ∃ tokens triples, tokenize template = .ok tokens ∧
      parseStatements prefixes (ns ++ rowPlaceholder) tokens = .ok triples ∧
      triples.map (Triple.toColumn (ns ++ rowPlaceholder) row) = columns := by
  simp only [Triples.columns, Except.bind_eq_ok_iff, Except.mapError_eq_ok_iff, pure, Except.pure, Except.ok.injEq]
  constructor
  · rintro ⟨tokens, htokens, triples, htriples, rfl⟩
    exact ⟨tokens, triples, htokens, htriples, rfl⟩
  · rintro ⟨tokens, triples, htokens, htriples, rfl⟩
    exact ⟨tokens, htokens, triples, htriples, rfl⟩

/-- Each sentence of a template has its column, and each column its sentence. -/
theorem columns_by_sentences {statements : List Statement}
    (h : Triples.columns template prefixes ns row = .ok columns)
    (htokens : tokenize template = .ok (statementTokens statements)) :
    (∀ s ∈ statements, ∀ w ∈ s.sentences, ∃ column ∈ columns, w.States prefixes ns row column) ∧
      ∀ column ∈ columns, ∃ s ∈ statements, ∃ w ∈ s.sentences, w.States prefixes ns row column := by
  obtain ⟨tokens, triples, htokens', htriples, rfl⟩ := columns_eq_ok_iff.mp h
  cases htokens.symm.trans htokens'
  constructor
  · intro s hs w hw
    obtain ⟨t, ht⟩ := exists_denotes_of_parseStatements htriples hs hw
    have hmem : t ∈ triples := (mem_iff_of_parseStatements htriples t).mpr ⟨s, hs, w, hw, ht⟩
    exact ⟨_, List.mem_map_of_mem hmem, t, ht, rfl⟩
  · intro column hcolumn
    obtain ⟨t, hmem, rfl⟩ := List.mem_map.mp hcolumn
    obtain ⟨s, hs, w, hw, ht⟩ := (mem_iff_of_parseStatements htriples t).mp hmem
    exact ⟨s, hs, w, hw, t, ht, rfl⟩

theorem exists_statements_of_columns (h : Triples.columns template prefixes ns row = .ok columns) :
    ∃ statements, tokenize template = .ok (statementTokens statements) := by
  obtain ⟨tokens, triples, htokens, htriples, _⟩ := columns_eq_ok_iff.mp h
  obtain ⟨statements, rfl⟩ := exists_statements_of_parseStatements htriples
  exact ⟨statements, htokens⟩

/-- A subject that a template writes as a reference. -/
theorem Sentence.States.aboutUrl_iri {reference : String} (h : w.States prefixes ns row column)
    (hsubject : w.subject = .iri reference) :
    column.aboutUrl = if Address.resolve (ns ++ rowPlaceholder) reference = ns ++ rowPlaceholder then none
      else some (substituteRow (ns ++ rowPlaceholder) row (Address.resolve (ns ++ rowPlaceholder) reference)) := by
  obtain ⟨t, ht, rfl⟩ := h
  have hdenotes : Term.Denotes prefixes (ns ++ rowPlaceholder) (.iri reference) t.subject := hsubject ▸ ht.subject
  rw [Triple.toColumn, Column.statement, hdenotes.unique (.iri reference)]

/-- An object that a template writes as a reference. -/
theorem Sentence.States.valueUrl_iri {reference : String} (h : w.States prefixes ns row column)
    (hobject : w.object = .iri reference) :
    column.valueUrl =
      some (substituteRow (ns ++ rowPlaceholder) row (Address.resolve (ns ++ rowPlaceholder) reference)) := by
  obtain ⟨t, ht, rfl⟩ := h
  have hdenotes : Term.Denotes prefixes (ns ++ rowPlaceholder) (.iri reference) t.object := hobject ▸ ht.object
  rw [Triple.toColumn, Column.statement, hdenotes.unique (.iri reference)]

theorem Sentence.States.reachesRow (h : w.States prefixes ns (rowTemplate ns slot) column)
    (hslot : '#' ∉ slot.toList) : w.ReachesRow ns slot column where
  subject hsubject := by
    rw [h.aboutUrl_iri hsubject, substituteRow_empty hslot]
    by_cases hns : '#' ∈ ns.toList
    · rw [if_pos hns, if_neg fun hbase => resolve_base_empty_iff.mp hbase hns]
    · rw [if_neg hns, if_pos (resolve_base_empty_iff.mpr hns)]
  object hobject := by rw [h.valueUrl_iri hobject, substituteRow_empty hslot]
  subjectFragment f hf hsubject := by
    rw [h.aboutUrl_iri hsubject, if_neg (resolve_base_fragment_ne hf), substituteRow_fragment hslot hf]
  objectFragment f hf hobject := by rw [h.valueUrl_iri hobject, substituteRow_fragment hslot hf]

/-- A slot that speaks about a fragment of the row. -/
theorem aboutUrl_of_fragment {j : Job} {c : Class} {s : Slot} {b : BuiltColumn} (hslot : '#' ∉ slot.toList)
    (h : j.buildColumn c (rowTemplate ns slot) s = .ok b) (habout : s.aboutUrl? = some ("#" ++ f)) :
    b.column.aboutUrl = some (rowAddress ns slot ++ "#" ++ f) := by
  rw [Job.aboutUrl_of_buildColumn h, Job.aboutUrl, habout, ← resolve_rowTemplate_fragment hslot]

/-- Each sentence of an accepted template has its column and each column its sentence. References to the row and to its
fragments reach the address template of the row when the namespace has no fragment, and what stands before the fragment
when it has one; so does the reference of a slot that speaks about a fragment. -/
theorem columns_reach_row (template : String) (prefixes : PrefixTable) (ns slot : String) (columns : List Column)
    (hslot : '#' ∉ slot.toList) (h : Triples.columns template prefixes ns (rowTemplate ns slot) = .ok columns) :
    (∃ statements, tokenize template = .ok (statementTokens statements)) ∧
    (∀ statements, tokenize template = .ok (statementTokens statements) →
      (∀ s ∈ statements, ∀ w ∈ s.sentences, ∃ column ∈ columns, w.States prefixes ns (rowTemplate ns slot) column) ∧
      ∀ column ∈ columns, ∃ s ∈ statements, ∃ w ∈ s.sentences, w.States prefixes ns (rowTemplate ns slot) column) ∧
    (∀ (w : Sentence) column, w.States prefixes ns (rowTemplate ns slot) column → w.ReachesRow ns slot column) ∧
    ∀ (j : Job) (c : Class) (s : Slot) (b : BuiltColumn) (f : String),
      j.buildColumn c (rowTemplate ns slot) s = .ok b → s.aboutUrl? = some ("#" ++ f) →
      b.column.aboutUrl = some (rowAddress ns slot ++ "#" ++ f) := by
  refine ⟨exists_statements_of_columns h, fun _ => columns_by_sentences h, ?_, ?_⟩
  · exact fun _ _ hstates => hstates.reachesRow hslot
  · exact fun _ _ _ _ _ => aboutUrl_of_fragment hslot

/-- A row with a node that hangs off it. -/
def amountStatement : Statement where
  subject := .iri ""
  clause := ⟨.term (.iri "https://schema.org/amount"), .iri "#amount", []⟩

theorem columns_reach_row_amount : '#' ∉ "id".toList ∧
    ∃ columns, Triples.columns "<> <https://schema.org/amount> <#amount> ." [] "https://example.org/payments/"
        (rowTemplate "https://example.org/payments/" "id") = .ok columns ∧
      ∃ column ∈ columns, column.aboutUrl = none ∧
        column.valueUrl = some (rowTemplate "https://example.org/payments/" "id" ++ "#amount") := by
  have hslot : '#' ∉ "id".toList := by decide
  have hplaceholder : ¬ rowPlaceholder.toList <:+: "amount".toList := by decide
  have hcompiled : Triples.columns "<> <https://schema.org/amount> <#amount> ." [] "https://example.org/payments/"
      (rowTemplate "https://example.org/payments/" "id") = .ok [.statement none "https://schema.org/amount"
        (rowTemplate "https://example.org/payments/" "id" ++ "#amount")] := rfl
  obtain ⟨_, hsentences, hreach, _⟩ := columns_reach_row _ _ _ _ _ hslot hcompiled
  obtain ⟨column, hcolumn, hstates⟩ := (hsentences [amountStatement] rfl).1 amountStatement (List.mem_singleton.mpr rfl)
    ⟨.iri "", .term (.iri "https://schema.org/amount"), .iri "#amount"⟩ (List.mem_singleton.mpr rfl)
  have hrow := hreach _ column hstates
  exact ⟨hslot, _, hcompiled, column, hcolumn, hrow.subject rfl, hrow.objectFragment "amount" hplaceholder rfl⟩

/-- Under a namespace with a fragment the row is lost: what is said of the row is said of another address. -/
theorem exists_row_cut :
    tokenize "<> a <#kind> ." = .ok (statementTokens [⟨.iri "", ⟨.isType, .iri "#kind", []⟩, [], false⟩]) ∧
    ∃ column, Triples.columns "<> a <#kind> ." [] "https://example.org/data#"
        (rowTemplate "https://example.org/data#" "id") = .ok [column] ∧
      column.aboutUrl = some "https://example.org/data" ∧ column.valueUrl = some "https://example.org/data#kind" :=
  ⟨rfl, _, rfl, rfl, rfl⟩

end Columns

end Triples

end SchemaTables
