import Mathlib.Data.List.Basic
import SchemaTables.Triples.Token

/-!
Writing tokens and reading them back. Tokens are written one after the other with blanks and comments before,
between and after them; whatever these are, the scan gives back the tokens. Words need some care, since a dot may
belong to a word or end the statement.
-/

namespace SchemaTables.Triples

set_option autoImplicit false

/-- A piece of what stands between tokens. -/
inductive Spacing where
  | blank (c : Char) (hblank : Text.isBlank c = true)
  | comment (text : List Char) (hline : '\n' ∉ text)

def Spacing.chars : Spacing → List Char
  | blank c _ => [c]
  | comment text _ => '#' :: (text ++ ['\n'])

/-- What stands between two tokens; there is at least one blank or one comment. -/
structure Layout where
  first : Spacing
  more : List Spacing := []

def Layout.chars (l : Layout) : List Char := l.first.chars ++ l.more.flatMap Spacing.chars

/-- The word can be written as it is: it does not look like another token, and the dots in it do not end it. -/
structure PlainWord (word : List Char) : Prop where
  colon : ':' ∈ word
  start : ∀ c ∈ word.head?, c.isDigit = false ∧
    c ∉ ['+', '-', '.', '_', '@', '"', '\x27', '[', ']', '(', ')']
  chars : ∀ c ∈ word, Text.isBlank c = false ∧ c ∉ [';', ',', '<', '"', '#']
  dots : ∀ before after, word = before ++ '.' :: after → ∃ c ∈ after.head?, isNameChar c = true

namespace Token

/-- How a token is written. -/
def written : Token → List Char
  | iri reference => '<' :: (reference.toList ++ ['>'])
  | prefixed name => name.toList
  | isType => ['a']
  | semicolon => [';']
  | comma => [',']
  | dot => ['.']

/-- The token can be written. -/
def Writable : Token → Prop
  | iri reference => ∀ c ∈ reference.toList, Text.isBlank c = false ∧ c ≠ '>'
  | prefixed name => PlainWord name.toList
  | isType | semicolon | comma | dot => True

variable {s : List Char}

/-- What a character starts is read on from there. -/
theorem scan_between {c : Char} {tokens : List Token} {next : ScanState} (h : ScanState.start c = .ok (tokens, next)) :
    scan .between (c :: s) = (scan next s).map (tokens ++ ·) := by
  rw [scan, h]
  rfl

theorem scan_comment {text : List Char} (h : '\n' ∉ text) : scan .comment (text ++ '\n' :: s) = scan .between s := by
  induction text with
  | nil => rfl
  | cons c text ih =>
    rw [List.mem_cons, not_or] at h
    rw [List.cons_append, scan, if_neg (Ne.symm h.1), ih h.2]

theorem map_nil_append {ε : Type} (x : Except ε (List Token)) : x.map ([] ++ ·) = x := by cases x <;> rfl

theorem scan_spacing (p : Spacing) : scan .between (p.chars ++ s) = scan .between s := by
  cases p with
  | blank c hblank =>
    have hstart : ScanState.start c = .ok ([], .between) := if_pos hblank
    rw [Spacing.chars, List.singleton_append, scan_between hstart, map_nil_append]
  | comment text hline =>
    have hstart : ScanState.start '#' = .ok ([], .comment) := rfl
    rw [Spacing.chars, List.cons_append, List.append_assoc, scan_between hstart, map_nil_append]
    exact scan_comment hline

theorem scan_layout (l : Layout) : scan .between (l.chars ++ s) = scan .between s := by
  have hmore : ∀ pieces : List Spacing, scan .between (pieces.flatMap Spacing.chars ++ s) = scan .between s := by
    intro pieces
    induction pieces with
    | nil => rfl
    | cons p pieces ih => rw [List.flatMap_cons, List.append_assoc, scan_spacing, ih]
  rw [Layout.chars, List.append_assoc, scan_spacing, hmore]

theorem scan_iri {reference : List Char} (h : ∀ c ∈ reference, Text.isBlank c = false ∧ c ≠ '>') (read : List Char) :
    scan (.iri read) (reference ++ '>' :: s) =
      (scan .between s).map (iri (String.ofList (read.reverse ++ reference)) :: ·) := by
  induction reference generalizing read with
  | nil => rw [List.nil_append, scan, if_pos rfl, List.append_nil]
  | cons c reference ih =>
    rw [List.forall_mem_cons] at h
    rw [List.cons_append, scan, if_neg h.1.2, if_neg (by rw [h.1.1]; exact Bool.false_ne_true), ih h.2,
      List.reverse_cons, List.append_assoc, List.singleton_append]

/-- A word is read to the end while none of its characters ends it. -/
theorem scan_word {word : List Char}
    (h : ∀ before c after, word = before ++ c :: after → endsWord c (after ++ s) = false) (read : List Char) :
    scan (.word read) (word ++ s) = scan (.word (word.reverse ++ read)) s := by
  induction word generalizing read with
  | nil => rfl
  | cons c word ih =>
    have hc : endsWord c (word ++ s) = false := h [] c word rfl
    rw [List.cons_append, scan, if_neg (by rw [hc]; exact Bool.false_ne_true), List.reverse_cons, List.append_assoc]
    exact ih (fun before d after heq => h (c :: before) d after (by rw [heq, List.cons_append])) (c :: read)

/-- A layout ends a word. -/
theorem endsWord_layout (l : Layout) : ∃ c rest, l.chars ++ s = c :: rest ∧ endsWord c rest = true := by
  rw [Layout.chars]
  cases l.first with
  | blank c hblank => exact ⟨c, _, rfl, by simp [endsWord, hblank]⟩
  | comment text hline => exact ⟨'#', _, rfl, by simp [endsWord]⟩

theorem scan_word_layout {t : Token} {read : List Char} (h : ofWord read.reverse = .ok t) (l : Layout) :
    scan (.word read) (l.chars ++ s) = (scan .between s).map (t :: ·) := by
  obtain ⟨c, rest, heq, hends⟩ := endsWord_layout (s := s) l
  rw [← scan_layout l, heq, scan, scan, if_pos hends, h]
  cases ScanState.start c with
  | error e => rfl
  | ok started =>
    obtain ⟨tokens, next⟩ := started
    simp only [bind, Except.bind, pure, Except.pure, List.cons_append]
    cases scan next rest <;> rfl

theorem ofWord_of_plain {word : List Char} (h : PlainWord word) :
    ofWord word = .ok (prefixed (String.ofList word)) := by
  have hne : ∀ other : List Char, ':' ∉ other → word ≠ other := by
    rintro other hother rfl
    exact hother h.colon
  have hhead : word.head?.any (fun c => c.isDigit || c == '-' || c == '+') = false := by
    rw [Option.any_eq_false]
    intro c hc
    obtain ⟨hdigit, hstart⟩ := h.start c hc
    simp only [List.mem_cons, not_or] at hstart
    simp [hdigit, hstart]
  have hliteral : ¬ (word = "true".toList ∨ word = "false".toList ∨
      word.head?.any (fun c => c.isDigit || c == '-' || c == '+') = true) := by
    rw [hhead, not_or, not_or]
    exact ⟨hne _ (by decide), hne _ (by decide), Bool.false_ne_true⟩
  rw [ofWord, if_neg (hne ['a'] (by decide)), if_neg hliteral, if_pos (List.contains_iff_mem.mpr h.colon)]

/-- No character of a word that can be written ends it, a dot because a character of a name comes next. -/
theorem endsWord_of_plain {word before after : List Char} {c : Char} (h : PlainWord word)
    (heq : word = before ++ c :: after) : endsWord c (after ++ s) = false := by
  obtain ⟨hblank, hstop⟩ := h.chars c (by simp [heq])
  have hdot : (c == '.' && !((after ++ s).head?.any isNameChar)) = false := by
    by_cases hc : c = '.'
    · obtain ⟨d, hd, hname⟩ := h.dots before after (by rw [heq, hc])
      obtain ⟨rest, rfl⟩ := List.head?_eq_some_iff.mp hd
      simp [hname]
    · simp [hc]
  simp only [List.mem_cons, not_or] at hstop
  rw [endsWord, hblank, hdot]
  simp [hstop]

/-- What a word starts with starts a word. -/
theorem start_of_plain {word : List Char} (h : PlainWord word) :
    ∃ c rest, word = c :: rest ∧ ScanState.start c = .ok ([], .word [c]) := by
  obtain ⟨c, rest, rfl⟩ := List.exists_cons_of_ne_nil (List.ne_nil_of_mem h.colon)
  obtain ⟨hblank, hstop⟩ := h.chars c List.mem_cons_self
  obtain ⟨hdigit, hstart⟩ := h.start c rfl
  refine ⟨c, rest, rfl, ?_⟩
  simp only [List.mem_cons, not_or, List.not_mem_nil, not_false_iff, and_true] at hstop hstart
  unfold ScanState.start
  rw [if_neg (by simp [hblank])]
  split <;> simp_all

theorem scan_written {t : Token} (h : t.Writable) (l : Layout) :
    scan .between (t.written ++ (l.chars ++ s)) = (scan .between s).map (t :: ·) := by
  cases t with
  | iri reference =>
    have hstart : ScanState.start '<' = .ok ([], .iri []) := rfl
    rw [written, List.cons_append, List.append_assoc, scan_between hstart, map_nil_append, List.singleton_append,
      scan_iri h, List.reverse_nil, List.nil_append, String.ofList_toList, scan_layout]
  | prefixed name =>
    obtain ⟨c, rest, heq, hstart⟩ := start_of_plain h
    rw [written, heq, List.cons_append, scan_between hstart, map_nil_append, scan_word, scan_word_layout]
    · rw [← List.reverse_cons, List.reverse_reverse, ← heq, ofWord_of_plain h, String.ofList_toList]
    · rintro before d after rfl
      have hbefore : c :: (before ++ d :: after) = (c :: before) ++ d :: after := rfl
      exact endsWord_of_plain h (heq.trans hbefore)
  | isType =>
    have hstart : ScanState.start 'a' = .ok ([], .word ['a']) := rfl
    rw [written, List.singleton_append, scan_between hstart, map_nil_append]
    exact scan_word_layout rfl l
  | semicolon => rw [written, List.singleton_append, scan_between rfl, scan_layout]; rfl
  | comma => rw [written, List.singleton_append, scan_between rfl, scan_layout]; rfl
  | dot => rw [written, List.singleton_append, scan_between rfl, scan_layout]; rfl

end Token

/-- The text of the tokens, each followed by a layout, after a first layout. -/
def writtenText (lead : Layout) (items : List (Token × Layout)) : String :=
  String.ofList (lead.chars ++ items.flatMap fun (t, layout) => t.written ++ layout.chars)

/-- The scan gives back the tokens that were written, whatever stands between them. -/
theorem tokenize_writtenText (lead : Layout) (items : List (Token × Layout))
    (h : ∀ item ∈ items, item.1.Writable) :
    tokenize (writtenText lead items) = .ok (items.map Prod.fst) := by
  rw [tokenize, writtenText, String.toList_ofList, Token.scan_layout]
  induction items with
  | nil => rfl
  | cons item items ih =>
    rw [List.forall_mem_cons] at h
    rw [List.flatMap_cons, List.append_assoc, Token.scan_written h.1, ih h.2]
    rfl

/-- A dot inside a word, after a comment with a dot, and right before a comment. -/
def releaseItems : List (Token × Layout) := [
  (.iri "#v", ⟨.blank ' ' rfl, [.comment " first.".toList (by decide), .blank ' ' rfl]⟩),
  (.isType, ⟨.blank ' ' rfl, []⟩),
  (.prefixed "ex:v1.0", ⟨.blank ' ' rfl, []⟩),
  (.dot, ⟨.comment " last".toList (by decide), []⟩)]

theorem tokenize_writtenText_release : (∀ item ∈ releaseItems, item.1.Writable) ∧
    tokenize "\t<#v> # first.\n a ex:v1.0 .# last\n" = .ok [.iri "#v", .isType, .prefixed "ex:v1.0", .dot] := by
  have hword : PlainWord "ex:v1.0".toList := by
    have hchars : "ex:v1.0".toList = ['e', 'x', ':', 'v', '1'] ++ '.' :: ['0'] := rfl
    rw [hchars]
    refine ⟨by decide, ?_, ?_, ?_⟩
    · rintro c ⟨⟩
      decide
    · simp only [List.cons_append, List.nil_append, List.forall_mem_cons]
      refine ⟨?_, ?_, ?_, ?_, ?_, ?_, ?_, nofun⟩ <;> decide
    · intro before after heq
      obtain ⟨_, _, rfl⟩ := (List.append_cons_inj_of_notMem (by decide) (by decide)).mp heq
      exact ⟨'0', rfl, by decide⟩
  have hreference : ∀ c ∈ "#v".toList, Text.isBlank c = false ∧ c ≠ '>' := by
    have hchars : "#v".toList = ['#', 'v'] := rfl
    simp only [hchars, List.forall_mem_cons]
    exact ⟨by decide, by decide, nofun⟩
  have hitems : ∀ item ∈ releaseItems, item.1.Writable := by
    simp only [releaseItems, List.forall_mem_cons]
    exact ⟨hreference, trivial, hword, trivial, nofun⟩
  have htext : writtenText ⟨.blank '\t' rfl, []⟩ releaseItems = "\t<#v> # first.\n a ex:v1.0 .# last\n" := by
    rw [← String.toList_inj, writtenText, String.toList_ofList]
    rfl
  refine ⟨hitems, ?_⟩
  rw [← htext, tokenize_writtenText _ _ hitems]
  rfl

end SchemaTables.Triples
