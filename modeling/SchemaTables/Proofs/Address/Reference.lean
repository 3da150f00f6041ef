import SchemaTables.Address.Reference
import SchemaTables.Proofs.Text.Replace
import SchemaTables.Proofs.Text.Search

/-!
References resolved against a base that ends in a text of no structure, such as the placeholder of a row. Resolving
either keeps the base up to that text and the text with it, or cuts the base before it; so the text can be replaced
before or after.
-/

namespace SchemaTables.Address

set_option autoImplicit false

open scoped List

/-- No path, query or fragment begins in the text. -/
structure Solid (x : List Char) : Prop where
  slash : '/' ∉ x
  query : '?' ∉ x
  fragment : '#' ∉ x

section Equations
variable {base reference t : List Char}

theorem resolveChars_nil (base : List Char) : resolveChars base [] = withoutFragment base := rfl

theorem resolveChars_of_hasScheme (h : hasScheme reference = true) : resolveChars base reference = reference := by
  have hne : reference ≠ [] := by
    rintro rfl
    cases h
  rw [resolveChars, if_neg hne, if_pos h]

/-- A reference that starts with what no scheme starts with has none. -/
theorem hasScheme_of_not_isAlpha {c : Char} (h : c.isAlpha = false) (t : List Char) : hasScheme (c :: t) = false := by
  unfold hasScheme Text.cutAt
  by_cases hc : c = ':'
  · rw [if_pos hc]
  · rw [if_neg hc]
    cases Text.cutAt ':' t with
    | none => rfl
    | some cut => simp [h]

theorem resolveChars_network (base t : List Char) :
    resolveChars base ('/' :: '/' :: t) = (cutScheme base).1 ++ "://".toList ++ t := by
  simp [resolveChars, hasScheme_of_not_isAlpha]

theorem resolveChars_absolute (h : t.head? ≠ some '/') :
    resolveChars base ('/' :: t) =
      (cutScheme base).1 ++ "://".toList ++ Text.before '/' (cutScheme base).2 ++ '/' :: t := by
  have hnetwork : ∀ network, t = '/' :: network → False := by
    rintro network rfl
    exact h rfl
  simp [resolveChars, hasScheme_of_not_isAlpha]

theorem resolveChars_fragment (base t : List Char) :
    resolveChars base ('#' :: t) = withoutFragment base ++ '#' :: t := by
  simp [resolveChars, hasScheme_of_not_isAlpha]

theorem resolveChars_query (base t : List Char) : resolveChars base ('?' :: t) = withoutQuery base ++ '?' :: t := by
  simp [resolveChars, hasScheme_of_not_isAlpha]

theorem resolveChars_relative {c : Char} (hscheme : hasScheme (c :: t) = false) (h : c ∉ ['/', '#', '?']) :
    resolveChars base (c :: t) = resolveRelative base (c :: t) := by
  simp only [List.mem_cons, not_or] at h
  simp [resolveChars, hscheme, h]

end Equations

section Ends
variable {n p x y t : List Char}

theorem cutScheme_append (h : '/' ∉ y) (n : List Char) :
    cutScheme (n ++ y) = ((cutScheme n).1, (cutScheme n).2 ++ y) := by
  have hcut := Text.cutAtText_append (a := [':', '/']) (s := n) h
  have hseparator : "://".toList = [':', '/'] ++ ['/'] := rfl
  rw [cutScheme, cutScheme, hseparator, hcut]
  cases Text.cutAtText ([':', '/'] ++ ['/']) n <;> rfl

theorem cutScheme_eq (n : List Char) : ((cutScheme n).1 = [] ∧ (cutScheme n).2 = n) ∨
    n = (cutScheme n).1 ++ "://".toList ++ (cutScheme n).2 := by
  cases hcut : Text.cutAtText "://".toList n with
  | none =>
    left
    rw [cutScheme, hcut]
    exact ⟨rfl, rfl⟩
  | some cut =>
    right
    rw [cutScheme, hcut]
    exact Text.eq_of_cutAtText hcut

theorem cutScheme_suffix (n : List Char) : (cutScheme n).2 <:+ n := by
  rcases cutScheme_eq n with ⟨_, hrest⟩ | hscheme
  · rw [hrest]
  · exact ⟨_, hscheme.symm⟩

theorem length_cutScheme_le (n : List Char) : (cutScheme n).2.length ≤ n.length := (cutScheme_suffix n).length_le

theorem length_scheme_le (n : List Char) : (cutScheme n).1.length ≤ n.length := by
  rcases cutScheme_eq n with ⟨hscheme, _⟩ | hscheme
  · rw [hscheme]
    exact Nat.zero_le _
  · have hlength := congrArg List.length hscheme
    rw [List.length_append, List.length_append] at hlength
    omega

/-- A base that goes on after the text in one of the ends is kept as it is, or cut to a part of the text. -/
def Cuts (ends : List Char → Prop) (n : List Char) (f : List Char → List Char) : Prop :=
  (∀ y, ends y → f (n ++ y) = n ++ y) ∨ ∃ w : List Char, w.length ≤ n.length ∧ ∀ y, ends y → f (n ++ y) = w

theorem cuts_before (c : Char) (n : List Char) : Cuts (c ∉ ·) n (Text.before c) := by
  by_cases hc : c ∈ n
  · exact Or.inr ⟨Text.before c n, (Text.before_prefix c n).length_le, fun y _ => Text.before_append_of_mem hc y⟩
  · refine Or.inl fun y hy => ?_
    rw [Text.before_append_of_notMem hc, Text.before_of_notMem hy]

theorem Cuts.mono {f : List Char → List Char} {ends ends' : List Char → Prop} (hf : Cuts ends n f)
    (h : ∀ y, ends' y → ends y) : Cuts ends' n f :=
  hf.imp (fun hwhole y hy => hwhole y (h y hy)) fun ⟨w, hw, hcut⟩ => ⟨w, hw, fun y hy => hcut y (h y hy)⟩

theorem cuts_withoutFragment (n : List Char) : Cuts ('#' ∉ ·) n withoutFragment := cuts_before '#' n

theorem cuts_withoutQuery (n : List Char) : Cuts Solid n withoutQuery := by
  rcases (cuts_withoutFragment n).mono fun _ => Solid.fragment with hwhole | ⟨w, hw, hcut⟩
  · rcases (cuts_before '?' n).mono fun _ => Solid.query with hwhole' | ⟨w, hw, hcut⟩
    · refine Or.inl fun y hy => ?_
      rw [withoutQuery, hwhole y hy, hwhole' y hy]
    · refine Or.inr ⟨w, hw, fun y hy => ?_⟩
      rw [withoutQuery, hwhole y hy, hcut y hy]
  · refine Or.inr ⟨Text.before '?' w, (Text.before_prefix '?' w).length_le.trans hw, fun y hy => ?_⟩
    rw [withoutQuery, hcut y hy]

theorem length_withoutQuery_le (s : List Char) : (withoutQuery s).length ≤ s.length :=
  (Text.before_prefix '?' _).length_le.trans (Text.before_prefix '#' s).length_le

theorem directoryOf_append (h : '/' ∉ y) (path : List Char) : directoryOf (path ++ y) = directoryOf path := by
  have hy : ∀ c ∈ y.reverse, decide (c ≠ '/') = true := by
    intro c hc
    rw [decide_eq_true_eq]
    rintro rfl
    exact h (List.mem_reverse.mp hc)
  rw [directoryOf, directoryOf, List.reverse_append, List.dropWhile_append_of_pos hy]

/-- The directory of the rest of a text is no longer than the rest. -/
theorem length_take_append_directoryOf_le (k : Nat) (s : List Char) :
    (s.take k ++ directoryOf (s.drop k)).length ≤ s.length := by
  have hdirectory := (List.dropWhile_suffix (l := (s.drop k).reverse) (· ≠ '/')).length_le
  rw [List.length_reverse] at hdirectory
  calc (s.take k ++ directoryOf (s.drop k)).length
      = (s.take k).length + (directoryOf (s.drop k)).length := List.length_append
    _ ≤ (s.take k).length + (s.drop k).length := by
      rw [directoryOf, List.length_reverse]
      exact Nat.add_le_add_left hdirectory _
    _ = s.length := by rw [← List.length_append, List.take_append_drop]

/-- Where the authority of a base ends. -/
def authorityEnd (base : List Char) : Nat :=
  base.length - (cutScheme base).2.length + (Text.before '/' (cutScheme base).2).length

theorem authorityEnd_le (base : List Char) : authorityEnd base ≤ base.length := by
  have hrest := length_cutScheme_le base
  have hauthority := (Text.before_prefix '/' (cutScheme base).2).length_le
  rw [authorityEnd]
  omega

theorem authorityEnd_append (h : '/' ∉ y) (hn : '/' ∈ (cutScheme n).2) : authorityEnd (n ++ y) = authorityEnd n := by
  rw [authorityEnd, cutScheme_append h, Text.before_append_of_mem hn, List.length_append, List.length_append,
    Nat.add_sub_add_right, authorityEnd]

theorem authorityEnd_of_notMem {base : List Char} (h : '/' ∉ (cutScheme base).2) : authorityEnd base = base.length := by
  rw [authorityEnd, Text.before_of_notMem h]
  exact Nat.sub_add_cancel (length_cutScheme_le base)

/-- The path after the authority starts with a slash. -/
theorem mem_drop_authorityEnd (h : '/' ∈ (cutScheme n).2) : '/' ∈ n.drop (authorityEnd n) := by
  obtain ⟨path, hpath⟩ := Text.exists_of_mem h
  have hrest : n.drop (n.length - (cutScheme n).2.length) = (cutScheme n).2 :=
    (List.suffix_iff_eq_drop.mp (cutScheme_suffix n)).symm
  have hdrop : n.drop (authorityEnd n) = '/' :: path := by
    rw [authorityEnd, ← List.drop_drop, hrest]
    nth_rewrite 2 [hpath]
    exact List.drop_left
  rw [hdrop]
  exact List.mem_cons_self

theorem resolveRelative_eq (base reference : List Char) : resolveRelative base reference =
    if '/' ∈ (withoutQuery base).drop (authorityEnd base) then
      (withoutQuery base).take (authorityEnd base) ++ directoryOf ((withoutQuery base).drop (authorityEnd base)) ++
        reference
    else withoutQuery base ++ '/' :: reference :=
  if_congr List.contains_iff_mem rfl rfl

/-- A relative reference takes the place of the last part of the path, or follows what is left of the base. -/
theorem resolveRelative_append (n reference : List Char) : ∃ f, Cuts Solid n f ∧
    ((∀ y, Solid y → resolveRelative (n ++ y) reference = f (n ++ y) ++ reference) ∨
      ∀ y, Solid y → resolveRelative (n ++ y) reference = f (n ++ y) ++ '/' :: reference) := by
  by_cases hslash : '/' ∈ (cutScheme n).2
  · -- the directory of the base lies before its end
    have hdirectory : ∀ w : List Char, w.length ≤ n.length →
        Cuts Solid n fun _ => w.take (authorityEnd n) ++ directoryOf (w.drop (authorityEnd n)) := fun w hw =>
      Or.inr ⟨_, (length_take_append_directoryOf_le (authorityEnd n) w).trans hw, fun _ _ => rfl⟩
    rcases cuts_withoutQuery n with hwhole | ⟨w, hw, hcut⟩
    · refine ⟨_, hdirectory n le_rfl, Or.inl fun y hy => ?_⟩
      have hmem : '/' ∈ (n ++ y).drop (authorityEnd n) := by
        rw [List.drop_append_of_le_length (authorityEnd_le n)]
        exact List.mem_append_left y (mem_drop_authorityEnd hslash)
      rw [resolveRelative_eq, authorityEnd_append hy.slash hslash, hwhole y hy, if_pos hmem,
        List.drop_append_of_le_length (authorityEnd_le n), List.take_append_of_le_length (authorityEnd_le n),
        directoryOf_append hy.slash]
    · by_cases hpath : '/' ∈ w.drop (authorityEnd n)
      · refine ⟨_, hdirectory w hw, Or.inl fun y hy => ?_⟩
        rw [resolveRelative_eq, authorityEnd_append hy.slash hslash, hcut y hy, if_pos hpath]
      · refine ⟨withoutQuery, Or.inr ⟨w, hw, hcut⟩, Or.inr fun y hy => ?_⟩
        rw [resolveRelative_eq, authorityEnd_append hy.slash hslash, hcut y hy, if_neg hpath]
  · -- all of the base after its scheme is authority
    refine ⟨withoutQuery, cuts_withoutQuery n, Or.inr fun y hy => ?_⟩
    have hend : authorityEnd (n ++ y) = (n ++ y).length := by
      refine authorityEnd_of_notMem ?_
      rw [cutScheme_append hy.slash]
      exact List.not_mem_append hslash hy.slash
    rw [resolveRelative_eq, hend, List.drop_eq_nil_of_le (length_withoutQuery_le _), if_neg List.not_mem_nil]

/-- What is left of the base, with the pattern at its end replaced. -/
theorem Cuts.replaceAll {f : List Char → List Char} {ends : List Char → Prop} (hf : Cuts ends n f) (hp : ends p)
    (hx : ends x) (hne : p ≠ []) (h : ¬ p <:+: t) :
    Text.replaceAll (n ++ p) (n ++ x) (f (n ++ p) ++ t) = f (n ++ x) ++ t := by
  rcases hf with hwhole | ⟨w, hw, hcut⟩
  · rw [hwhole p hp, hwhole x hx]
    exact Text.replaceAll_extended hne h (n ++ x)
  · rw [hcut p hp, hcut x hx]
    exact Text.replaceAll_eq_self (Text.not_infix_append h hw) (n ++ x)

/-- References to the base itself and to its fragments ask less of the ends. -/
theorem replaceAll_resolve_nil (hp : '#' ∉ p) (hx : '#' ∉ x) (hne : p ≠ []) (n : List Char) :
    Text.replaceAll (n ++ p) (n ++ x) (resolveChars (n ++ p) []) = resolveChars (n ++ x) [] := by
  have hcut := (cuts_withoutFragment n).replaceAll (t := []) hp hx hne (by rwa [List.infix_nil])
  rwa [List.append_nil, List.append_nil] at hcut

theorem replaceAll_resolve_fragment (hp : '#' ∉ p) (hx : '#' ∉ x) (hne : p ≠ []) (h : ¬ p <:+: t) (n : List Char) :
    Text.replaceAll (n ++ p) (n ++ x) (resolveChars (n ++ p) ('#' :: t)) = resolveChars (n ++ x) ('#' :: t) := by
  rw [resolveChars_fragment, resolveChars_fragment]
  exact (cuts_withoutFragment n).replaceAll hp hx hne (Text.not_infix_cons hp hne h)

theorem replaceAll_resolveRelative {reference : List Char} (hp : Solid p) (hx : Solid x) (hne : p ≠ [])
    (h : ¬ p <:+: reference) (n : List Char) :
    Text.replaceAll (n ++ p) (n ++ x) (resolveRelative (n ++ p) reference) = resolveRelative (n ++ x) reference := by
  obtain ⟨f, hf, hresolve | hresolve⟩ := resolveRelative_append n reference
  · rw [hresolve p hp, hresolve x hx]
    exact hf.replaceAll hp hx hne h
  · rw [hresolve p hp, hresolve x hx]
    exact hf.replaceAll hp hx hne (Text.not_infix_cons hp.slash hne h)

theorem replaceAll_resolve_network (hp : Solid p) (hx : Solid x) (hlong : 2 < p.length) (h : ¬ p <:+: t)
    (n : List Char) : Text.replaceAll (n ++ p) (n ++ x) (resolveChars (n ++ p) ('/' :: '/' :: t)) =
      resolveChars (n ++ x) ('/' :: '/' :: t) := by
  have hnetwork : ∀ y, Solid y →
      resolveChars (n ++ y) ('/' :: '/' :: t) = ((cutScheme n).1 ++ [':', '/']) ++ '/' :: t := by
    intro y hy
    rw [resolveChars_network, cutScheme_append hy.slash, List.append_assoc, List.append_assoc]
    rfl
  rw [hnetwork p hp, hnetwork x hx]
  refine Text.replaceAll_eq_self (Text.not_infix_append_cons hp.slash h ?_) (n ++ x)
  rw [List.length_append]
  exact Nat.add_lt_add_of_le_of_lt (length_scheme_le n) hlong

/-- The slash that ends the authority makes up for a separator that the base need not have. -/
theorem length_authority_lt (h : '/' ∈ (cutScheme n).2) :
    ((cutScheme n).1 ++ "://".toList ++ Text.before '/' (cutScheme n).2).length < n.length + 3 := by
  have hseparator : "://".toList.length = 3 := rfl
  have hauthority : (Text.before '/' (cutScheme n).2).length < (cutScheme n).2.length := by
    obtain ⟨path, hpath⟩ := Text.exists_of_mem h
    have hlength := congrArg List.length hpath
    rw [List.length_append, List.length_cons] at hlength
    omega
  rw [List.length_append, List.length_append, hseparator]
  rcases cutScheme_eq n with ⟨hscheme, hrest⟩ | hscheme
  · rw [hrest] at hauthority ⊢
    rw [hscheme, List.length_nil]
    omega
  · have hlength := congrArg List.length hscheme
    rw [List.length_append, List.length_append, hseparator] at hlength
    omega

/-- The authority of a base goes to the end of the base, or it ends before. -/
theorem replaceAll_resolve_absolute (hp : Solid p) (hx : Solid x) (hlong : 2 < p.length) (h : ¬ p <:+: t)
    (hhead : t.head? ≠ some '/') (n : List Char) :
    Text.replaceAll (n ++ p) (n ++ x) (resolveChars (n ++ p) ('/' :: t)) = resolveChars (n ++ x) ('/' :: t) := by
  have hne : p ≠ [] := List.ne_nil_of_length_pos (by omega)
  have habsolute : ∀ y, Solid y → resolveChars (n ++ y) ('/' :: t) =
      (cutScheme n).1 ++ "://".toList ++ Text.before '/' ((cutScheme n).2 ++ y) ++ '/' :: t := by
    intro y hy
    rw [resolveChars_absolute hhead, cutScheme_append hy.slash]
  rw [habsolute p hp, habsolute x hx]
  by_cases hslash : '/' ∈ (cutScheme n).2
  · rw [Text.before_append_of_mem hslash, Text.before_append_of_mem hslash]
    refine Text.replaceAll_eq_self (Text.not_infix_append_cons hp.slash h ?_) (n ++ x)
    exact (length_authority_lt hslash).trans_le (Nat.add_le_add_left hlong n.length)
  · have hend : ∀ y, Solid y → Text.before '/' ((cutScheme n).2 ++ y) = (cutScheme n).2 ++ y := fun y hy =>
      Text.before_of_notMem (List.not_mem_append hslash hy.slash)
    rw [hend p hp, hend x hx]
    rcases cutScheme_eq n with ⟨hscheme, hrest⟩ | hscheme
    · -- without a scheme the base follows the separator, which no occurrence reaches into
      rw [hrest] at hslash
      rw [hscheme, hrest]
      have hreplace := Text.replaceAll_append_cons (a := [':', '/']) (List.not_mem_append hslash hp.slash)
        (hlong.trans_le (List.sublist_append_right n p).length_le) (n ++ x) (n ++ p ++ '/' :: t)
      rw [Text.replaceAll_extended hne (Text.not_infix_cons hp.slash hne h)] at hreplace
      exact hreplace
    · rw [← List.append_assoc, ← List.append_assoc, ← hscheme]
      exact Text.replaceAll_extended hne (Text.not_infix_cons hp.slash hne h) (n ++ x)

/-- Replacing the end of the base after a reference is resolved is as good as replacing it before. -/
theorem replaceAll_resolveChars {reference : List Char} (hp : Solid p) (hx : Solid x) (hlong : 2 < p.length)
    (h : ¬ p <:+: reference) (n : List Char) :
    Text.replaceAll (n ++ p) (n ++ x) (resolveChars (n ++ p) reference) = resolveChars (n ++ x) reference := by
  have hne : p ≠ [] := List.ne_nil_of_length_pos (by omega)
  cases reference with
  | nil => exact replaceAll_resolve_nil hp.fragment hx.fragment hne n
  | cons c t =>
    have ht : ¬ p <:+: t := fun ht => h (ht.trans (List.suffix_cons c t).isInfix)
    by_cases hscheme : hasScheme (c :: t) = true
    · rw [resolveChars_of_hasScheme hscheme, resolveChars_of_hasScheme hscheme]
      exact Text.replaceAll_eq_self (Text.not_infix_extended h) (n ++ x)
    by_cases hslash : c = '/'
    · subst hslash
      by_cases hhead : t.head? = some '/'
      · obtain ⟨network, rfl⟩ := List.head?_eq_some_iff.mp hhead
        have hnetwork : ¬ p <:+: network := fun hn => ht (hn.trans (List.suffix_cons '/' network).isInfix)
        exact replaceAll_resolve_network hp hx hlong hnetwork n
      · exact replaceAll_resolve_absolute hp hx hlong ht hhead n
    by_cases hfragment : c = '#'
    · subst hfragment
      exact replaceAll_resolve_fragment hp.fragment hx.fragment hne ht n
    by_cases hquery : c = '?'
    · subst hquery
      rw [resolveChars_query, resolveChars_query]
      exact (cuts_withoutQuery n).replaceAll hp hx hne h
    have hrelative : c ∉ ['/', '#', '?'] := by simp [hslash, hfragment, hquery]
    rw [resolveChars_relative (Bool.eq_false_iff.mpr hscheme) hrelative,
      resolveChars_relative (Bool.eq_false_iff.mpr hscheme) hrelative]
    exact replaceAll_resolveRelative hp hx hne h n

end Ends

end SchemaTables.Address
