import SchemaTables.Proofs.Text.Pieces

/-!
Replacing the occurrences of a pattern, which puts the new text between the pieces. Where the pattern does not occur
the text stays as it is; an occurrence at the front is replaced before the rest is looked at, and none can reach over a
character that the pattern does not have.
-/

namespace SchemaTables.Text

set_option autoImplicit false

open scoped List

variable {pattern new s a b : List Char} {c : Char}

theorem replaceFrom_eq_intercalate (pattern new : List Char) (skip : Nat) (s : List Char) :
    replaceFrom pattern new skip s = new.intercalate (piecesFrom pattern skip s) := by
  induction s generalizing skip with
  | nil => cases skip <;> rfl
  | cons d s ih =>
    cases skip with
    | succ skip => exact ih skip
    | zero =>
      unfold replaceFrom piecesFrom
      rw [ih, ih]
      split
      · obtain ⟨first, rest, hpieces⟩ := List.exists_cons_of_ne_nil (piecesFrom_ne_nil pattern (pattern.length - 1) s)
        rw [hpieces, List.intercalate_cons_cons]
        rfl
      · obtain ⟨first, rest, hpieces⟩ := List.exists_cons_of_ne_nil (piecesFrom_ne_nil pattern 0 s)
        rw [hpieces]
        cases rest <;> rfl

/-- The new text goes between the pieces. -/
theorem replaceAll_eq_intercalate (pattern new s : List Char) :
    replaceAll pattern new s = new.intercalate (pieces pattern s) := replaceFrom_eq_intercalate pattern new 0 s

theorem replaceAll_append (h : pattern ≠ []) (new s : List Char) :
    replaceAll pattern new (pattern ++ s) = new ++ replaceAll pattern new s := by
  obtain ⟨first, rest, hpieces⟩ := List.exists_cons_of_ne_nil (piecesFrom_ne_nil pattern 0 s)
  rw [replaceAll_eq_intercalate, replaceAll_eq_intercalate, pieces_append h, pieces, hpieces,
    List.intercalate_cons_cons]
  rfl

theorem replaceAll_cons (h : ¬ pattern <+: c :: s) (new : List Char) :
    replaceAll pattern new (c :: s) = c :: replaceAll pattern new s := by
  obtain ⟨first, rest, hpieces⟩ := List.exists_cons_of_ne_nil (piecesFrom_ne_nil pattern 0 s)
  rw [replaceAll_eq_intercalate, replaceAll_eq_intercalate, pieces_cons h hpieces, pieces, hpieces]
  cases rest <;> rfl

theorem replaceAll_eq_self (h : ¬ pattern <:+: s) (new : List Char) : replaceAll pattern new s = s := by
  rw [replaceAll_eq_intercalate, pieces_of_not_infix h, List.intercalate_singleton]

theorem replaceFrom_singleton (c : Char) (new s : List Char) :
    replaceFrom [c] new 0 s = s.flatMap fun d => if d = c then new else [d] := by
  induction s with
  | nil => rfl
  | cons d s ih =>
    rw [replaceFrom, List.flatMap_cons, List.isPrefixOf, List.isPrefixOf, Bool.and_true]
    by_cases h : d = c
    · rw [if_pos (beq_iff_eq.mpr h.symm), if_pos h]
      exact congrArg _ ih
    · rw [if_neg (by simpa using Ne.symm h), if_neg h, ih]
      rfl

theorem mem_of_prefix_append_cons (h : pattern <+: a ++ c :: s) (hlong : a.length < pattern.length) : c ∈ pattern := by
  have hprefix : a ++ [c] <+: pattern := by
    refine List.prefix_of_prefix_length_le ?_ h (by rw [List.length_append]; exact hlong)
    exact ⟨s, by rw [List.append_assoc, List.singleton_append]⟩
  exact hprefix.subset (List.mem_append_right a (List.mem_singleton.mpr rfl))

/-- What stands before a character that the pattern does not have is too short for an occurrence. -/
theorem replaceAll_append_cons (hc : c ∉ pattern) (hlong : a.length < pattern.length) (new s : List Char) :
    replaceAll pattern new (a ++ c :: s) = a ++ c :: replaceAll pattern new s := by
  induction a with
  | nil => exact replaceAll_cons (fun h => hc (mem_of_prefix_append_cons (a := []) h hlong)) new
  | cons d a ih =>
    have hcons : ¬ pattern <+: d :: (a ++ c :: s) := fun h => hc (mem_of_prefix_append_cons (a := d :: a) h hlong)
    rw [List.cons_append, replaceAll_cons hcons, ih (Nat.lt_of_succ_lt hlong), List.cons_append]

section Extended
variable {n p t w : List Char}

/-- A text that has more than the pattern does not occur where the pattern does not. -/
theorem not_infix_extended (h : ¬ p <:+: t) : ¬ n ++ p <:+: t := fun hn => h ((List.suffix_append n p).isInfix.trans hn)

/-- What starts with the extension of a pattern and has no more of the pattern. -/
theorem replaceAll_extended (hp : p ≠ []) (h : ¬ p <:+: t) (new : List Char) :
    replaceAll (n ++ p) new (n ++ p ++ t) = new ++ t := by
  rw [replaceAll_append (by simp [hp]), replaceAll_eq_self (not_infix_extended h)]

/-- An extended pattern does not end in what is no longer than the extension. -/
theorem not_infix_append (h : ¬ p <:+: t) (hw : w.length ≤ n.length) : ¬ n ++ p <:+: w ++ t := by
  rintro ⟨u, v, heq⟩
  rw [← List.append_assoc, List.append_assoc] at heq
  rcases List.append_eq_append_iff.mp heq with ⟨d, hd, heq⟩ | ⟨d, hd, heq⟩
  · have hlength := congrArg List.length hd
    have hempty : d = [] := List.eq_nil_of_length_eq_zero (by simp at hlength; omega)
    subst hempty
    exact h ⟨[], v, heq⟩
  · exact h ⟨d, v, by rw [heq, List.append_assoc]⟩

/-- An extended pattern does not reach over a character that the pattern does not have. -/
theorem not_infix_append_cons (hc : c ∉ p) (h : ¬ p <:+: t) (hw : w.length < n.length + p.length) :
    ¬ n ++ p <:+: w ++ c :: t := by
  rintro ⟨u, v, heq⟩
  rw [← List.append_assoc, List.append_assoc] at heq
  rcases List.append_eq_append_iff.mp heq with ⟨d, hd, heq⟩ | ⟨d, hd, heq⟩
  · have hlength := congrArg List.length hd
    refine hc (mem_of_prefix_append_cons (a := d) (s := t) ⟨v, heq⟩ ?_)
    simp at hlength
    omega
  · cases d with
    | nil =>
      have hp : 0 < p.length := List.length_pos_of_ne_nil fun hp => h (hp ▸ List.nil_infix)
      exact hc (mem_of_prefix_append_cons (a := []) (s := t) ⟨v, heq.symm⟩ hp)
    | cons d rest =>
      have ht : t = rest ++ (p ++ v) := (List.cons.inj heq).2
      exact h ⟨rest, v, by rw [ht, List.append_assoc]⟩

/-- A character that the pattern does not have starts no occurrence. -/
theorem not_infix_cons (hc : c ∉ p) (hp : p ≠ []) (h : ¬ p <:+: t) : ¬ p <:+: c :: t :=
  not_infix_append_cons (n := []) (w := []) hc h (Nat.add_pos_right _ (List.length_pos_of_ne_nil hp))

end Extended

end SchemaTables.Text
