import SchemaTables.Proofs.Path.Inside

/-!
Lexical normal forms. A normal form is some parent steps and then names: there are as many parent steps as the path
goes up beyond where it starts. Written as a path again, it has its parts for components, and normalising it once more
changes nothing.
-/

namespace SchemaTables.Path

set_option autoImplicit false

open scoped List

variable {p : Path} {parts names : List String}

/-- Parent steps, and names after them. -/
def Normal (parts : List String) : Prop :=
  ∃ n names, parts = List.replicate n ".." ++ names ∧ ∀ t ∈ names, (Component.name t).Plain

/-- What a part of a normal form stands for in a path. -/
def ofPart (t : String) : Component := if t = ".." then .parent else .name t

theorem text_ofPart (t : String) : (ofPart t).text = t := by
  unfold ofPart
  split
  · rename_i h
    exact h.symm
  · rfl

theorem ofPart_of_plain {t : String} (h : (Component.name t).Plain) : ofPart t = .name t := if_neg h.2.2.1

theorem Normal.plain_ofPart (h : Normal parts) {t : String} (ht : t ∈ parts) : (ofPart t).Plain := by
  obtain ⟨n, names, rfl, hnames⟩ := h
  rcases List.mem_append.mp ht with ht | ht
  · rw [List.eq_of_mem_replicate ht]
    trivial
  · rw [ofPart_of_plain (hnames t ht)]
    exact hnames t ht

theorem normal_normalParts (p : Path) : Normal p.normalParts := by
  obtain ⟨n, names, hparts, hnames, _⟩ := exists_normalParts p
  exact ⟨n, names, hparts, hnames⟩

theorem foldl_names (hnames : ∀ t ∈ names, (Component.name t).Plain) (parts : List String) :
    (names.map ofPart).foldl normalStep parts = names.reverse ++ parts := by
  induction names generalizing parts with
  | nil => rfl
  | cons t names ih =>
    obtain ⟨ht, hrest⟩ := List.forall_mem_cons.mp hnames
    rw [List.map_cons, List.foldl_cons, ofPart_of_plain ht, normalStep, ih hrest, List.reverse_cons, List.append_assoc]
    rfl

theorem foldl_parents (n : Nat) :
    (List.replicate n Component.parent).foldl normalStep [] = List.replicate n ".." := by
  induction n with
  | zero => rfl
  | succ n ih =>
    rw [List.replicate_succ', List.foldl_append, ih]
    cases n <;> rfl

/-- A normal form is normalised to itself. -/
theorem Normal.foldl_normalStep (h : Normal parts) : (parts.map ofPart).foldl normalStep [] = parts.reverse := by
  obtain ⟨n, names, rfl, hnames⟩ := h
  have hparents : (List.replicate n "..").map ofPart = List.replicate n Component.parent := List.map_replicate
  rw [List.map_append, List.foldl_append, hparents, foldl_parents, foldl_names hnames, List.reverse_append,
    List.reverse_replicate]

/-- The path that is written with parent steps and names has them for its components. -/
theorem components_joinWith (h : ∀ t ∈ parts, (ofPart t).Plain) :
    (⟨Text.joinWith "/" parts⟩ : Path).components = parts.map ofPart := by
  have hplain : ∀ c ∈ parts.map ofPart, c.Plain := by
    intro c hc
    obtain ⟨t, ht, rfl⟩ := List.mem_map.mp hc
    exact h t ht
  have htexts : (parts.map ofPart).map Component.text = parts := by
    rw [List.map_map]
    exact (List.map_congr_left fun t _ => text_ofPart t).trans (List.map_id' parts)
  have hroot : (parts.map ofPart).head? ≠ some .root := fun h => hplain .root (List.mem_of_head? h)
  have hwritten := ofComponents_eq hroot
  rw [htexts] at hwritten
  rw [← hwritten]
  apply components_ofComponents
  cases parts with
  | nil => trivial
  | cons first rest =>
    obtain ⟨hfirst, hrest⟩ := List.forall_mem_cons.mp hplain
    exact ⟨Or.inr (Or.inr hfirst), hrest⟩

theorem isAbsolute_joinWith (h : ∀ t ∈ parts, (ofPart t).Plain) :
    (⟨Text.joinWith "/" parts⟩ : Path).isAbsolute = false := by
  rw [Bool.eq_false_iff, ne_eq, isAbsolute_iff, components_joinWith h]
  intro hroot
  obtain ⟨t, ht, heq⟩ := List.mem_map.mp (List.mem_of_head? hroot)
  have hplain := h t ht
  rw [heq] at hplain
  exact hplain

/-- A normal form, written as a path, is its own normal form. -/
theorem normalParts_joinWith (h : Normal parts) : (⟨Text.joinWith "/" parts⟩ : Path).normalParts = parts := by
  rw [normalParts, components_joinWith fun t => h.plain_ofPart, h.foldl_normalStep, List.reverse_reverse]

/-- A path escapes when it is absolute, or when on its way it has gone up more often than down. -/
theorem escapesRoot_iff : p.escapesRoot = true ↔ p.isAbsolute = true ∨
    ∃ cs, cs <+: p.components ∧ cs.countP Component.isName < cs.count .parent := by
  have hinside : p.escapesRoot = true ↔ ¬ p.Inside := by rw [← escapesRoot_eq_false_iff, Bool.not_eq_false]
  rw [hinside, inside_iff, not_and_or, Bool.not_eq_false]
  apply or_congr_right
  simp only [Stays, Nat.zero_add]
  push Not
  rfl

/-- The normal form of a path is as many parent steps as the path goes up, and names after them; it is its own normal
form, and shows whether the path leaves the directory that it is relative to. -/
theorem normalParts_climbs (p : Path) :
    (∃ n names, p.normalParts = List.replicate n ".." ++ names ∧ (∀ t ∈ names, (Component.name t).Plain) ∧
      ∀ depth, Stays depth p.components ↔ n ≤ depth) ∧
    (⟨Text.joinWith "/" p.normalParts⟩ : Path).normalParts = p.normalParts ∧
    (p.escapesRoot = true ↔ p.isAbsolute = true ∨
      ∃ cs, cs <+: p.components ∧ cs.countP Component.isName < cs.count .parent) :=
  ⟨exists_normalParts p, normalParts_joinWith (normal_normalParts p), escapesRoot_iff⟩

-- one step more up than down
example : (⟨"a/../../b/./c//"⟩ : Path).normalParts = ["..", "b", "c"] := by decide

end SchemaTables.Path
