import Mathlib.Data.List.Sort
import SchemaTables.Ordered

/-!
Laws of ordered sets and maps. What a set holds is told by `contains`, which does not see in which
spelling an element is kept; what a map holds is told by `get?`. Neither needs the list to be in order.
Order matters only where a map must not hold one key twice.
-/

namespace SchemaTables.Ordered

open Std

set_option autoImplicit false

variable {α κ β : Type}

/-- The elements stand in strictly increasing order. -/
def Increasing (cmp : α → α → Ordering) (s : List α) : Prop := s.Pairwise fun a b => cmp a b = .lt

theorem Increasing.nodup {cmp : α → α → Ordering} [ReflCmp cmp] {s : List α} (h : Increasing cmp s) :
    s.Nodup := by
  apply h.imp
  intro a b hlt heq
  subst heq
  simp [ReflCmp.compare_self] at hlt

/-- A list in increasing order of a key is told by its elements. -/
theorem eq_of_mem_iff {cmp : κ → κ → Ordering} [TransCmp cmp] {key : α → κ} {s t : List α}
    (hs : Increasing cmp (s.map key)) (ht : Increasing cmp (t.map key)) (h : ∀ a, a ∈ s ↔ a ∈ t) : s = t := by
  have : Std.Irrefl fun a b => cmp (key a) (key b) = .lt := ⟨fun a => by simp [ReflCmp.compare_self]⟩
  have : Std.Antisymm fun a b => cmp (key a) (key b) = .lt :=
    ⟨fun a b hab hba => absurd hba (OrientedCmp.not_lt_of_lt hab)⟩
  exact List.Pairwise.eq_of_mem_iff (List.pairwise_map.mp hs) (List.pairwise_map.mp ht) h

section Sets
variable {cmp : α → α → Ordering}

theorem contains_iff {s : List α} {a : α} : contains cmp s a = true ↔ ∃ b ∈ s, cmp a b = .eq := by
  simp [contains, List.any_eq_true]

@[simp] theorem contains_nil (a : α) : contains cmp [] a = false := rfl

theorem contains_of_mem [ReflCmp cmp] {s : List α} {a : α} (h : a ∈ s) : contains cmp s a = true :=
  contains_iff.mpr ⟨a, h, ReflCmp.compare_self⟩

theorem contains_congr [TransCmp cmp] {s : List α} {a b : α} (h : cmp a b = .eq) :
    contains cmp s a = contains cmp s b := by
  unfold contains
  congr 1
  funext c
  rw [TransCmp.congr_left h]

theorem contains_insert_iff [TransCmp cmp] {s : List α} {a b : α} :
    contains cmp (insert cmp a s) b = true ↔ cmp b a = .eq ∨ contains cmp s b = true := by
  induction s with
  | nil => simp [insert, contains]
  | cons c s ih =>
    simp only [insert]
    split
    · simp [contains]
    · rename_i hac
      simp only [contains, List.any_cons, Bool.or_eq_true, beq_iff_eq]
      constructor
      · exact Or.inr
      · rintro (hba | h)
        · exact Or.inl (TransCmp.eq_trans hba hac)
        · exact h
    · simp only [contains, List.any_cons, Bool.or_eq_true, beq_iff_eq] at ih ⊢
      rw [ih]
      exact or_left_comm

theorem contains_union_iff [TransCmp cmp] {s t : List α} {a : α} :
    contains cmp (union cmp s t) a = true ↔ contains cmp s a = true ∨ contains cmp t a = true := by
  unfold union
  induction t generalizing s with
  | nil => simp
  | cons b t ih =>
    rw [List.foldl_cons, ih, contains_insert_iff]
    simp only [contains, List.any_cons, Bool.or_eq_true, beq_iff_eq]
    constructor
    · rintro ((h | h) | h)
      · exact Or.inr (Or.inl h)
      · exact Or.inl h
      · exact Or.inr (Or.inr h)
    · rintro (h | h | h)
      · exact Or.inl (Or.inr h)
      · exact Or.inl (Or.inl h)
      · exact Or.inr h

theorem contains_ofList_iff [TransCmp cmp] {l : List α} {a : α} :
    contains cmp (ofList cmp l) a = true ↔ ∃ b ∈ l, cmp a b = .eq := by
  rw [ofList, contains_union_iff, ← contains_iff]
  simp

theorem mem_ofList_iff [TransCmp cmp] [LawfulEqCmp cmp] {l : List α} {a : α} :
    a ∈ ofList cmp l ↔ a ∈ l := by
  have h : contains cmp (ofList cmp l) a = true ↔ ∃ b ∈ l, cmp a b = .eq := contains_ofList_iff
  simpa [contains_iff] using h

theorem mem_of_mem_insert {s : List α} {a b : α} (h : b ∈ insert cmp a s) : b = a ∨ b ∈ s := by
  induction s with
  | nil => exact Or.inl (List.mem_singleton.mp h)
  | cons c s ih =>
    simp only [insert] at h
    split at h
    · exact List.mem_cons.mp h
    · exact Or.inr h
    · rcases List.mem_cons.mp h with rfl | h
      · exact Or.inr List.mem_cons_self
      · exact (ih h).imp_right (List.mem_cons_of_mem c)

theorem mem_of_mem_ofList {l : List α} {a : α} (h : a ∈ ofList cmp l) : a ∈ l := by
  have hfold : ∀ s, a ∈ union cmp s l → a ∈ s ∨ a ∈ l := by
    clear h
    unfold union
    induction l with
    | nil => exact fun s h => Or.inl h
    | cons b l ih =>
      intro s h
      rcases ih _ h with h | h
      · rcases mem_of_mem_insert h with rfl | h
        · exact Or.inr List.mem_cons_self
        · exact Or.inl h
      · exact Or.inr (List.mem_cons_of_mem b h)
  exact (hfold [] h).resolve_left List.not_mem_nil

theorem increasing_insert [TransCmp cmp] {s : List α} (a : α) (hs : Increasing cmp s) :
    Increasing cmp (insert cmp a s) := by
  induction s with
  | nil => exact List.pairwise_singleton _ _
  | cons b s ih =>
    obtain ⟨hb, htail⟩ := List.pairwise_cons.mp hs
    simp only [insert]
    split
    · rename_i hab
      refine List.pairwise_cons.mpr ⟨?_, hs⟩
      intro c hc
      rcases List.mem_cons.mp hc with rfl | hc
      · exact hab
      · exact TransCmp.lt_trans hab (hb c hc)
    · exact hs
    · rename_i hab
      refine List.pairwise_cons.mpr ⟨?_, ih htail⟩
      intro c hc
      rcases mem_of_mem_insert hc with rfl | hc
      · exact OrientedCmp.lt_of_gt hab
      · exact hb c hc

theorem increasing_ofList [TransCmp cmp] (l : List α) : Increasing cmp (ofList cmp l) := by
  have hfold : ∀ s, Increasing cmp s → Increasing cmp (union cmp s l) := by
    unfold union
    induction l with
    | nil =>
      intro s hs
      exact hs
    | cons a l ih =>
      intro s hs
      exact ih _ (increasing_insert a hs)
  exact hfold [] List.Pairwise.nil

/-- Sets of lists with the same elements are the same. -/
theorem ofList_eq_ofList_iff [TransCmp cmp] [LawfulEqCmp cmp] {l l' : List α} :
    ofList cmp l = ofList cmp l' ↔ ∀ a, a ∈ l ↔ a ∈ l' := by
  constructor
  · intro h a
    have hmem : a ∈ ofList cmp l ↔ a ∈ ofList cmp l' := by rw [h]
    rwa [mem_ofList_iff, mem_ofList_iff] at hmem
  · intro h
    have hsets : ∀ l : List α, Increasing cmp ((ofList cmp l).map id) := by
      intro l
      rw [List.map_id]
      exact increasing_ofList l
    apply eq_of_mem_iff (hsets l) (hsets l')
    intro a
    rw [mem_ofList_iff, mem_ofList_iff, h a]

end Sets

section Maps
variable {cmp : κ → κ → Ordering} {m : List (κ × β)} {k k' : κ} {v : β}

theorem get?_put [TransCmp cmp] :
    get? cmp (put cmp k v m) k' = if cmp k' k = .eq then some v else get? cmp m k' := by
  induction m with
  | nil => by_cases h : cmp k' k = .eq <;> simp [put, get?, h]
  | cons e m ih =>
    obtain ⟨l, w⟩ := e
    simp only [put]
    split
    · by_cases h : cmp k' k = .eq <;> simp [get?, List.find?_cons, h]
    · rename_i hkl
      rw [TransCmp.congr_right hkl]
      by_cases h : cmp k' l = .eq <;> simp [get?, h]
    · rename_i hkl
      by_cases h : cmp k' l = .eq
      · have hne : cmp k' k ≠ .eq := by
          intro hk
          rw [TransCmp.congr_left (OrientedCmp.eq_symm hk), h] at hkl
          cases hkl
        simp [get?, h, hne]
      · simp only [get?, List.find?_cons, beq_eq_false_iff_ne.mpr h] at ih ⊢
        exact ih

/-- The binding of a key, with the key in the spelling that is kept. -/
def pairAt? (cmp : κ → κ → Ordering) (m : List (κ × β)) (k : κ) : Option (κ × β) := m.find? (cmp k ·.1 == .eq)

theorem get?_eq_pairAt? (cmp : κ → κ → Ordering) (m : List (κ × β)) (k : κ) :
    get? cmp m k = (pairAt? cmp m k).map Prod.snd := rfl

theorem pairAt?_cons {l : κ} {w : β} :
    pairAt? cmp ((l, w) :: m) k = if cmp k l = .eq then some (l, w) else pairAt? cmp m k := by
  by_cases h : cmp k l = .eq <;> simp [pairAt?, h]

theorem pairAt?_of_lt (h : ∀ l ∈ m.map Prod.fst, cmp k l = .lt) : pairAt? cmp m k = none := by
  apply List.find?_eq_none.mpr
  intro e he
  simp [h e.1 (List.mem_map.mpr ⟨e, he, rfl⟩)]

/-- A key that is bound again keeps its spelling. -/
theorem pairAt?_put [TransCmp cmp] (hm : Increasing cmp (m.map Prod.fst)) :
    pairAt? cmp (put cmp k v m) k' =
      if cmp k' k = .eq then some (((pairAt? cmp m k).map Prod.fst).getD k, v) else pairAt? cmp m k' := by
  induction m with
  | nil => simp only [put, pairAt?_cons]; rfl
  | cons e m ih =>
    obtain ⟨l, w⟩ := e
    obtain ⟨hl, htail⟩ := List.pairwise_cons.mp hm
    simp only [put]
    split
    · rename_i hkl
      have hnone : pairAt? cmp ((l, w) :: m) k = none := by
        apply pairAt?_of_lt
        intro b hb
        rcases List.mem_cons.mp hb with rfl | hb
        · exact hkl
        · exact TransCmp.lt_trans hkl (hl b hb)
      rw [pairAt?_cons, hnone]
      rfl
    · rename_i hkl
      rw [pairAt?_cons, pairAt?_cons, pairAt?_cons, if_pos hkl, TransCmp.congr_right hkl]
      split <;> rfl
    · rename_i hkl
      have hne : cmp k l ≠ .eq := by simp [hkl]
      rw [pairAt?_cons, pairAt?_cons, pairAt?_cons, if_neg hne, ih htail]
      by_cases hk' : cmp k' l = .eq
      · have hk : cmp k' k ≠ .eq := by
          intro hk
          exact hne ((TransCmp.congr_left hk).symm.trans hk')
        rw [if_pos hk', if_neg hk, if_pos hk']
      · rw [if_neg hk', if_neg hk']

theorem mem_iff_pairAt? [TransCmp cmp] (hm : Increasing cmp (m.map Prod.fst)) :
    (k, v) ∈ m ↔ pairAt? cmp m k = some (k, v) := by
  constructor
  · intro h
    induction m with
    | nil => cases h
    | cons e m ih =>
      obtain ⟨l, w⟩ := e
      obtain ⟨hl, htail⟩ := List.pairwise_cons.mp hm
      rw [pairAt?_cons]
      rcases List.mem_cons.mp h with heq | hmem
      · cases heq
        rw [if_pos ReflCmp.compare_self]
      · have hlt : cmp l k = .lt := hl k (List.mem_map.mpr ⟨(k, v), hmem, rfl⟩)
        have hne : cmp k l ≠ .eq := by simp [OrientedCmp.gt_of_lt hlt]
        rw [if_neg hne, ih htail hmem]
  · exact List.mem_of_find?_eq_some

/-- A map is told by the bindings of its keys and their spelling. -/
theorem eq_of_pairAt?_eq [TransCmp cmp] {m' : List (κ × β)} (hm : Increasing cmp (m.map Prod.fst))
    (hm' : Increasing cmp (m'.map Prod.fst)) (h : ∀ k, pairAt? cmp m k = pairAt? cmp m' k) : m = m' := by
  apply eq_of_mem_iff hm hm'
  rintro ⟨k, v⟩
  rw [mem_iff_pairAt? hm, mem_iff_pairAt? hm', h]

theorem lookup_eq_get? [BEq κ] [LawfulBEq κ] (cmp : κ → κ → Ordering) [LawfulEqCmp cmp]
    (m : List (κ × β)) (k : κ) : m.lookup k = get? cmp m k := by
  induction m with
  | nil => rfl
  | cons e m ih =>
    obtain ⟨l, w⟩ := e
    by_cases h : k = l
    · simp [get?, h]
    · have hne : cmp k l ≠ .eq := fun he => h (LawfulEqCmp.eq_of_compare he)
      simp only [get?, List.find?_cons, beq_eq_false_iff_ne.mpr hne] at ih ⊢
      rw [List.lookup_cons, beq_eq_false_iff_ne.mpr h]
      exact ih

theorem lookup_put [BEq κ] [LawfulBEq κ] [TransCmp cmp] [LawfulEqCmp cmp] [DecidableEq κ] :
    (put cmp k v m).lookup k' = if k' = k then some v else m.lookup k' := by
  rw [lookup_eq_get? cmp, lookup_eq_get? cmp, get?_put]
  simp only [LawfulEqCmp.compare_eq_iff_eq]

theorem lookup_eq_some_iff_mem [BEq κ] [LawfulBEq κ] [TransCmp cmp]
    (hm : Increasing cmp (m.map Prod.fst)) : m.lookup k = some v ↔ (k, v) ∈ m := by
  induction m with
  | nil => simp
  | cons e m ih =>
    obtain ⟨l, w⟩ := e
    obtain ⟨hl, htail⟩ := List.pairwise_cons.mp hm
    rw [List.lookup_cons]
    split
    · rename_i hkl
      obtain rfl := LawfulBEq.eq_of_beq hkl
      have hnot : (k, v) ∉ m := by
        intro hmem
        have hlt := hl k (List.mem_map.mpr ⟨(k, v), hmem, rfl⟩)
        simp [ReflCmp.compare_self] at hlt
      simp [hnot, eq_comm]
    · rename_i hkl
      have hne : k ≠ l := by simpa using hkl
      simp [ih htail, hne]

theorem eq_of_lookup_eq [BEq κ] [LawfulBEq κ] [TransCmp cmp] {m' : List (κ × β)}
    (hm : Increasing cmp (m.map Prod.fst)) (hm' : Increasing cmp (m'.map Prod.fst))
    (h : ∀ k, m.lookup k = m'.lookup k) : m = m' := by
  apply eq_of_mem_iff hm hm'
  rintro ⟨k, v⟩
  rw [← lookup_eq_some_iff_mem hm, ← lookup_eq_some_iff_mem hm', h]

/-- A new binding changes no key that is there. -/
theorem keys_put_of_mem [TransCmp cmp] [LawfulEqCmp cmp]
    (hm : Increasing cmp (m.map Prod.fst)) (hk : k ∈ m.map Prod.fst) :
    (put cmp k v m).map Prod.fst = m.map Prod.fst := by
  induction m with
  | nil => simp at hk
  | cons e m ih =>
    obtain ⟨l, w⟩ := e
    obtain ⟨hl, hm⟩ := List.pairwise_cons.mp hm
    simp only [put]
    split
    · rename_i hkl
      rcases List.mem_cons.mp hk with heq | htail
      · simp [heq, ReflCmp.compare_self] at hkl
      · exact absurd (hl k htail) (OrientedCmp.not_lt_of_lt hkl)
    · rfl
    · rename_i hkl
      rcases List.mem_cons.mp hk with heq | htail
      · simp [heq, ReflCmp.compare_self] at hkl
      · simp [ih hm htail]

theorem mem_keys_put {l : κ} (h : l ∈ (put cmp k v m).map Prod.fst) : l = k ∨ l ∈ m.map Prod.fst := by
  induction m with
  | nil => exact Or.inl (by simpa [put] using h)
  | cons e m ih =>
    obtain ⟨l', w⟩ := e
    simp only [put] at h
    split at h
    · exact List.mem_cons.mp h
    · exact Or.inr h
    · rcases List.mem_cons.mp h with heq | htail
      · exact Or.inr (List.mem_cons.mpr (Or.inl heq))
      · exact (ih htail).imp_right (List.mem_cons_of_mem l')

theorem increasing_put [TransCmp cmp] (hm : Increasing cmp (m.map Prod.fst)) :
    Increasing cmp ((put cmp k v m).map Prod.fst) := by
  induction m with
  | nil => exact List.pairwise_singleton _ _
  | cons e m ih =>
    obtain ⟨l, w⟩ := e
    obtain ⟨hl, htail⟩ := List.pairwise_cons.mp hm
    simp only [put]
    split
    · rename_i hkl
      apply List.pairwise_cons.mpr
      refine ⟨?_, hm⟩
      intro b hb
      rcases List.mem_cons.mp hb with heq | hb
      · exact heq ▸ hkl
      · exact TransCmp.lt_trans hkl (hl b hb)
    · exact hm
    · rename_i hkl
      apply List.pairwise_cons.mpr
      refine ⟨?_, ih htail⟩
      intro b hb
      rcases mem_keys_put hb with heq | hb
      · exact heq ▸ OrientedCmp.lt_of_gt hkl
      · exact hl b hb

theorem mem_put {e : κ × β} (h : e ∈ put cmp k v m) : e.2 = v ∨ ∃ e' ∈ m, e'.2 = e.2 := by
  induction m with
  | nil => exact Or.inl (by simpa [put] using congrArg Prod.snd (List.mem_singleton.mp h))
  | cons d m ih =>
    obtain ⟨l, w⟩ := d
    simp only [put] at h
    split at h
    · rcases List.mem_cons.mp h with rfl | htail
      · exact Or.inl rfl
      · exact Or.inr ⟨e, htail, rfl⟩
    · rcases List.mem_cons.mp h with rfl | htail
      · exact Or.inl rfl
      · exact Or.inr ⟨e, List.mem_cons_of_mem _ htail, rfl⟩
    · rcases List.mem_cons.mp h with rfl | htail
      · exact Or.inr ⟨_, List.mem_cons_self, rfl⟩
      · refine (ih htail).imp_right ?_
        rintro ⟨e', hmem, heq⟩
        exact ⟨e', List.mem_cons_of_mem _ hmem, heq⟩

/-- The values of a map that is made from a list are values of the list. -/
theorem mem_ofPairs {l : List (κ × β)} {e : κ × β} (h : e ∈ ofPairs cmp l) : ∃ e' ∈ l, e'.2 = e.2 := by
  have hfold : ∀ m, e ∈ l.foldl (fun m p => put cmp p.1 p.2 m) m →
      (∃ e' ∈ m, e'.2 = e.2) ∨ ∃ e' ∈ l, e'.2 = e.2 := by
    clear h
    induction l with
    | nil =>
      intro m h
      exact Or.inl ⟨e, h, rfl⟩
    | cons p l ih =>
      intro m h
      rcases ih _ h with ⟨d, hd, heq⟩ | ⟨d, hd, heq⟩
      · rcases mem_put hd with hv | ⟨d', hd', heq'⟩
        · exact Or.inr ⟨p, List.mem_cons_self, hv.symm.trans heq⟩
        · exact Or.inl ⟨d', hd', heq'.trans heq⟩
      · exact Or.inr ⟨d, List.mem_cons_of_mem p hd, heq⟩
  rcases hfold [] h with ⟨d, hd, _⟩ | hmem
  · cases hd
  · exact hmem

theorem put_of_lt (h : ∀ l ∈ m.map Prod.fst, cmp k l = .gt) : put cmp k v m = m ++ [(k, v)] := by
  induction m with
  | nil => rfl
  | cons e m ih =>
    rw [List.map_cons, List.forall_mem_cons] at h
    simp [put, h.1, ih h.2]

/-- A list with its keys in order is the map that is made from it. -/
theorem ofPairs_of_increasing [OrientedCmp cmp] {l : List (κ × β)}
    (h : Increasing cmp (l.map Prod.fst)) : ofPairs cmp l = l := by
  have hfold : ∀ m : List (κ × β), Increasing cmp ((m ++ l).map Prod.fst) →
      l.foldl (fun m p => put cmp p.1 p.2 m) m = m ++ l := by
    clear h
    induction l with
    | nil =>
      intro m _
      exact (List.append_nil m).symm
    | cons p l ih =>
      intro m hm
      have hlast : put cmp p.1 p.2 m = m ++ [p] := by
        apply put_of_lt
        intro k hk
        rw [List.map_append, List.map_cons] at hm
        exact OrientedCmp.gt_of_lt ((List.pairwise_append.mp hm).2.2 k hk p.1 List.mem_cons_self)
      rw [List.foldl_cons, hlast, ih (m ++ [p]) (by simpa using hm)]
      simp
  exact hfold [] h

end Maps

end SchemaTables.Ordered
