import Mathlib.Data.List.Nodup
import SchemaTables.Proofs.Except

/-!
Lists in another order: what is searched by a key that no two elements share, what at most one element
contributes to, and what is computed of each element, come out as before.
-/

set_option autoImplicit false

namespace List

variable {ε α β : Type} {l l' : List α}

/-- Where no two elements share a key, the search for a key finds the element that has it. -/
theorem find?_key_eq_some_iff {key : α → String} {k : String} {a : α} (hnodup : (l.map key).Nodup) :
    l.find? (key · == k) = some a ↔ a ∈ l ∧ key a = k := by
  constructor
  · intro h
    exact ⟨mem_of_find?_eq_some h, by simpa using find?_some h⟩
  · rintro ⟨ha, rfl⟩
    cases hfind : l.find? (key · == key a) with
    | none => simpa using find?_eq_none.mp hfind a ha
    | some b =>
      have hkey : key b = key a := by simpa using find?_some hfind
      rw [inj_on_of_nodup_map hnodup (mem_of_find?_eq_some hfind) ha hkey]

namespace Perm

theorem find?_key {key : α → String} (h : l.Perm l') (hnodup : (l.map key).Nodup) (k : String) :
    l.find? (key · == k) = l'.find? (key · == k) := by
  apply Option.ext
  intro a
  rw [find?_key_eq_some_iff hnodup, find?_key_eq_some_iff ((h.map key).nodup_iff.mp hnodup), h.mem_iff]

/-- At most one element has a part in the result. -/
theorem flatMap_eq {f : α → List β} (h : l.Perm l')
    (hone : ∀ a ∈ l, ∀ b ∈ l, f a ≠ [] → f b ≠ [] → a = b) : l.flatMap f = l'.flatMap f := by
  induction h with
  | nil => rfl
  | cons a _ ih =>
    have hrest := ih fun b hb c hc => hone b (mem_cons_of_mem a hb) c (mem_cons_of_mem a hc)
    rw [flatMap_cons, flatMap_cons, hrest]
  | swap a b l =>
    simp only [flatMap_cons]
    by_cases ha : f a = []
    · rw [ha, nil_append, nil_append]
    · by_cases hb : f b = []
      · rw [hb, nil_append, nil_append]
      · rw [hone a (mem_cons_of_mem b mem_cons_self) b mem_cons_self ha hb]
  | trans h _ ih ih' =>
    exact (ih hone).trans (ih' fun a ha b hb => hone a (h.mem_iff.mpr ha) b (h.mem_iff.mpr hb))

theorem forall₂_ok {f : α → Except ε β} {r r' : List β} (h : l.Perm l')
    (hr : Forall₂ (fun a b => f a = .ok b) l r) (hr' : Forall₂ (fun a b => f a = .ok b) l' r') :
    r.Perm r' := by
  have hresult : ∀ {l : List α} {r : List β}, Forall₂ (fun a b => f a = .ok b) l r →
      l.filterMap (fun a => (f a).toOption) = r := by
    intro l r hr
    rw [hr.filterMap_eq_filterMap (g := some), filterMap_some]
    intro a b hab
    rw [hab]
    rfl
  rw [← hresult hr, ← hresult hr']
  exact h.filterMap _

end Perm

end List
