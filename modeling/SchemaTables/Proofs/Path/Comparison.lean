import SchemaTables.Path.Basic
import SchemaTables.Proofs.Ordered

/-!
Laws of the comparison of paths. It is a total preorder that identifies exactly the spellings of one
path, so a set of paths is a set of what the paths designate.
-/

namespace SchemaTables

open Std

set_option autoImplicit false

namespace Component

instance : TransCmp Component.compare := inferInstanceAs (TransCmp (compareLex _ _))

theorem eq_of_rank_eq_of_text_eq {a b : Component} (hr : a.rank = b.rank) (ht : a.text = b.text) :
    a = b := by
  cases a <;> cases b <;> simp_all [rank, text]

instance : LawfulEqCmp Component.compare where
  compare_self := ReflCmp.compare_self
  eq_of_compare := by
    intro a b h
    obtain ⟨hr, ht⟩ := Ordering.then_eq_eq.mp h
    exact eq_of_rank_eq_of_text_eq (LawfulEqCmp.eq_of_compare hr) (LawfulEqCmp.eq_of_compare ht)

instance : TransOrd Component := inferInstanceAs (TransCmp Component.compare)

instance : LawfulEqOrd Component := inferInstanceAs (LawfulEqCmp Component.compare)

end Component

namespace Path

variable {p q r : Path}

instance : TransCmp Path.compare := inferInstanceAs (TransCmp (compareOn components))

theorem compare_eq_iff : p.compare q = .eq ↔ p.Same q := LawfulEqOrd.compare_eq_iff_eq

namespace Same

theorem refl (p : Path) : p.Same p := rfl

theorem symm (h : p.Same q) : q.Same p := Eq.symm h

theorem trans (h : p.Same q) (h' : q.Same r) : p.Same r := Eq.trans h h'

end Same

end Path

namespace PathSet

variable {s t : PathSet} {p q : Path}

theorem contains_iff : s.contains p = true ↔ ∃ q ∈ s, p.Same q := by
  simp only [contains, Ordered.contains_iff, Path.compare_eq_iff]

@[simp] theorem contains_nil (p : Path) : contains [] p = false := rfl

theorem contains_of_mem (h : p ∈ s) : s.contains p = true := Ordered.contains_of_mem h

theorem contains_congr (h : p.Same q) : s.contains p = s.contains q :=
  Ordered.contains_congr (Path.compare_eq_iff.mpr h)

theorem contains_insert_iff : (s.insert q).contains p = true ↔ p.Same q ∨ s.contains p = true := by
  rw [← Path.compare_eq_iff]
  exact Ordered.contains_insert_iff

theorem contains_union_iff :
    (s.union t).contains p = true ↔ s.contains p = true ∨ t.contains p = true :=
  Ordered.contains_union_iff

theorem contains_ofList_iff {l : List Path} :
    (ofList l).contains p = true ↔ ∃ q ∈ l, p.Same q := by
  simp only [← Path.compare_eq_iff]
  exact Ordered.contains_ofList_iff

end PathSet

end SchemaTables
