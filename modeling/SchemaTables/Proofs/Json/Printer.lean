import Mathlib.Data.String.Basic
import SchemaTables.Json.Printer

/-!
Texts as they are printed. A character is printed as it is or as an escape that starts with a backslash, so
a text whose printed form has no backslash stands in it unchanged.
-/

namespace SchemaTables.Json

set_option autoImplicit false

theorem escapeChar_eq (c : Char) : escapeChar c = c.toString ∨ '\\' ∈ (escapeChar c).toList := by
  unfold escapeChar
  split
  all_goals try exact Or.inr (by decide)
  split
  · exact Or.inr (by simp)
  · exact Or.inl rfl

theorem join_escapeChar {l : List Char} (h : ∀ c ∈ l, '\\' ∉ (escapeChar c).toList) :
    String.join (l.map escapeChar) = String.ofList l := by
  apply String.toList_inj.mp
  simp only [String.toList_join, String.toList_ofList]
  induction l with
  | nil => rfl
  | cons c l ih =>
    rw [List.forall_mem_cons] at h
    have hc : escapeChar c = c.toString := (escapeChar_eq c).resolve_right h.1
    simp [hc, ih h.2]

theorem quoteText_eq {s : String} (h : '\\' ∉ (quoteText s).toList) : quoteText s = "\"" ++ s ++ "\"" := by
  have hchar : ∀ c ∈ s.toList, '\\' ∉ (escapeChar c).toList := by
    intro c hc hmem
    apply h
    simp only [quoteText, String.toList_append, String.toList_join, List.mem_append, List.mem_flatMap,
      List.mem_map]
    exact Or.inl (Or.inr ⟨_, ⟨c, hc, rfl⟩, hmem⟩)
  rw [quoteText, join_escapeChar hchar, String.ofList_toList]

theorem eq_of_quoteText_eq {s t : String} (hs : '\\' ∉ (quoteText s).toList)
    (h : quoteText s = quoteText t) : s = t := by
  have ht : '\\' ∉ (quoteText t).toList := h ▸ hs
  rw [quoteText_eq hs, quoteText_eq ht] at h
  apply String.toList_inj.mp
  simpa using congrArg String.toList h

end SchemaTables.Json
