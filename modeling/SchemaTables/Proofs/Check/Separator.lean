import SchemaTables.Proofs.Check.Column
import SchemaTables.Proofs.Text.Search

/-!
What a separator does to cells that hold one value. Cells without the separator keep their value; the others
are taken apart, so that they are not looked for as they stand, but their pieces are.
-/

namespace SchemaTables.Check

set_option autoImplicit false

variable {c : Char} {cell value : String} {child parent : List String}

theorem cellValues_singleton (c : Char) (cell : String) :
    cellValues (some (String.singleton c)) cell = (Text.splitAt c cell.toList).map String.ofList := by
  simp [cellValues, Text.pieces_singleton]

theorem cellValues_of_notMem (h : c ∉ cell.toList) :
    cellValues (some (String.singleton c)) cell = [cell] := by
  rw [cellValues_singleton, Text.splitAt_of_notMem h]
  simp

theorem notMem_of_mem_cellValues (h : value ∈ cellValues (some (String.singleton c)) cell) :
    c ∉ value.toList := by
  rw [cellValues_singleton] at h
  obtain ⟨piece, hpiece, rfl⟩ := List.mem_map.mp h
  rw [String.toList_ofList]
  exact Text.notMem_of_mem_splitAt hpiece

/-- Whole cells and their pieces are missed alike: every cell with the separator is there as it stands, and
each of its pieces is there or is missed as a cell of its own anyway. -/
def SplitsAlike (c : Char) (child parent : List String) : Prop :=
  ∀ cell ∈ child, c ∈ cell.toList → cell ∈ parent ∧
    ∀ value ∈ cellValues (some (String.singleton c)) cell, Text.allBlank value = false →
      value ∈ parent ∨ value ∈ child

instance (c : Char) (child parent : List String) : Decidable (SplitsAlike c child parent) :=
  inferInstanceAs (Decidable (∀ _ ∈ _, _))

theorem missingValues_eq_iff {separator separator' : Option String} :
    missingValues separator child parent = missingValues separator' child parent ↔
      ∀ value, Text.allBlank value = false → value ∉ parent →
        ((∃ cell ∈ child, value ∈ cellValues separator cell) ↔
          ∃ cell ∈ child, value ∈ cellValues separator' cell) := by
  unfold missingValues
  rw [Ordered.ofList_eq_ofList_iff]
  simp only [List.mem_filter, List.mem_flatMap, Bool.and_eq_true, Bool.not_eq_true', List.contains_eq_mem,
    decide_eq_false_iff_not]
  constructor
  · intro h value hblank hparent
    simpa [hblank, hparent] using h value
  · intro h value
    by_cases hmissing : Text.allBlank value = false ∧ value ∉ parent
    · rw [h value hmissing.1 hmissing.2]
    · simp [hmissing]

theorem missingValues_separator_iff (child parent : List String) (hc : Text.isBlank c = false) :
    missingValues (some (String.singleton c)) child parent = missingValues none child parent ↔
      SplitsAlike c child parent := by
  have hwhole : ∀ cell, cellValues none cell = [cell] := fun _ => rfl
  rw [missingValues_eq_iff]
  simp only [hwhole, List.mem_singleton, exists_eq_right']
  constructor
  · intro h cell hcell hmem
    have hvisible : Text.allBlank cell = false := by
      rw [Text.allBlank, List.all_eq_false]
      exact ⟨c, hmem, by simp [hc]⟩
    constructor
    · by_contra hparent
      obtain ⟨_, _, hvalue⟩ := (h cell hvisible hparent).mpr hcell
      exact notMem_of_mem_cellValues hvalue hmem
    · intro value hvalue hblank
      by_cases hparent : value ∈ parent
      · exact Or.inl hparent
      · exact Or.inr ((h value hblank hparent).mp ⟨cell, hcell, hvalue⟩)
  · intro h value hblank hparent
    constructor
    · rintro ⟨cell, hcell, hvalue⟩
      by_cases hmem : c ∈ cell.toList
      · exact ((h cell hcell hmem).2 value hvalue hblank).resolve_left hparent
      · rw [cellValues_of_notMem hmem, List.mem_singleton] at hvalue
        exact hvalue ▸ hcell
    · intro hvalue
      by_cases hmem : c ∈ value.toList
      · exact absurd (h value hvalue hmem).1 hparent
      · refine ⟨value, hvalue, ?_⟩
        rw [cellValues_of_notMem hmem]
        exact List.mem_singleton.mpr rfl

end SchemaTables.Check
