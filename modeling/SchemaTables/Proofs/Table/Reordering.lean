import SchemaTables.Descriptions
import SchemaTables.Proofs.Schema.Reordering

/-!
Tables are compiled from what a view answers to names. So under views that agree every class becomes the same
table and has the same section in the reference document; and the document, which goes by the names of the
classes, is the same.
-/

namespace SchemaTables

set_option autoImplicit false

namespace View.Agrees

variable {v v' : View} {o : Options} {c : Class} {slot : Slot}

theorem target (h : v.Agrees v') : Job.target ⟨v, o⟩ c slot = Job.target ⟨v', o⟩ c slot := by
  unfold Job.target
  simp only [h.rangeOf, h.identifier]

theorem literalColumn (h : v.Agrees v') (t : LiteralType) (column : Column) :
    Job.literalColumn ⟨v, o⟩ slot t column = Job.literalColumn ⟨v', o⟩ slot t column := by
  unfold Job.literalColumn Job.prefixedTemplate
  simp only [h.prefixes]

theorem buildColumn (h : v.Agrees v') (row : String) (slot : Slot) :
    Job.buildColumn ⟨v, o⟩ c row slot = Job.buildColumn ⟨v', o⟩ c row slot := by
  have hbase : Job.baseColumn ⟨v, o⟩ row slot = Job.baseColumn ⟨v', o⟩ row slot := by
    unfold Job.baseColumn
    simp only [h.prefixes]
    rfl
  unfold Job.buildColumn
  simp only [hbase, h.target, h.rangeOf, h.literalColumn]

theorem virtualColumns (h : v.Agrees v') (row : String) (slots : List Slot) :
    Job.virtualColumns ⟨v, o⟩ c row slots = Job.virtualColumns ⟨v', o⟩ c row slots := by
  have htypes : Job.typeColumns ⟨v, o⟩ c slots = Job.typeColumns ⟨v', o⟩ c slots := by
    unfold Job.typeColumns Job.classAddress
    simp only [h.prefixes, h.schema.classPrefix]
  unfold Job.virtualColumns
  simp only [htypes, h.prefixes]
  rfl

theorem compileTable (h : v.Agrees v') (c : Class) :
    Job.compileTable ⟨v, o⟩ c = Job.compileTable ⟨v', o⟩ c := by
  have hbuild : Job.buildColumn ⟨v, o⟩ c = Job.buildColumn ⟨v', o⟩ c := by
    funext row slot
    exact h.buildColumn row slot
  unfold Job.compileTable
  simp only [h.slots, h.identifier, hbuild, h.virtualColumns]

theorem slotRow (h : v.Agrees v') (slot : Slot) : Job.slotRow ⟨v, o⟩ slot = Job.slotRow ⟨v', o⟩ slot := by
  unfold Job.slotRow Job.rangeDescription Job.literalDescription Job.addressDescription Job.slotDescription
  simp only [h.rangeOf, h.prefixes]

theorem classSection (h : v.Agrees v') (c : Class) :
    Job.classSection ⟨v, o⟩ c = Job.classSection ⟨v', o⟩ c := by
  have hrow : Job.slotRow ⟨v, o⟩ = Job.slotRow ⟨v', o⟩ := by
    funext slot
    exact h.slotRow slot
  unfold Job.classSection
  simp only [h.slots, hrow]

/-- Sorted by their names, which are pairwise different, the classes come in one order. -/
theorem mergeSort_classes (h : v.Agrees v') :
    (v.schema.classes.mergeSort fun a b => a.name ≤ b.name) =
      v'.schema.classes.mergeSort fun a b => a.name ≤ b.name := by
  have hsorted : ∀ classes : List Class,
      (classes.mergeSort fun a b => a.name ≤ b.name).Pairwise fun a b => a.name ≤ b.name := by
    intro classes
    have htrans : ∀ a b d : Class, decide (a.name ≤ b.name) = true → decide (b.name ≤ d.name) = true →
        decide (a.name ≤ d.name) = true := by
      intro a b d hab hbd
      exact decide_eq_true (String.le_trans (of_decide_eq_true hab) (of_decide_eq_true hbd))
    have htotal : ∀ a b : Class, (decide (a.name ≤ b.name) || decide (b.name ≤ a.name)) = true := by
      intro a b
      simpa using String.le_total a.name b.name
    exact (List.pairwise_mergeSort htrans htotal classes).imp of_decide_eq_true
  have hperm := (List.mergeSort_perm v.schema.classes fun a b => a.name ≤ b.name).trans
    (h.schema.classes.trans (List.mergeSort_perm v'.schema.classes fun a b => a.name ≤ b.name).symm)
  apply hperm.eq_of_pairwise ?_ (hsorted _) (hsorted _)
  intro a b ha hb hab hba
  have ha := List.mem_mergeSort.mp ha
  have hb := h.schema.classes.mem_iff.mpr (List.mem_mergeSort.mp hb)
  exact List.inj_on_of_nodup_map h.classes_nodup ha hb (String.le_antisymm hab hba)

theorem descriptions (h : v.Agrees v') : Job.descriptions ⟨v, o⟩ = Job.descriptions ⟨v', o⟩ := by
  have hsection : Job.classSection ⟨v, o⟩ = Job.classSection ⟨v', o⟩ := by
    funext c
    exact h.classSection c
  unfold Job.descriptions
  simp only [h.mergeSort_classes, hsection, h.schema.name, h.schema.description, h.schema.prefixes]

end View.Agrees

end SchemaTables
