import SchemaTables.Proofs.Permutation
import SchemaTables.Proofs.Schema.Resolution

/-!
Schemas that list the same classes, slots and types in another order. Names are pairwise different, so
looking one up finds the same entry, and classes have the same slots by the same lineages. Their views agree
on everything that is asked by name, and list the same table classes, each in its own order.
-/

namespace SchemaTables

set_option autoImplicit false

/-- The schemas differ in the order of their lists at most. -/
structure Schema.Reordered (s s' : Schema) : Prop where
  name : s.name = s'.name
  description : s.description = s'.description
  classPrefix : s.classPrefix = s'.classPrefix
  prefixes : s.prefixes = s'.prefixes
  types : s.types.Perm s'.types
  classes : s.classes.Perm s'.classes
  slots : s.slots.Perm s'.slots

namespace Schema.Reordered

variable {s s' : Schema} {c : Class} {lineage : List String} {slots : List Slot}

theorem symm (h : s.Reordered s') : s'.Reordered s :=
  ⟨h.name.symm, h.description.symm, h.classPrefix.symm, h.prefixes.symm, h.types.symm, h.classes.symm,
    h.slots.symm⟩

theorem resolves (h : s.Reordered s') (hclasses : (s.classes.map Class.name).Nodup)
    (hslots : (s.slots.map Slot.name).Nodup) (hresolves : s.Resolves c lineage slots) :
    s'.Resolves c lineage slots := by
  have hown : ∀ d : Class, d.ownSlots s = d.ownSlots s' := by
    intro d
    unfold Class.ownSlots slot?
    simp only [h.slots.find?_key hslots]
  have hclass : ∀ name, s.class? name = s'.class? name := h.classes.find?_key hclasses
  induction hresolves with
  | root hparent hc => exact .root hparent (hown _ ▸ hc)
  | child hparent hp _ hc ih => exact .child hparent (hclass _ ▸ hp) ih (hown _ ▸ hc)

end Schema.Reordered

/-- The views answer alike to every name. -/
structure View.Agrees (v v' : View) : Prop where
  schema : v.schema.Reordered v'.schema
  classes_nodup : (v.schema.classes.map Class.name).Nodup
  class? : ∀ name, v.schema.class? name = v'.schema.class? name
  type? : ∀ name, v.schema.type? name = v'.schema.type? name
  lookup : ∀ name, v.slotTable.lookup name = v'.slotTable.lookup name

/-- A schema in another order has a view too, and it agrees. -/
theorem Schema.Reordered.exists_view {s s' : Schema} {v : View} (h : s.Reordered s')
    (hv : View.ofSchema s = .ok v) : ∃ v', View.ofSchema s' = .ok v' ∧ v.Agrees v' := by
  obtain ⟨hclasses, hslots, htypes, hall⟩ := View.exists_ofSchema_iff.mp ⟨v, hv⟩
  have hclasses' := (h.classes.map Class.name).nodup_iff.mp hclasses
  have hslots' := (h.slots.map Slot.name).nodup_iff.mp hslots
  have hexists : ∃ v', View.ofSchema s' = .ok v' := by
    refine View.exists_ofSchema_iff.mpr ⟨hclasses', hslots', (h.types.map _).nodup_iff.mp htypes, ?_⟩
    intro c hc
    obtain ⟨lineage, slots, hresolves⟩ := hall c (h.classes.mem_iff.mpr hc)
    exact ⟨lineage, slots, h.resolves hclasses hslots hresolves⟩
  obtain ⟨v', hv'⟩ := hexists
  have hclass : ∀ name, s.class? name = s'.class? name := h.classes.find?_key hclasses
  have hlookup : ∀ name, v.slotTable.lookup name = v'.slotTable.lookup name := by
    intro name
    apply Option.ext
    intro slots
    rw [View.lookup_slotTable_iff hv, View.lookup_slotTable_iff hv']
    constructor
    · rintro ⟨c, lineage, hc, hresolves⟩
      exact ⟨c, lineage, hclass name ▸ hc, h.resolves hclasses hslots hresolves⟩
    · rintro ⟨c, lineage, hc, hresolves⟩
      exact ⟨c, lineage, (hclass name).symm ▸ hc, h.symm.resolves hclasses' hslots' hresolves⟩
  obtain ⟨_, _, _, rfl, _⟩ := View.ofSchema_eq_ok_iff.mp hv
  obtain ⟨_, _, _, rfl, _⟩ := View.ofSchema_eq_ok_iff.mp hv'
  exact ⟨v', hv', h, hclasses, hclass, h.types.find?_key htypes, hlookup⟩

namespace View.Agrees

variable {v v' : View} {c : Class} {slot : Slot} {synthetic : List String}

theorem slots (h : v.Agrees v') (name : String) : v.slots name = v'.slots name := by
  unfold View.slots
  rw [h.lookup]

theorem identifier (h : v.Agrees v') (name : String) : v.identifier name = v'.identifier name := by
  unfold View.identifier
  rw [h.slots]

theorem rangeOf (h : v.Agrees v') (slot : Slot) : v.rangeOf slot = v'.rangeOf slot := by
  unfold View.rangeOf
  rw [h.class?, h.type?]

theorem prefixes (h : v.Agrees v') : v.prefixes = v'.prefixes := h.schema.prefixes

theorem tableClasses (h : v.Agrees v') : v.tableClasses.Perm v'.tableClasses := by
  unfold View.tableClasses
  simp only [h.lookup]
  exact h.schema.classes.filter _

theorem checkRange (h : v.Agrees v') : v.checkRange synthetic c slot = v'.checkRange synthetic c slot := by
  have hany : ∀ name, v.tableClasses.any (·.name == name) = v'.tableClasses.any (·.name == name) := by
    intro name
    exact h.tableClasses.any_eq
  unfold View.checkRange
  simp only [h.rangeOf, hany]

theorem checkClass (h : v.Agrees v') (c : Class) : v.checkClass synthetic c = v'.checkClass synthetic c := by
  unfold View.checkClass View.checkValuePrefix
  simp only [h.identifier, h.slots, h.prefixes, h.checkRange]

/-- One view is valid when the other is. -/
theorem validate (h : v.Agrees v') (hvalid : v.validate synthetic = .ok ()) : v'.validate synthetic = .ok () := by
  rw [View.validate_eq_ok_iff] at hvalid ⊢
  intro c hc
  rw [← h.checkClass]
  exact hvalid c (h.tableClasses.mem_iff.mpr hc)

end View.Agrees

end SchemaTables
