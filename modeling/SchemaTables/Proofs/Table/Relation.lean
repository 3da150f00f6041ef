import SchemaTables.Proofs.Options
import SchemaTables.Proofs.Path.Comparison
import SchemaTables.Proofs.Schema.View
import SchemaTables.Proofs.Table.Compile

/-!
What relational slots refer to, said without the compilation: a synthetic table of the name that the slot
ranges over, or else the class of that name. After validation every such class has a table.
-/

namespace SchemaTables.Job

set_option autoImplicit false

variable {j : Job} {c : Class} {slot : Slot} {target : RelationTarget} {row : String}

/-- The slot leads to the table at the path: the synthetic table of the name it ranges over, or else the
table of the class of that name. -/
inductive LeadsTo (j : Job) (slot : Slot) : Path → Prop where
  | synthetic {t : SyntheticTable} :
      j.options.synthetic? slot.range = some t → LeadsTo j slot t.path
  | ofClass {d : Class} :
      j.options.synthetic? slot.range = none → j.view.rangeOf slot = .cls d →
      LeadsTo j slot (Options.csvPath d.name)

/-- The slot leads to a table whose rows are identified by the column. -/
inductive RefersTo (j : Job) (slot : Slot) : RelationTarget → Prop where
  | synthetic {t : SyntheticTable} :
      j.options.synthetic? slot.range = some t → RefersTo j slot ⟨t.path, t.idColumn, t.idTitle⟩
  | ofClass {d : Class} {id : Slot} :
      j.options.synthetic? slot.range = none → j.view.rangeOf slot = .cls d →
      j.view.identifier d.name = .ok id →
      RefersTo j slot ⟨Options.csvPath d.name, id.name, id.columnTitle⟩

theorem RefersTo.leadsTo (h : j.RefersTo slot target) : j.LeadsTo slot target.table := by
  cases h with
  | synthetic ht => exact .synthetic ht
  | ofClass hnone hrange _ => exact .ofClass hnone hrange

theorem RefersTo.unique {target' : RelationTarget} (h : j.RefersTo slot target)
    (h' : j.RefersTo slot target') : target = target' := by
  cases h with
  | synthetic ht =>
    cases h' with
    | synthetic ht' =>
      rw [ht] at ht'
      cases ht'
      rfl
    | ofClass hnone => simp [ht] at hnone
  | ofClass hnone hrange hid =>
    cases h' with
    | synthetic ht' => simp [hnone] at ht'
    | ofClass _ hrange' hid' =>
      rw [hrange] at hrange'
      cases hrange'
      rw [hid] at hid'
      cases hid'
      rfl

theorem refersTo_iff_of_target {target? : Option RelationTarget} (h : j.target c slot = .ok target?) :
    j.RefersTo slot target ↔ target? = some target := by
  have hsome : ∀ {found}, target? = some found → j.RefersTo slot found := by
    intro found heq
    subst heq
    unfold Job.target at h
    split at h
    · rename_i t ht
      cases h
      exact .synthetic ht
    · rename_i hnone
      split at h
      · rename_i d hrange
        split at h
        · cases h
        · obtain ⟨id, hid, h⟩ := Except.map_eq_ok_iff.mp h
          cases h
          exact .ofClass hnone hrange hid
      · cases h
      · cases h
  constructor
  · intro href
    cases target? with
    | some found => rw [href.unique (hsome rfl)]
    | none =>
      unfold Job.target at h
      cases href with
      | synthetic ht => simp [ht] at h
      | ofClass hnone hrange hid =>
        simp only [hnone, hrange, hid, Except.map] at h
        split at h <;> cases h
  · exact hsome

/-- How the relation of a slot of the class to the table is enforced. -/
def enforcement (j : Job) (c : Class) (slot : Slot) (target : RelationTarget) : Enforcement :=
  (slot.relation (Options.csvPath c.name) slot.columnTitle target j.options.rowNamespace
    j.options.separator (j.options.remoteUrl target.table)).enforcement

theorem relation_eq_some_iff {b : BuiltColumn} {e : Enforcement}
    (h : j.buildColumn c row slot = .ok b) :
    b.relation = some (target, e) ↔ j.RefersTo slot target ∧ e = j.enforcement c slot target := by
  obtain ⟨_, _, target?, htarget, hrelation⟩ := buildColumn_ok h
  rw [refersTo_iff_of_target htarget, hrelation, Option.map_eq_some_iff]
  constructor
  · rintro ⟨found, rfl, heq⟩
    cases heq
    exact ⟨rfl, rfl⟩
  · rintro ⟨rfl, rfl⟩
    exact ⟨target, rfl, rfl⟩

/-- A required slot with one value has a key, and no other slot has one. -/
theorem enforcement_eq_declarative_iff {key : ForeignKey} :
    j.enforcement c slot target = .declarative key ↔ slot.multivalued = false ∧ slot.required = true ∧
      key = ⟨slot.name, j.options.remoteUrl target.table, target.idColumn⟩ := by
  unfold enforcement Slot.relation
  cases slot.multivalued <;> cases slot.required <;> simp [eq_comm]

theorem enforcement_eq_manual_iff {check : ManualCheck} :
    j.enforcement c slot target = .manual check ↔ (slot.multivalued = true ∨ slot.required = false) ∧
      check = ⟨Options.csvPath c.name, slot.columnTitle, target.table, target.idTitle,
        if slot.multivalued then some j.options.separator else none⟩ := by
  unfold enforcement Slot.relation
  cases slot.multivalued <;> cases slot.required <;> simp [eq_comm]

section Compiled
variable {slots : List Slot} {built : List BuiltColumn}

/-- The relations of the columns are those of the slots. -/
theorem exists_relation_iff {e : Enforcement}
    (h : List.Forall₂ (fun slot b => j.buildColumn c row slot = .ok b) slots built) :
    (∃ b ∈ built, b.relation = some (target, e)) ↔
      ∃ slot ∈ slots, j.RefersTo slot target ∧ e = j.enforcement c slot target := by
  constructor
  · rintro ⟨b, hb, hrelation⟩
    obtain ⟨slot, hslot, hbuild⟩ := h.exists_of_mem_right hb
    exact ⟨slot, hslot, (relation_eq_some_iff hbuild).mp hrelation⟩
  · rintro ⟨slot, hslot, hrelation⟩
    obtain ⟨b, hb, hbuild⟩ := h.exists_of_mem_left hslot
    exact ⟨b, hb, (relation_eq_some_iff hbuild).mpr hrelation⟩

theorem mem_targets_iff {p : Path} :
    p ∈ targets built ↔ ∃ target e, target.table = p ∧ ∃ b ∈ built, b.relation = some (target, e) := by
  simp only [targets, List.mem_filterMap, Option.map_eq_some_iff]
  constructor
  · rintro ⟨b, hb, ⟨target, e⟩, hrelation, rfl⟩
    exact ⟨target, e, rfl, b, hb, hrelation⟩
  · rintro ⟨target, e, rfl, b, hb, hrelation⟩
    exact ⟨b, hb, _, hrelation, rfl⟩

theorem mem_foreignKeys_iff {key : ForeignKey} :
    key ∈ foreignKeys built ↔ ∃ target, ∃ b ∈ built, b.relation = some (target, .declarative key) := by
  simp only [foreignKeys, List.mem_filterMap]
  constructor
  · rintro ⟨b, hb, hkey⟩
    split at hkey
    · rename_i target _ hrelation
      exact ⟨target, b, hb, Option.some.inj hkey ▸ hrelation⟩
    · cases hkey
  · rintro ⟨target, b, hb, hrelation⟩
    exact ⟨b, hb, by rw [hrelation]⟩

theorem mem_manualChecks_iff {check : ManualCheck} :
    check ∈ manualChecks built ↔ ∃ target, ∃ b ∈ built, b.relation = some (target, .manual check) := by
  simp only [manualChecks, List.mem_filterMap]
  constructor
  · rintro ⟨b, hb, hcheck⟩
    split at hcheck
    · rename_i target _ hrelation
      exact ⟨target, b, hb, Option.some.inj hcheck ▸ hrelation⟩
    · cases hcheck
  · rintro ⟨target, b, hb, hrelation⟩
    exact ⟨b, hb, by rw [hrelation]⟩

variable {t : CompiledTable} (h : j.compileTable c = .ok t) (hslots : j.view.slots c.name = .ok slots)
include h hslots

/-- The tables that a compiled table depends on are its own and those its slots refer to. -/
theorem contains_dependencies_iff {p : Path} :
    t.dependencies.contains p = true ↔ p.Same (Options.csvPath c.name) ∨
      ∃ slot ∈ slots, ∃ target, j.RefersTo slot target ∧ p.Same target.table := by
  obtain ⟨slots', id, built, virtual, hslots', _, hbuilt, _, rfl⟩ := compileTable_eq_ok_iff.mp h
  cases hslots.symm.trans hslots'
  simp only [PathSet.contains_ofList_iff, List.mem_cons, mem_targets_iff, exists_relation_iff hbuilt]
  constructor
  · rintro ⟨q, rfl | ⟨target, _, rfl, slot, hslot, href, _⟩, hsame⟩
    · exact Or.inl hsame
    · exact Or.inr ⟨slot, hslot, target, href, hsame⟩
  · rintro (hsame | ⟨slot, hslot, target, href, hsame⟩)
    · exact ⟨_, Or.inl rfl, hsame⟩
    · exact ⟨_, Or.inr ⟨target, _, rfl, slot, hslot, href, rfl⟩, hsame⟩

/-- The keys of a compiled table are those of its required slots with one value. -/
theorem mem_keys_iff {key : ForeignKey} :
    key ∈ t.schema.foreignKeys.getD [] ↔ ∃ slot ∈ slots, ∃ target, j.RefersTo slot target ∧
      slot.multivalued = false ∧ slot.required = true ∧
      key = ⟨slot.name, j.options.remoteUrl target.table, target.idColumn⟩ := by
  obtain ⟨slots', id, built, virtual, hslots', _, hbuilt, _, rfl⟩ := compileTable_eq_ok_iff.mp h
  cases hslots.symm.trans hslots'
  simp only [Option.getD_some, mem_foreignKeys_iff, exists_relation_iff hbuilt,
    eq_comm (a := Enforcement.declarative key), enforcement_eq_declarative_iff]
  constructor
  · rintro ⟨target, slot, hslot, href, hkey⟩
    exact ⟨slot, hslot, target, href, hkey⟩
  · rintro ⟨slot, hslot, target, href, hkey⟩
    exact ⟨target, slot, hslot, href, hkey⟩

/-- The checks of a compiled table are those of its slots that are multivalued or not required. -/
theorem mem_checks_iff {check : ManualCheck} :
    check ∈ t.manualChecks ↔ ∃ slot ∈ slots, ∃ target, j.RefersTo slot target ∧
      (slot.multivalued = true ∨ slot.required = false) ∧
      check = ⟨Options.csvPath c.name, slot.columnTitle, target.table, target.idTitle,
        if slot.multivalued then some j.options.separator else none⟩ := by
  obtain ⟨slots', id, built, virtual, hslots', _, hbuilt, _, rfl⟩ := compileTable_eq_ok_iff.mp h
  cases hslots.symm.trans hslots'
  simp only [mem_manualChecks_iff, exists_relation_iff hbuilt, eq_comm (a := Enforcement.manual check),
    enforcement_eq_manual_iff]
  constructor
  · rintro ⟨target, slot, hslot, href, hcheck⟩
    exact ⟨slot, hslot, target, href, hcheck⟩
  · rintro ⟨slot, hslot, target, href, hcheck⟩
    exact ⟨target, slot, hslot, href, hcheck⟩

end Compiled

end SchemaTables.Job
