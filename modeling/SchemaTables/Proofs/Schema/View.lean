import Mathlib.Data.List.Nodup
import SchemaTables.Proofs.Except
import SchemaTables.Schema.Validity

/-!
What a view and its validation settle: names are pairwise different, so looking one up finds the entry
that has it, and the slots of table classes range over tables or known literal types.
-/

namespace SchemaTables

set_option autoImplicit false

theorem firstDuplicate?_eq_none_iff {seen names : List String} :
    firstDuplicate? seen names = none ↔ names.Nodup ∧ ∀ n ∈ names, n ∉ seen := by
  induction names generalizing seen with
  | nil => simp [firstDuplicate?]
  | cons n names ih =>
    unfold firstDuplicate?
    split
    · rename_i hseen
      have hmem : n ∈ seen := by simpa using hseen
      simp [hmem]
    · rename_i hseen
      have hnot : n ∉ seen := by simpa using hseen
      rw [ih, List.nodup_cons]
      constructor
      · rintro ⟨hnodup, hfresh⟩
        refine ⟨⟨fun hn => hfresh n hn List.mem_cons_self, hnodup⟩, ?_⟩
        intro m hm
        rcases List.mem_cons.mp hm with rfl | hm
        · exact hnot
        · exact fun hs => hfresh m hm (List.mem_cons_of_mem n hs)
      · rintro ⟨⟨hn, hnodup⟩, hfresh⟩
        refine ⟨hnodup, fun m hm hs => ?_⟩
        rcases List.mem_cons.mp hs with rfl | hs
        · exact hn hm
        · exact hfresh m (List.mem_cons_of_mem n hm) hs

namespace Schema

variable {s : Schema} {c : Class} {name : String}

theorem mem_of_class? (h : s.class? name = some c) : c ∈ s.classes ∧ c.name = name :=
  ⟨List.mem_of_find?_eq_some h, by simpa using List.find?_some h⟩

end Schema

namespace SlotTable

variable {s : Schema} {c : Class} {table table' : SlotTable}

theorem lookup_isSome_of_isPrefix (h : table <+: table') {name : String}
    (hfound : (table.lookup name).isSome) : (table'.lookup name).isSome := by
  obtain ⟨more, rfl⟩ := h
  rw [List.lookup_append, Option.isSome_or, hfound, Bool.true_or]

/-- What resolving a class does: nothing when its slots are known already, and else it adds them, after
those of the ancestors. -/
theorem resolve_cases {fuel : Nat} {below : List String}
    (h : resolve s fuel below table c = .ok table') :
    ((table.lookup c.name).isSome ∧ table' = table) ∨
    (∃ own, c.parent = none ∧ c.ownSlots s = .ok own ∧ table' = table ++ [(c.name, own)]) ∨
    (∃ less parent p middle own, fuel = less + 1 ∧ c.parent = some parent ∧ s.class? parent = some p ∧
      resolve s less (below ++ [c.name]) table p = .ok middle ∧ c.ownSlots s = .ok own ∧
      table' = middle ++ [(c.name, (middle.lookup p.name).getD [] ++ own)]) := by
  unfold resolve at h
  split at h
  · rename_i hfound
    exact Or.inl ⟨hfound, (Except.ok.inj h).symm⟩
  · split at h
    · cases h
    · split at h
      · rename_i hparent
        obtain ⟨own, hown, h⟩ := Except.bind_eq_ok_iff.mp h
        exact Or.inr (Or.inl ⟨own, hparent, hown, (Except.ok.inj h).symm⟩)
      · rename_i parent hparent
        split at h
        · cases h
        · rename_i p hp
          cases fuel with
          | zero => cases h
          | succ less =>
            obtain ⟨middle, hmiddle, h⟩ := Except.bind_eq_ok_iff.mp h
            obtain ⟨own, hown, h⟩ := Except.bind_eq_ok_iff.mp h
            exact Or.inr (Or.inr
              ⟨less, parent, p, middle, own, rfl, hparent, hp, hmiddle, hown, (Except.ok.inj h).symm⟩)

/-- Resolving a class only adds to a table, and finds the slots of the class. -/
theorem resolve_grows {fuel : Nat} {below : List String}
    (h : resolve s fuel below table c = .ok table') :
    table <+: table' ∧ (table'.lookup c.name).isSome := by
  induction fuel using Nat.strongRecOn generalizing below table table' c with
  | ind fuel ih =>
    rcases resolve_cases h with ⟨hfound, rfl⟩ | ⟨own, _, _, rfl⟩ |
      ⟨less, _, p, middle, own, hless, _, _, hmiddle, _, rfl⟩
    · exact ⟨List.prefix_refl table', hfound⟩
    · exact ⟨List.prefix_append _ _, by simp [List.lookup_append]⟩
    · have hbefore := (ih less (hless ▸ Nat.lt_succ_self less) hmiddle).1
      exact ⟨hbefore.trans (List.prefix_append _ _), by simp [List.lookup_append]⟩

theorem resolveAll_grows {fuel : Nat} {classes : List Class}
    (h : classes.foldlM (resolve s fuel []) table = .ok table') :
    table <+: table' ∧ ∀ c ∈ classes, (table'.lookup c.name).isSome := by
  induction classes generalizing table with
  | nil =>
    cases h
    exact ⟨List.prefix_refl _, by simp⟩
  | cons d classes ih =>
    rw [List.foldlM_cons] at h
    obtain ⟨middle, hmiddle, h⟩ := Except.bind_eq_ok_iff.mp h
    obtain ⟨hfirst, hfound⟩ := resolve_grows hmiddle
    obtain ⟨hrest, hall⟩ := ih h
    refine ⟨hfirst.trans hrest, ?_⟩
    intro c hc
    rcases List.mem_cons.mp hc with rfl | hc
    · exact lookup_isSome_of_isPrefix hrest hfound
    · exact hall c hc

end SlotTable

namespace View

variable {v : View} {s : Schema} {c d : Class} {slot : Slot} {name : String}

theorem checkNames_eq_ok_iff {kind : NameKind} {names : List String} :
    checkNames kind names = .ok () ↔ names.Nodup := by
  unfold checkNames
  cases h : firstDuplicate? [] names with
  | some n =>
    have hdup : ¬ names.Nodup := by
      intro hnodup
      rw [firstDuplicate?_eq_none_iff.mpr ⟨hnodup, fun _ _ => List.not_mem_nil⟩] at h
      cases h
    simp [hdup]
  | none => simp [(firstDuplicate?_eq_none_iff.mp h).1]

theorem ofSchema_eq_ok_iff :
    ofSchema s = .ok v ↔ (s.classes.map Class.name).Nodup ∧ (s.slots.map Slot.name).Nodup ∧
      (s.types.map LiteralType.name).Nodup ∧ v.schema = s ∧
      s.classes.foldlM (SlotTable.resolve s s.classes.length []) [] = .ok v.slotTable := by
  simp only [ofSchema, Except.unit_bind_eq_ok_iff, checkNames_eq_ok_iff]
  simp only [Except.bind_eq_ok_iff, pure, Except.pure]
  constructor
  · rintro ⟨hclasses, hslots, htypes, table, htable, h⟩
    cases h
    exact ⟨hclasses, hslots, htypes, rfl, htable⟩
  · rintro ⟨hclasses, hslots, htypes, rfl, htable⟩
    exact ⟨hclasses, hslots, htypes, v.slotTable, htable, rfl⟩

theorem slots_eq_ok_iff {slots : List Slot} :
    v.slots name = .ok slots ↔ v.slotTable.lookup name = some slots := by
  unfold View.slots
  cases v.slotTable.lookup name <;> simp

theorem identifier_eq_ok_iff : v.identifier name = .ok slot ↔
    ∃ slots, v.slots name = .ok slots ∧ slots.filter Slot.identifier = [slot] := by
  simp only [View.identifier, Except.bind_eq_ok_iff]
  constructor
  · rintro ⟨slots, hslots, h⟩
    split at h
    · rename_i found hfound
      cases h
      exact ⟨slots, hslots, hfound⟩
    · cases h
  · rintro ⟨slots, hslots, hfound⟩
    refine ⟨slots, hslots, ?_⟩
    rw [hfound]
    rfl

/-- In a view every class has slots, though there may be none of them. -/
theorem exists_slots (h : ofSchema s = .ok v) (hc : c ∈ s.classes) : ∃ slots, v.slots c.name = .ok slots := by
  obtain ⟨_, _, _, _, htable⟩ := ofSchema_eq_ok_iff.mp h
  obtain ⟨slots, hslots⟩ := Option.isSome_iff_exists.mp ((SlotTable.resolveAll_grows htable).2 c hc)
  exact ⟨slots, slots_eq_ok_iff.mpr hslots⟩

theorem mem_tableClasses_iff :
    c ∈ v.tableClasses ↔ c ∈ v.schema.classes ∧ c.isAbstract = false ∧
      ∃ slots, v.slots c.name = .ok slots ∧ slots ≠ [] := by
  simp only [tableClasses, List.mem_filter, Bool.and_eq_true, slots_eq_ok_iff, Option.any_eq_true]
  simp

theorem tableClasses_names_nodup (h : ofSchema s = .ok v) : (v.tableClasses.map Class.name).Nodup := by
  obtain ⟨hclasses, _, _, rfl, _⟩ := ofSchema_eq_ok_iff.mp h
  exact hclasses.sublist (List.filter_sublist.map Class.name)

theorem eq_of_name_eq (h : ofSchema s = .ok v) (hc : c ∈ v.tableClasses) (hd : d ∈ v.tableClasses)
    (hname : c.name = d.name) : c = d :=
  List.inj_on_of_nodup_map (tableClasses_names_nodup h) hc hd hname

theorem mem_of_rangeOf_cls (h : v.rangeOf slot = .cls d) : d ∈ v.schema.classes ∧ d.name = slot.range := by
  unfold rangeOf at h
  split at h
  · rename_i e he
    cases h
    exact Schema.mem_of_class? he
  · split at h <;> cases h

section Validation
variable {synthetic : List String}

theorem checkClass_eq_ok_iff :
    v.checkClass synthetic c = .ok () ↔ (∃ id, v.identifier c.name = .ok id) ∧
      ∃ slots, v.slots c.name = .ok slots ∧ ∀ slot ∈ slots,
        v.checkValuePrefix slot = .ok () ∧ v.checkRange synthetic c slot = .ok () := by
  simp only [checkClass, Except.bind_eq_ok_iff]
  simp only [Except.forM_eq_ok_iff, Except.unit_bind_eq_ok_iff]
  constructor
  · rintro ⟨id, hid, slots, hslots, hall⟩
    exact ⟨⟨id, hid⟩, slots, hslots, hall⟩
  · rintro ⟨⟨id, hid⟩, slots, hslots, hall⟩
    exact ⟨id, hid, slots, hslots, hall⟩

theorem validate_eq_ok_iff :
    v.validate synthetic = .ok () ↔ ∀ c ∈ v.tableClasses, v.checkClass synthetic c = .ok () :=
  Except.forM_eq_ok_iff

/-- After validation a class that a slot ranges over has a table, unless a synthetic table comes first. -/
theorem mem_tableClasses_of_rangeOf (hv : ofSchema s = .ok v) (h : v.checkRange synthetic c slot = .ok ())
    (hsynthetic : slot.range ∉ synthetic) (hrange : v.rangeOf slot = .cls d) : d ∈ v.tableClasses := by
  obtain ⟨hclasses, _, _, rfl, _⟩ := ofSchema_eq_ok_iff.mp hv
  unfold checkRange at h
  rw [if_neg (by simpa using hsynthetic), hrange] at h
  simp only at h
  split at h
  · rename_i hany
    obtain ⟨e, he, hname⟩ := List.any_eq_true.mp hany
    have hmem := (mem_tableClasses_iff.mp he).1
    have heq := List.inj_on_of_nodup_map hclasses hmem (mem_of_rangeOf_cls hrange).1 (by simpa using hname)
    exact heq ▸ he
  · cases h

end Validation

end View

end SchemaTables
