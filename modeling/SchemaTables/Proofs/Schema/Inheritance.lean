import SchemaTables.Proofs.Schema.Reordering

/-!
Which schemas have a view, and which slots it gives to their classes, said without a table of slots that
fills up on the way. Names are pairwise different and name something, and going up from class to class never
comes back. Then a class has the slots of its parent and after these its own.
-/

namespace SchemaTables

set_option autoImplicit false

namespace Schema

/-- The class that a class inherits from. -/
def parent? (s : Schema) (c : Class) : Option Class := c.parent.bind s.class?

/-- The class that is so many parents above a class. -/
def ancestor? (s : Schema) : Nat → Class → Option Class
  | 0, c => some c
  | n + 1, c => (s.parent? c).bind (s.ancestor? n)

/-- Names are pairwise different and name something, and no class is met again above itself. -/
structure Coherent (s : Schema) : Prop where
  classes : (s.classes.map Class.name).Nodup
  slots : (s.slots.map Slot.name).Nodup
  types : (s.types.map LiteralType.name).Nodup
  parents : ∀ c ∈ s.classes, ∀ parent, c.parent = some parent → parent ∈ s.classes.map Class.name
  declared : ∀ c ∈ s.classes, ∀ name ∈ c.slots, name ∈ s.slots.map Slot.name
  /-- Two classes on the way up from a class are never the same. -/
  acyclic : ∀ c ∈ s.classes, ∀ m n d e, m < n → s.ancestor? m c = some d → s.ancestor? n c = some e →
    d.name ≠ e.name

variable {s : Schema} {c d : Class} {lineage : List String} {slots : List Slot}

theorem mem_of_parent? (h : s.parent? c = some d) : d ∈ s.classes := by
  obtain ⟨parent, _, hd⟩ := Option.bind_eq_some_iff.mp h
  exact (mem_of_class? hd).1

theorem mem_of_ancestor? {n : Nat} (hc : c ∈ s.classes) (h : s.ancestor? n c = some d) : d ∈ s.classes := by
  induction n generalizing c with
  | zero =>
    cases h
    exact hc
  | succ n ih =>
    obtain ⟨p, hp, h⟩ := Option.bind_eq_some_iff.mp h
    exact ih (mem_of_parent? hp) h

theorem exists_ancestor?_of_le {m n : Nat} (hle : m ≤ n) (h : s.ancestor? n c = some d) :
    ∃ e, s.ancestor? m c = some e := by
  induction m generalizing n c with
  | zero => exact ⟨c, rfl⟩
  | succ m ih =>
    obtain ⟨n, rfl⟩ := Nat.exists_eq_add_of_le' (Nat.lt_of_lt_of_le (Nat.succ_pos m) hle)
    obtain ⟨p, hp, h⟩ := Option.bind_eq_some_iff.mp h
    obtain ⟨e, he⟩ := ih (Nat.le_of_succ_le_succ hle) h
    exact ⟨e, Option.bind_eq_some_iff.mpr ⟨p, hp, he⟩⟩

theorem Resolves.getElem?_lineage (h : s.Resolves c lineage slots) (n : Nat) :
    lineage[n]? = (s.ancestor? n c).map Class.name := by
  induction h generalizing n with
  | root hparent _ =>
    cases n with
    | zero => rfl
    | succ n => simp [ancestor?, parent?, hparent]
  | child hparent hp _ _ ih =>
    cases n with
    | zero => rfl
    | succ n => simp [ancestor?, parent?, hparent, hp, ih]

theorem ownSlots_eq_ok_iff (hnodup : (s.slots.map Slot.name).Nodup) :
    c.ownSlots s = .ok slots ↔
      List.Forall₂ (fun name slot => slot ∈ s.slots ∧ slot.name = name) c.slots slots := by
  have hfound : ∀ {name slot}, s.slot? name = some slot ↔ slot ∈ s.slots ∧ slot.name = name := by
    intro name slot
    rw [← List.find?_key_eq_some_iff hnodup]
    rfl
  unfold Class.ownSlots
  rw [Except.mapM_eq_ok_iff]
  constructor
  · refine List.Forall₂.imp fun name slot h => ?_
    split at h
    · rename_i found hslot
      cases h
      exact hfound.mp hslot
    · cases h
  · refine List.Forall₂.imp fun name slot h => ?_
    rw [hfound.mpr h]

namespace Coherent

/-- Going up ends before more classes are met than there are. -/
theorem ancestor?_length (h : s.Coherent) (hc : c ∈ s.classes) : s.ancestor? s.classes.length c = none := by
  refine Option.eq_none_iff_forall_ne_some.mpr fun d hd => ?_
  have hsome : ∀ i ∈ List.range (s.classes.length + 1), ∃ e, s.ancestor? i c = some e := by
    intro i hi
    exact exists_ancestor?_of_le (Nat.lt_succ_iff.mp (List.mem_range.mp hi)) hd
  have hnodup : ((List.range (s.classes.length + 1)).map fun i =>
      (s.ancestor? i c).map Class.name).Nodup := by
    refine List.pairwise_map.mpr (List.pairwise_lt_range.imp_of_mem ?_)
    intro i j hi hj hlt heq
    obtain ⟨d, hd⟩ := hsome i hi
    obtain ⟨e, he⟩ := hsome j hj
    rw [hd, he, Option.map_some, Option.map_some, Option.some.injEq] at heq
    exact h.acyclic c hc i j d e hlt hd he heq
  -- one class more than there are would have names that are pairwise different
  have hsub : ((List.range (s.classes.length + 1)).map fun i => (s.ancestor? i c).map Class.name) ⊆
      s.classes.map fun e => some e.name := by
    intro name hname
    obtain ⟨i, hi, rfl⟩ := List.mem_map.mp hname
    obtain ⟨e, he⟩ := hsome i hi
    rw [he]
    exact List.mem_map.mpr ⟨e, mem_of_ancestor? hc he, rfl⟩
  have hle := hnodup.length_le_of_subset hsub
  simp only [List.length_map, List.length_range] at hle
  omega

theorem exists_ownSlots (h : s.Coherent) (hc : c ∈ s.classes) : ∃ own, c.ownSlots s = .ok own := by
  apply Except.exists_mapM_eq_ok
  intro name hname
  obtain ⟨slot, hslot, rfl⟩ := List.mem_map.mp (h.declared c hc name hname)
  have hfound : s.slot? slot.name = some slot := (List.find?_key_eq_some_iff h.slots).mpr ⟨hslot, rfl⟩
  exact ⟨slot, by rw [hfound]⟩

theorem exists_resolves_of_ancestor? (h : s.Coherent) {n : Nat} (hc : c ∈ s.classes)
    (hend : s.ancestor? n c = none) : ∃ lineage slots, s.Resolves c lineage slots := by
  induction n generalizing c with
  | zero => cases hend
  | succ n ih =>
    obtain ⟨own, hown⟩ := h.exists_ownSlots hc
    cases hparent : c.parent with
    | none => exact ⟨_, _, .root hparent hown⟩
    | some parent =>
      obtain ⟨p, hmem, hname⟩ := List.mem_map.mp (h.parents c hc parent hparent)
      have hp : s.class? parent = some p := (List.find?_key_eq_some_iff h.classes).mpr ⟨hmem, hname⟩
      have hend' : s.ancestor? n p = none := by simpa [ancestor?, parent?, hparent, hp] using hend
      obtain ⟨lineage, inherited, hresolves⟩ := ih hmem hend'
      exact ⟨_, _, .child hparent hp hresolves hown⟩

end Coherent

/-- A schema is coherent when its names are pairwise different and its classes have derivations. -/
theorem coherent_iff : s.Coherent ↔ (s.classes.map Class.name).Nodup ∧ (s.slots.map Slot.name).Nodup ∧
    (s.types.map LiteralType.name).Nodup ∧ ∀ c ∈ s.classes, ∃ lineage slots, s.Resolves c lineage slots := by
  constructor
  · intro h
    refine ⟨h.classes, h.slots, h.types, ?_⟩
    intro c hc
    exact h.exists_resolves_of_ancestor? hc (h.ancestor?_length hc)
  · rintro ⟨hclasses, hslots, htypes, hall⟩
    refine ⟨hclasses, hslots, htypes, ?_, ?_, ?_⟩
    · intro c hc parent hparent
      obtain ⟨_, _, hresolves⟩ := hall c hc
      cases hresolves with
      | root hnone _ => simp [hnone] at hparent
      | child hsome hp _ _ =>
        cases hsome.symm.trans hparent
        obtain ⟨hmem, hname⟩ := mem_of_class? hp
        exact List.mem_map.mpr ⟨_, hmem, hname⟩
    · intro c hc name hname
      obtain ⟨_, _, hresolves⟩ := hall c hc
      have hown : ∃ own, c.ownSlots s = .ok own := by
        cases hresolves with
        | root _ hown => exact ⟨_, hown⟩
        | child _ _ _ hown => exact ⟨_, hown⟩
      obtain ⟨own, hown⟩ := hown
      obtain ⟨slot, _, hslot, rfl⟩ := ((ownSlots_eq_ok_iff hslots).mp hown).exists_of_mem_left hname
      exact List.mem_map.mpr ⟨slot, hslot, rfl⟩
    · intro c hc m n d e hlt hd he heq
      -- both ancestors stand in the lineage, whose names are pairwise different
      obtain ⟨lineage, _, hresolves⟩ := hall c hc
      have hm := hresolves.getElem?_lineage m
      have hn := hresolves.getElem?_lineage n
      rw [hd, Option.map_some, heq] at hm
      rw [he, Option.map_some] at hn
      obtain ⟨hbound, _⟩ := List.getElem?_eq_some_iff.mp hm
      have hnodup := hresolves.nodup (class?_of_mem hclasses hc)
      exact Nat.ne_of_lt hlt ((List.getElem?_inj hbound hnodup).mp (hm.trans hn.symm))

end Schema

namespace View

variable {s : Schema} {v : View} {c : Class}

theorem exists_resolves (h : ofSchema s = .ok v) (hc : c ∈ s.classes) :
    ∃ lineage slots, s.Resolves c lineage slots ∧ v.slots c.name = .ok slots := by
  obtain ⟨slots, hslots⟩ := exists_slots h hc
  obtain ⟨lineage, hresolves⟩ :=
    (sound_slotTable h).resolves (class?_of_mem h hc) (slots_eq_ok_iff.mp hslots)
  exact ⟨lineage, slots, hresolves, hslots⟩

/-- The slots of a class in a view are those of its parent, if it has one, and then its own. -/
theorem exists_own_slots (h : ofSchema s = .ok v) (hc : c ∈ s.classes) :
    ∃ own, List.Forall₂ (fun name slot => slot ∈ s.slots ∧ slot.name = name) c.slots own ∧
      (c.parent = none → v.slots c.name = .ok own) ∧
      ∀ parent, c.parent = some parent →
        ∃ inherited, v.slots parent = .ok inherited ∧ v.slots c.name = .ok (inherited ++ own) := by
  have hnodup := (ofSchema_eq_ok_iff.mp h).2.1
  obtain ⟨lineage, slots, hresolves, hslots⟩ := exists_resolves h hc
  cases hresolves with
  | root hnone hown =>
    refine ⟨slots, (Schema.ownSlots_eq_ok_iff hnodup).mp hown, fun _ => hslots, ?_⟩
    intro parent hparent
    simp [hnone] at hparent
  | @child _ p parent lineage inherited own hsome hp hresolves hown =>
    refine ⟨own, (Schema.ownSlots_eq_ok_iff hnodup).mp hown, fun hnone => by simp [hnone] at hsome, ?_⟩
    intro parent' hparent'
    cases hsome.symm.trans hparent'
    exact ⟨inherited, slots_eq_ok_iff.mpr ((lookup_slotTable_iff h).mpr ⟨p, lineage, hp, hresolves⟩), hslots⟩

/-- There is a view of exactly the coherent schemas. In it a class has the slots of its parent and then its
own, none of them left out, and the order in which the schema lists its classes has no part in it. -/
theorem exists_iff_coherent_and_slots (s : Schema) :
    ((∃ v, ofSchema s = .ok v) ↔ s.Coherent) ∧
    ∀ v, ofSchema s = .ok v →
      (∀ c ∈ s.classes, ∃ own,
        List.Forall₂ (fun name slot => slot ∈ s.slots ∧ slot.name = name) c.slots own ∧
        (c.parent = none → v.slots c.name = .ok own) ∧
        ∀ parent, c.parent = some parent →
          ∃ inherited, v.slots parent = .ok inherited ∧ v.slots c.name = .ok (inherited ++ own)) ∧
      ∀ s', s.Reordered s' → ∃ v', ofSchema s' = .ok v' ∧ ∀ name, v'.slots name = v.slots name := by
  refine ⟨exists_ofSchema_iff.trans Schema.coherent_iff.symm, ?_⟩
  intro v hv
  refine ⟨fun c hc => exists_own_slots hv hc, ?_⟩
  intro s' hs'
  obtain ⟨v', hv', hagrees⟩ := hs'.exists_view hv
  exact ⟨v', hv', fun name => (hagrees.slots name).symm⟩

/-- A grandchild comes before its parent and before the root, and a slot is declared twice on the way. -/
def kinSchema : Schema where
  name := "kin"
  types := [{ name := "string" }]
  classes := [{ name := "Grandchild", parent := some "Child", slots := ["extra"] },
    { name := "Child", parent := some "Root", slots := ["name", "id"] }, { name := "Root", slots := ["id"] }]
  slots := [{ name := "id", required := true, identifier := true }, { name := "name" }, { name := "extra" }]

theorem slots_kin : ∃ v, ofSchema kinSchema = .ok v ∧
    ∃ inherited own, v.slots "Child" = .ok inherited ∧ v.slots "Grandchild" = .ok (inherited ++ own) ∧
      own.map Slot.name = ["extra"] := by
  obtain ⟨v, hv⟩ : ∃ v, ofSchema kinSchema = .ok v := ⟨_, rfl⟩
  obtain ⟨hkin, _⟩ := (exists_iff_coherent_and_slots kinSchema).2 v hv
  obtain ⟨own, hown, _, hslots⟩ := hkin _ List.mem_cons_self
  obtain ⟨inherited, hinherited, hall⟩ := hslots "Child" rfl
  refine ⟨v, hv, inherited, own, hinherited, hall, ?_⟩
  cases hown with
  | cons hextra hnone =>
    cases hnone
    rw [List.map_singleton, hextra.2]

end View

end SchemaTables
