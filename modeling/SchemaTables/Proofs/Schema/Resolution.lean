import Mathlib.Data.List.Perm.Subperm
import SchemaTables.Proofs.Permutation
import SchemaTables.Proofs.Schema.View

/-!
Which slots a class has. They are told by the chain of its parents alone: a derivation goes from the class
up to one without a parent, and joins on the way back what each class declares. The table of a view holds
the slots that are derived so, and there is a view exactly when every class has a derivation. In which order
the classes were resolved, and which were known already, leaves no trace.
-/

namespace SchemaTables

set_option autoImplicit false

/-- The class has these slots by its lineage, which are the names of the class and of its ancestors. -/
inductive Schema.Resolves (s : Schema) : Class → List String → List Slot → Prop where
  | root {c : Class} {own : List Slot} :
      c.parent = none → c.ownSlots s = .ok own → Resolves s c [c.name] own
  | child {c p : Class} {parent : String} {lineage : List String} {inherited own : List Slot} :
      c.parent = some parent → s.class? parent = some p → Resolves s p lineage inherited →
      c.ownSlots s = .ok own → Resolves s c (c.name :: lineage) (inherited ++ own)

namespace Schema

variable {s : Schema} {c d : Class} {name : String} {lineage lineage' : List String} {slots slots' : List Slot}

theorem class?_of_mem (hnodup : (s.classes.map Class.name).Nodup) (hc : c ∈ s.classes) :
    s.class? c.name = some c :=
  (List.find?_key_eq_some_iff hnodup).mpr ⟨hc, rfl⟩

theorem class?_name (h : s.class? name = some c) : s.class? c.name = some c := by
  rw [(mem_of_class? h).2]
  exact h

namespace Resolves

theorem unique (h : s.Resolves c lineage slots) (h' : s.Resolves c lineage' slots') :
    lineage = lineage' ∧ slots = slots' := by
  induction h generalizing lineage' slots' with
  | root hparent hown =>
    cases h' with
    | root _ hown' => exact ⟨rfl, Except.ok.inj (hown.symm.trans hown')⟩
    | child hparent' _ _ _ =>
      rw [hparent] at hparent'
      cases hparent'
  | child hparent hp _ hown ih =>
    cases h' with
    | root hparent' _ =>
      rw [hparent] at hparent'
      cases hparent'
    | child hparent' hp' h' hown' =>
      cases hparent.symm.trans hparent'
      cases hp.symm.trans hp'
      obtain ⟨rfl, rfl⟩ := ih h'
      cases hown.symm.trans hown'
      exact ⟨rfl, rfl⟩

/-- An ancestor has a lineage of its own, which is shorter. -/
theorem exists_of_mem (h : s.Resolves c lineage slots) (hname : name ∈ lineage) :
    name = c.name ∨ ∃ d lineage' slots', s.class? name = some d ∧ s.Resolves d lineage' slots' ∧
      lineage'.length < lineage.length := by
  induction h with
  | root _ _ => exact Or.inl (List.mem_singleton.mp hname)
  | @child c p parent lineage inherited own _ hp hresolves _ ih =>
    rcases List.mem_cons.mp hname with heq | hmem
    · exact Or.inl heq
    · right
      rcases ih hmem with rfl | ⟨d, lineage', slots', hd, hresolves', hshorter⟩
      · exact ⟨p, lineage, inherited, class?_name hp, hresolves, Nat.lt_succ_self _⟩
      · exact ⟨d, lineage', slots', hd, hresolves', Nat.lt_succ_of_lt hshorter⟩

/-- No class is its own ancestor. -/
theorem nodup (h : s.Resolves c lineage slots) (hc : s.class? c.name = some c) : lineage.Nodup := by
  induction h with
  | root _ _ => exact List.nodup_singleton _
  | @child c p parent lineage inherited own hparent hp hresolves hown ih =>
    refine List.nodup_cons.mpr ⟨?_, ih (class?_name hp)⟩
    intro hmem
    have hwhole : s.Resolves c (c.name :: lineage) (inherited ++ own) := .child hparent hp hresolves hown
    rcases hresolves.exists_of_mem hmem with heq | ⟨d, lineage', slots', hd, hresolves', hshorter⟩
    · have hsame : c = p := by
        have hc' := class?_name hp
        rw [← heq, hc] at hc'
        exact Option.some.inj hc'
      subst hsame
      exact List.cons_ne_self _ _ (hwhole.unique hresolves).1
    · cases hc.symm.trans hd
      rw [← (hwhole.unique hresolves').1, List.length_cons] at hshorter
      omega

theorem subset (h : s.Resolves c lineage slots) (hc : c ∈ s.classes) : lineage ⊆ s.classes.map Class.name := by
  intro name hname
  rcases h.exists_of_mem hname with rfl | ⟨d, _, _, hd, _, _⟩
  · exact List.mem_map_of_mem hc
  · obtain ⟨hmem, rfl⟩ := mem_of_class? hd
    exact List.mem_map_of_mem hmem

theorem length_le (h : s.Resolves c lineage slots) (hc : s.class? c.name = some c) :
    lineage.length ≤ s.classes.length := by
  rw [← List.length_map (f := Class.name)]
  exact (List.Nodup.subperm (h.nodup hc) (h.subset (mem_of_class? hc).1)).length_le

end Resolves

end Schema

namespace SlotTable

variable {s : Schema} {c d : Class} {table table' : SlotTable} {lineage : List String} {slots : List Slot}

/-- The table holds nothing but what is derived. -/
def Sound (s : Schema) (table : SlotTable) : Prop :=
  ∀ name slots, table.lookup name = some slots →
    ∃ c lineage, s.class? name = some c ∧ s.Resolves c lineage slots

theorem Sound.append (h : Sound s table) (hc : s.class? c.name = some c)
    (hresolves : s.Resolves c lineage slots) : Sound s (table ++ [(c.name, slots)]) := by
  intro name found hfound
  rw [List.lookup_append] at hfound
  rcases Option.or_eq_some_iff.mp hfound with hbefore | ⟨_, hnew⟩
  · exact h name found hbefore
  · rw [List.lookup_cons] at hnew
    split at hnew
    · rename_i heq
      cases hnew
      rw [eq_of_beq heq]
      exact ⟨c, lineage, hc, hresolves⟩
    · cases hnew

theorem Sound.resolves (h : Sound s table) (hc : s.class? c.name = some c)
    (hslots : table.lookup c.name = some slots) : ∃ lineage, s.Resolves c lineage slots := by
  obtain ⟨d, lineage, hd, hresolves⟩ := h c.name slots hslots
  cases hc.symm.trans hd
  exact ⟨lineage, hresolves⟩

theorem Sound.resolve {fuel : Nat} {below : List String} (hsound : Sound s table)
    (hc : s.class? c.name = some c) (h : resolve s fuel below table c = .ok table') : Sound s table' := by
  induction fuel using Nat.strongRecOn generalizing below table table' c with
  | ind fuel ih =>
    rcases resolve_cases h with ⟨_, rfl⟩ | ⟨own, hparent, hown, rfl⟩ |
      ⟨less, parent, p, middle, own, hless, hparent, hp, hmiddle, hown, rfl⟩
    · exact hsound
    · exact hsound.append hc (.root hparent hown)
    · have hpname := Schema.class?_name hp
      have hsound' := ih less (hless ▸ Nat.lt_succ_self less) hsound hpname hmiddle
      obtain ⟨inherited, hinherited⟩ := Option.isSome_iff_exists.mp (resolve_grows hmiddle).2
      obtain ⟨lineage, hresolves⟩ := hsound'.resolves hpname hinherited
      rw [hinherited, Option.getD_some]
      exact hsound'.append hc (.child hparent hp hresolves hown)

theorem Sound.resolveAll {fuel : Nat} {classes : List Class} (hsound : Sound s table)
    (hclasses : ∀ c ∈ classes, s.class? c.name = some c)
    (h : classes.foldlM (SlotTable.resolve s fuel []) table = .ok table') : Sound s table' := by
  induction classes generalizing table with
  | nil =>
    cases h
    exact hsound
  | cons c classes ih =>
    obtain ⟨hc, hrest⟩ := List.forall_mem_cons.mp hclasses
    rw [List.foldlM_cons] at h
    obtain ⟨middle, hmiddle, h⟩ := Except.bind_eq_ok_iff.mp h
    exact ih (hsound.resolve hc hmiddle) hrest h

/-- A class with a derivation is resolved, as long as the fuel reaches up its lineage and only descendants
wait for it. -/
theorem exists_resolve {fuel : Nat} {below : List String} (h : s.Resolves c lineage slots)
    (hc : s.class? c.name = some c) (hfuel : lineage.length ≤ fuel + 1)
    (hbelow : ∀ name ∈ below, ∃ d lineage' slots', s.class? name = some d ∧
      s.Resolves d lineage' slots' ∧ lineage.length < lineage'.length) (table : SlotTable) :
    ∃ table', resolve s fuel below table c = .ok table' := by
  have hfresh : c.name ∉ below := by
    intro hmem
    obtain ⟨d, lineage', slots', hd, hresolves, hlonger⟩ := hbelow _ hmem
    cases hc.symm.trans hd
    rw [(h.unique hresolves).1] at hlonger
    exact Nat.lt_irrefl _ hlonger
  induction h generalizing fuel below with
  | root hparent hown =>
    unfold resolve
    split
    · exact ⟨table, rfl⟩
    · rw [if_neg (by simpa using hfresh), hparent]
      exact ⟨_, Except.bind_eq_ok_iff.mpr ⟨_, hown, rfl⟩⟩
  | @child c p parent lineage inherited own hparent hp hresolves hown ih =>
    have hpname := Schema.class?_name hp
    have hwhole : s.Resolves c (c.name :: lineage) (inherited ++ own) := .child hparent hp hresolves hown
    have hbelow' : ∀ name ∈ below ++ [c.name], ∃ d lineage' slots', s.class? name = some d ∧
        s.Resolves d lineage' slots' ∧ lineage.length < lineage'.length := by
      intro name hname
      rcases List.mem_append.mp hname with hname | hname
      · obtain ⟨d, lineage', slots', hd, hd', hlonger⟩ := hbelow name hname
        exact ⟨d, lineage', slots', hd, hd', Nat.lt_of_succ_lt hlonger⟩
      · rw [List.mem_singleton.mp hname]
        exact ⟨c, _, _, hc, hwhole, Nat.lt_succ_self _⟩
    -- what waits for the parent has a longer lineage, so it is not the parent itself
    have hfresh' : p.name ∉ below ++ [c.name] := by
      intro hmem
      obtain ⟨d, lineage', slots', hd, hd', hlonger⟩ := hbelow' _ hmem
      cases hpname.symm.trans hd
      rw [(hresolves.unique hd').1] at hlonger
      exact Nat.lt_irrefl _ hlonger
    unfold resolve
    split
    · exact ⟨table, rfl⟩
    · rw [if_neg (by simpa using hfresh), hparent]
      simp only [hp]
      cases fuel with
      | zero =>
        -- the parent has a lineage too, so that there is fuel left for it
        have hne : lineage.length ≠ 0 := by
          cases hresolves <;> simp
        simp only [List.length_cons] at hfuel
        omega
      | succ less =>
        obtain ⟨middle, hmiddle⟩ := ih hpname (Nat.le_of_succ_le_succ hfuel) hbelow' hfresh'
        exact ⟨_, Except.bind_eq_ok_iff.mpr ⟨middle, hmiddle, Except.bind_eq_ok_iff.mpr ⟨own, hown, rfl⟩⟩⟩

theorem exists_resolveAll {classes : List Class} (hclasses : ∀ c ∈ classes, s.class? c.name = some c)
    (h : ∀ c ∈ classes, ∃ lineage slots, s.Resolves c lineage slots) (table : SlotTable) :
    ∃ table', classes.foldlM (resolve s s.classes.length []) table = .ok table' := by
  induction classes generalizing table with
  | nil => exact ⟨table, rfl⟩
  | cons c classes ih =>
    obtain ⟨hc, hrest⟩ := List.forall_mem_cons.mp hclasses
    obtain ⟨⟨lineage, slots, hresolves⟩, hothers⟩ := List.forall_mem_cons.mp h
    obtain ⟨middle, hmiddle⟩ := exists_resolve hresolves hc (Nat.le_succ_of_le (hresolves.length_le hc))
      (fun _ hname => absurd hname List.not_mem_nil) table
    obtain ⟨table', htable'⟩ := ih hrest hothers middle
    rw [List.foldlM_cons]
    exact ⟨table', Except.bind_eq_ok_iff.mpr ⟨middle, hmiddle, htable'⟩⟩

end SlotTable

namespace View

variable {s : Schema} {v : View} {c : Class} {name : String} {slots : List Slot}

theorem sound_slotTable (h : ofSchema s = .ok v) : SlotTable.Sound s v.slotTable := by
  obtain ⟨hclasses, _, _, _, htable⟩ := ofSchema_eq_ok_iff.mp h
  apply SlotTable.Sound.resolveAll ?_ (fun c hc => Schema.class?_of_mem hclasses hc) htable
  intro name slots hfound
  cases hfound

theorem class?_of_mem (h : ofSchema s = .ok v) (hc : c ∈ s.classes) : s.class? c.name = some c :=
  Schema.class?_of_mem (ofSchema_eq_ok_iff.mp h).1 hc

/-- The slots of a class in a view are those that are derived. -/
theorem lookup_slotTable_iff (h : ofSchema s = .ok v) :
    v.slotTable.lookup name = some slots ↔ ∃ c lineage, s.class? name = some c ∧ s.Resolves c lineage slots := by
  constructor
  · exact sound_slotTable h name slots
  · rintro ⟨c, lineage, hc, hresolves⟩
    obtain ⟨hmem, rfl⟩ := Schema.mem_of_class? hc
    obtain ⟨found, hfound⟩ := exists_slots h hmem
    rw [slots_eq_ok_iff] at hfound
    obtain ⟨lineage', hresolves'⟩ := (sound_slotTable h).resolves hc hfound
    rw [hfound, (hresolves.unique hresolves').2]

/-- There is a view of the schemas whose names are pairwise different and whose classes have derivations. -/
theorem exists_ofSchema_iff : (∃ v, ofSchema s = .ok v) ↔ (s.classes.map Class.name).Nodup ∧
    (s.slots.map Slot.name).Nodup ∧ (s.types.map LiteralType.name).Nodup ∧
    ∀ c ∈ s.classes, ∃ lineage slots, s.Resolves c lineage slots := by
  constructor
  · rintro ⟨v, h⟩
    obtain ⟨hclasses, hslots, htypes, _, _⟩ := ofSchema_eq_ok_iff.mp h
    refine ⟨hclasses, hslots, htypes, ?_⟩
    intro c hc
    obtain ⟨slots, hfound⟩ := exists_slots h hc
    obtain ⟨lineage, hresolves⟩ :=
      (sound_slotTable h).resolves (class?_of_mem h hc) (slots_eq_ok_iff.mp hfound)
    exact ⟨lineage, slots, hresolves⟩
  · rintro ⟨hclasses, hslots, htypes, hall⟩
    obtain ⟨table, htable⟩ :=
      SlotTable.exists_resolveAll (fun c hc => Schema.class?_of_mem hclasses hc) hall []
    exact ⟨⟨s, table⟩, ofSchema_eq_ok_iff.mpr ⟨hclasses, hslots, htypes, rfl, htable⟩⟩

end View

end SchemaTables
