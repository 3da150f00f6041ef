import Mathlib.Data.List.Forall2

/-!
When computations that may fail succeed: a sequence when all its parts do, a map over a list when it
does at every element. The results then stand beside the elements they come from.
-/

set_option autoImplicit false

variable {ε δ α β : Type}

namespace List.Forall₂

variable {R : α → β → Prop} {l : List α} {r : List β}

theorem exists_of_mem_left (h : Forall₂ R l r) {a : α} (ha : a ∈ l) : ∃ b ∈ r, R a b := by
  induction h with
  | nil => cases ha
  | @cons a' b l r hab _ ih =>
    rcases List.mem_cons.mp ha with rfl | ha
    · exact ⟨b, List.mem_cons_self, hab⟩
    · obtain ⟨b', hb', hR⟩ := ih ha
      exact ⟨b', List.mem_cons_of_mem b hb', hR⟩

theorem exists_of_mem_right (h : Forall₂ R l r) {b : β} (hb : b ∈ r) : ∃ a ∈ l, R a b :=
  h.flip.exists_of_mem_left hb

theorem map_eq_map {γ : Type} {f : α → γ} {g : β → γ} (h : Forall₂ R l r)
    (hfg : ∀ a b, R a b → f a = g b) : l.map f = r.map g := by
  induction h with
  | nil => rfl
  | cons hab _ ih => rw [List.map_cons, List.map_cons, hfg _ _ hab, ih]

theorem map_eq_map_iff {γ : Type} {f : α → γ} {g : β → γ} :
    Forall₂ (fun a b => f a = g b) l r ↔ l.map f = r.map g := by
  rw [← List.forall₂_eq_eq_eq, List.forall₂_map_left_iff, List.forall₂_map_right_iff]

theorem and_right_iff {P : β → Prop} : Forall₂ (fun a b => R a b ∧ P b) l r ↔ Forall₂ R l r ∧ ∀ b ∈ r, P b := by
  constructor
  · intro h
    refine ⟨h.imp fun _ _ hab => hab.1, fun b hb => ?_⟩
    obtain ⟨_, _, _, hP⟩ := h.exists_of_mem_right hb
    exact hP
  · rintro ⟨h, hr⟩
    induction h with
    | nil => exact .nil
    | cons hab _ ih =>
      rw [List.forall_mem_cons] at hr
      exact .cons ⟨hab, hr.1⟩ (ih hr.2)

theorem imp_of_mem {S : α → β → Prop} (h : Forall₂ R l r) (hRS : ∀ a ∈ l, ∀ b, R a b → S a b) : Forall₂ S l r := by
  have hleft : Forall₂ (fun a b => a ∈ l ∧ R a b) l r := (List.forall₂_and_left _ _).mpr ⟨fun _ ha => ha, h⟩
  exact hleft.imp fun a b ⟨ha, hab⟩ => hRS a ha b hab

theorem filterMap_eq_filterMap {γ : Type} {f : α → Option γ} {g : β → Option γ} (h : Forall₂ R l r)
    (hfg : ∀ a b, R a b → f a = g b) : l.filterMap f = r.filterMap g := by
  induction h with
  | nil => rfl
  | cons hab _ ih => rw [List.filterMap_cons, List.filterMap_cons, hfg _ _ hab, ih]

theorem forall_mem_iff {P : α → Prop} {Q : β → Prop} (h : Forall₂ (fun a b => P a ↔ Q b) l r) :
    (∀ a ∈ l, P a) ↔ ∀ b ∈ r, Q b := by
  induction h with
  | nil => simp
  | cons hab _ ih => rw [List.forall_mem_cons, List.forall_mem_cons, hab, ih]

/-- What is in one of the lists belongs to the element that the list stands beside. -/
theorem mem_flatten_iff {γ : Type} {S : α → List γ → Prop} {lists : List (List γ)} {P : α → Prop} {x : γ}
    (h : Forall₂ S l lists) (hP : ∀ a list, S a list → (x ∈ list ↔ P a)) :
    x ∈ lists.flatten ↔ ∃ a ∈ l, P a := by
  induction h with
  | nil => simp
  | cons hab _ ih => rw [List.flatten_cons, List.mem_append, List.exists_mem_cons_iff, hP _ _ hab, ih]

theorem exists_iff : (∃ r, Forall₂ R l r) ↔ ∀ a ∈ l, ∃ b, R a b := by
  constructor
  · rintro ⟨r, h⟩ a ha
    obtain ⟨b, _, hab⟩ := h.exists_of_mem_left ha
    exact ⟨b, hab⟩
  · intro h
    induction l with
    | nil => exact ⟨[], .nil⟩
    | cons a l ih =>
      rw [List.forall_mem_cons] at h
      obtain ⟨b, hb⟩ := h.1
      obtain ⟨r, hr⟩ := ih h.2
      exact ⟨b :: r, .cons hb hr⟩

end List.Forall₂

namespace Except

theorem bind_eq_ok_iff {x : Except ε α} {f : α → Except ε β} {b : β} :
    x >>= f = .ok b ↔ ∃ a, x = .ok a ∧ f a = .ok b := by
  cases x with
  | error e => simp [bind, Except.bind]
  | ok a => simp [bind, Except.bind]

theorem unit_bind_eq_ok_iff {x : Except ε Unit} {f : Unit → Except ε β} {b : β} :
    x >>= f = .ok b ↔ x = .ok () ∧ f () = .ok b := by
  rw [bind_eq_ok_iff]
  exact ⟨fun ⟨_, hx, hf⟩ => ⟨hx, hf⟩, fun ⟨hx, hf⟩ => ⟨(), hx, hf⟩⟩

theorem map_eq_ok_iff {x : Except ε α} {f : α → β} {b : β} :
    x.map f = .ok b ↔ ∃ a, x = .ok a ∧ f a = b := by
  cases x with
  | error e => simp [Except.map]
  | ok a => simp [Except.map]

theorem mapError_eq_ok_iff {x : Except ε α} {f : ε → δ} {a : α} :
    x.mapError f = .ok a ↔ x = .ok a := by
  cases x with
  | error e => simp [Except.mapError]
  | ok b => simp [Except.mapError]

/-- A result that passes a test is there. -/
theorem exists_eq_ok_of_any {x : Except ε α} {p : α → Bool} (h : x.toOption.any p = true) :
    ∃ a, x = .ok a ∧ p a = true := by
  cases x with
  | error e => cases h
  | ok a => exact ⟨a, rfl, h⟩

theorem bind_eq_error_iff {x : Except ε α} {f : α → Except ε β} {e : ε} :
    x >>= f = .error e ↔ x = .error e ∨ ∃ a, x = .ok a ∧ f a = .error e := by
  cases x with
  | error e' => simp [bind, Except.bind]
  | ok a => simp [bind, Except.bind]

theorem map_eq_error_iff {x : Except ε α} {f : α → β} {e : ε} : x.map f = .error e ↔ x = .error e := by
  cases x with
  | error e' => simp [Except.map]
  | ok a => simp [Except.map]

theorem mapError_eq_error_iff {x : Except ε α} {f : ε → δ} {d : δ} :
    x.mapError f = .error d ↔ ∃ e, x = .error e ∧ f e = d := by
  cases x with
  | error e' => simp [Except.mapError]
  | ok a => simp [Except.mapError]

theorem mapM_eq_ok_iff {f : α → Except ε β} {l : List α} {r : List β} :
    l.mapM f = .ok r ↔ List.Forall₂ (fun a b => f a = .ok b) l r := by
  induction l generalizing r with
  | nil =>
    rw [List.mapM_nil, List.forall₂_nil_left_iff]
    exact ⟨fun h => (Except.ok.inj h).symm, fun h => congrArg Except.ok h.symm⟩
  | cons a l ih =>
    simp only [List.mapM_cons, bind_eq_ok_iff, List.forall₂_cons_left_iff, ih]
    constructor
    · rintro ⟨b, hb, bs, hbs, hr⟩
      exact ⟨b, bs, hb, hbs, (Except.ok.inj hr).symm⟩
    · rintro ⟨b, bs, hb, hbs, rfl⟩
      exact ⟨b, hb, bs, hbs, rfl⟩

/-- A map with positions that play no part where it succeeds. -/
theorem mapM_zipIdx_eq_ok_iff {f : α × Nat → Except ε β} {R : α → β → Prop} {l : List α} {r : List β}
    (hf : ∀ a b i, f (a, i) = .ok b ↔ R a b) (i : Nat) : (l.zipIdx i).mapM f = .ok r ↔ List.Forall₂ R l r := by
  rw [mapM_eq_ok_iff]
  induction l generalizing i r with
  | nil => rw [List.zipIdx_nil, List.forall₂_nil_left_iff, List.forall₂_nil_left_iff]
  | cons a l ih =>
    simp only [List.zipIdx_cons, List.forall₂_cons_left_iff, ih]
    simp only [hf]

theorem exists_mapM_eq_ok {f : α → Except ε β} {l : List α} (h : ∀ a ∈ l, ∃ b, f a = .ok b) :
    ∃ r, l.mapM f = .ok r := by
  induction l with
  | nil => exact ⟨[], rfl⟩
  | cons a l ih =>
    obtain ⟨b, hb⟩ := h a List.mem_cons_self
    obtain ⟨r, hr⟩ := ih fun a' ha' => h a' (List.mem_cons_of_mem a ha')
    exact ⟨b :: r, mapM_eq_ok_iff.mpr (.cons hb (mapM_eq_ok_iff.mp hr))⟩

/-- A map that fails does so at one of the elements. -/
theorem exists_of_mapM_eq_error {f : α → Except ε β} {l : List α} {e : ε} (h : l.mapM f = .error e) :
    ∃ a ∈ l, f a = .error e := by
  induction l with
  | nil => cases h
  | cons a l ih =>
    simp only [List.mapM_cons, bind_eq_error_iff] at h
    rcases h with h | ⟨_, _, h | ⟨_, _, h⟩⟩
    · exact ⟨a, List.mem_cons_self, h⟩
    · obtain ⟨a', ha', h⟩ := ih h
      exact ⟨a', List.mem_cons_of_mem a ha', h⟩
    · cases h

theorem forM_eq_ok_iff {f : α → Except ε Unit} {l : List α} :
    l.forM f = .ok () ↔ ∀ a ∈ l, f a = .ok () := by
  induction l with
  | nil => simp [pure, Except.pure]
  | cons a l ih =>
    rw [List.forall_mem_cons, ← ih]
    exact unit_bind_eq_ok_iff

/-- Whatever the computation fails with is such a fault. -/
def FailsWith (fault : ε → Prop) (x : Except ε α) : Prop := ∀ e, x = .error e → fault e

/-- The computation succeeds exactly under the condition, and what it fails with is such a fault. -/
structure Decides (condition : Prop) (fault : ε → Prop) (x : Except ε α) : Prop where
  succeeds : (∃ a, x = .ok a) ↔ condition
  fails : x.FailsWith fault

section Decisions
variable {P Q : Prop} {F : ε → Prop} {x : Except ε α} {f : α → Except ε β}

namespace FailsWith

theorem ok (a : α) : FailsWith F (.ok a : Except ε α) := fun _ h => nomatch h

theorem error {e : ε} (he : F e) : FailsWith F (.error e : Except ε α) := by
  intro e' h
  cases h
  exact he

theorem bind (hx : x.FailsWith F) (hf : ∀ a, x = .ok a → (f a).FailsWith F) : (x >>= f).FailsWith F := by
  intro e h
  rcases bind_eq_error_iff.mp h with h | ⟨a, ha, h⟩
  · exact hx e h
  · exact hf a ha e h

theorem map {g : α → β} (hx : x.FailsWith F) : (x.map g).FailsWith F :=
  fun e h => hx e (map_eq_error_iff.mp h)

theorem mapError {G : δ → Prop} {g : ε → δ} (hg : ∀ e, x = .error e → G (g e)) : (x.mapError g).FailsWith G := by
  intro d h
  obtain ⟨e, he, rfl⟩ := mapError_eq_error_iff.mp h
  exact hg e he

end FailsWith

namespace Decides

theorem congr (h : x.Decides P F) (hiff : P ↔ Q) : x.Decides Q F := ⟨h.succeeds.trans hiff, h.fails⟩

theorem ok (a : α) : Decides True F (.ok a : Except ε α) := ⟨⟨fun _ => trivial, fun _ => ⟨a, rfl⟩⟩, .ok a⟩

theorem error {e : ε} (he : F e) : Decides False F (.error e : Except ε α) :=
  ⟨⟨(fun ⟨_, h⟩ => nomatch h), False.elim⟩, .error he⟩

theorem bind (hx : x.Decides P F) (hf : ∀ a, x = .ok a → (f a).Decides Q F) :
    (x >>= f).Decides (P ∧ Q) F := by
  refine ⟨?_, hx.fails.bind fun a ha => (hf a ha).fails⟩
  constructor
  · rintro ⟨b, h⟩
    obtain ⟨a, ha, hb⟩ := bind_eq_ok_iff.mp h
    exact ⟨hx.succeeds.mp ⟨a, ha⟩, (hf a ha).succeeds.mp ⟨b, hb⟩⟩
  · rintro ⟨hP, hQ⟩
    obtain ⟨a, ha⟩ := hx.succeeds.mpr hP
    obtain ⟨b, hb⟩ := (hf a ha).succeeds.mpr hQ
    exact ⟨b, bind_eq_ok_iff.mpr ⟨a, ha, hb⟩⟩

/-- A first step that is known to succeed has no part in the decision. -/
theorem bind_ok {a : α} (hx : x = .ok a) (hf : (f a).Decides Q F) : (x >>= f).Decides Q F := by
  rw [hx]
  exact hf

theorem map {g : α → β} (hx : x.Decides P F) : (x.map g).Decides P F := by
  refine ⟨?_, hx.fails.map⟩
  rw [← hx.succeeds]
  simp only [map_eq_ok_iff, exists_comm, exists_and_left, exists_eq', and_true]

/-- A last step that cannot fail has no part in it either. -/
theorem bind_pure {g : α → β} (hx : x.Decides P F) : (x >>= fun a => pure (g a)).Decides P F :=
  (hx.bind fun a _ => ok (g a)).congr (and_iff_left trivial)

theorem mapM {P : α → Prop} {l : List α} (h : ∀ a ∈ l, (f a).Decides (P a) F) :
    (l.mapM f).Decides (∀ a ∈ l, P a) F := by
  constructor
  · constructor
    · rintro ⟨r, hr⟩ a ha
      obtain ⟨b, _, hb⟩ := (mapM_eq_ok_iff.mp hr).exists_of_mem_left ha
      exact (h a ha).succeeds.mp ⟨b, hb⟩
    · intro hall
      exact exists_mapM_eq_ok fun a ha => (h a ha).succeeds.mpr (hall a ha)
  · intro e he
    obtain ⟨a, ha, he⟩ := exists_of_mapM_eq_error he
    exact (h a ha).fails e he

end Decides

end Decisions

end Except
