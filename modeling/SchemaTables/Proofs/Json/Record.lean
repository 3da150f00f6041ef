import SchemaTables.Json.Record
import SchemaTables.Proofs.Json.Fits

/-!
Reading the fields of records, and reading back what was written of them. Fields that are written only when
they are set are found when they are set, wherever in the record they stand.
-/

namespace SchemaTables.Json

set_option autoImplicit false

section Lists
variable {α : Type} {read : Json → Option α}

theorem exists_list? {items : List Json} (h : ∀ v ∈ items, ∃ a, read v = some a) :
    ∃ l, list? read (.arr items) = some l := by
  unfold list?
  induction items with
  | nil => exact ⟨[], rfl⟩
  | cons v items ih =>
    rw [List.forall_mem_cons] at h
    obtain ⟨a, ha⟩ := h.1
    obtain ⟨l, hl⟩ := ih h.2
    exact ⟨a :: l, by simp [List.mapM_cons, ha, hl]⟩

theorem list?_map {write : α → Json} {l : List α} (h : ∀ a ∈ l, read (write a) = some a) :
    list? read (.arr (l.map write)) = some l := by
  unfold list?
  induction l with
  | nil => rfl
  | cons a l ih =>
    rw [List.forall_mem_cons] at h
    simp [List.mapM_cons, h.1, ih h.2]

theorem exists_table? {fields : List (String × Json)} (h : ∀ f ∈ fields, ∃ a, read f.2 = some a) :
    ∃ t, table? read (.obj fields) = some t := by
  have hmap : ∃ t, (fields.mapM fun f => (read f.2).map fun a => (f.1, a)) = some t := by
    induction fields with
    | nil => exact ⟨[], rfl⟩
    | cons f fields ih =>
      rw [List.forall_mem_cons] at h
      obtain ⟨a, ha⟩ := h.1
      obtain ⟨t, ht⟩ := ih h.2
      exact ⟨(f.1, a) :: t, by simp [List.mapM_cons, ha, ht]⟩
  obtain ⟨t, ht⟩ := hmap
  exact ⟨Ordered.ofPairs compare t, by simp [table?, ht]⟩

theorem table?_ofTable {t : List (String × String)} (h : Ordered.Increasing compare (t.map Prod.fst)) :
    table? text? (ofTable t) = some t := by
  have hmap : ((t.map fun e => (e.1, str e.2)).mapM fun f => (text? f.2).map fun a => (f.1, a)) = some t := by
    clear h
    induction t with
    | nil => rfl
    | cons e t ih =>
      rw [List.map_cons, List.mapM_cons, ih]
      rfl
  have hself : Ordered.ofPairs compare t = t := Ordered.ofPairs_of_increasing h
  simp only [table?, ofTable, hmap, Option.map_some, hself]

end Lists

section Fields
variable {α : Type} {r : List (String × Json)} {name : String} {read : Json → Option α} {write : α → Json}

@[simp] theorem lookup_whenSome (key : String) (o : Option α) :
    (whenSome name write o).lookup key = if key = name then o.map write else none := by
  cases o <;> by_cases h : key = name <;> simp [whenSome, List.lookup_cons, beq_eq_decide, h]

@[simp] theorem lookup_whenAny (key : String) (l : List α) :
    (whenAny name write l).lookup key =
      if key = name then (if l = [] then none else some (.arr (l.map write))) else none := by
  cases l <;> by_cases h : key = name <;> simp [whenAny, List.lookup_cons, beq_eq_decide, h]

/-- What an optional field is read as, by what stands there. -/
def optionalOf (read : Json → Option α) : Option Json → Option (Option α)
  | none | some null => some none
  | some v => (read v).map some

theorem optional_eq (r : List (String × Json)) (name : String) (read : Json → Option α) :
    optional r name read = optionalOf read (r.lookup name) :=
  rfl

theorem withDefault_eq (r : List (String × Json)) (name : String) (default : α) (read : Json → Option α) :
    withDefault r name default read = (r.lookup name).elim (some default) read := by
  unfold withDefault
  cases r.lookup name <;> rfl

theorem optionalOf_some {v : Json} (h : v ≠ null) : optionalOf read (some v) = (read v).map some := by
  cases v with
  | null => exact absurd rfl h
  | _ => rfl

/-- A field that is written when it is set is read as what it was set to. -/
theorem optionalOf_map {o : Option α} (hread : ∀ a, o = some a → read (write a) = some a)
    (hnull : ∀ a, write a ≠ null) : optionalOf read (o.map write) = some o := by
  cases o with
  | none => rfl
  | some a => rw [Option.map_some, optionalOf_some (hnull a), hread a rfl, Option.map_some]

@[simp] theorem optionalOf_map_str (o : Option String) : optionalOf text? (o.map str) = some o :=
  optionalOf_map (fun _ _ => rfl) fun _ => nofun

theorem elim_list?_map (l : List α) (hread : ∀ a ∈ l, read (write a) = some a) :
    (if l = [] then none else some (Json.arr (l.map write))).elim (some []) (list? read) = some l := by
  split_ifs with h
  · rw [h, Option.elim_none]
  · exact list?_map hread

end Fields

end SchemaTables.Json
