import SchemaTables.Files.Store
import SchemaTables.Proofs.Except

/-!
What requests leave alone. A path leads to one place whatever is there, so a request to write can change
nothing but the file at the place of its path. Directories stay, since none is ever removed, and what was
found through them is still found.
-/

namespace SchemaTables

set_option autoImplicit false

namespace Store

variable {s s' s'' : Store} {l l' : Location} {i : Item} {p : Path} {part : String}

theorem lookup_filter_ne (items : List (Location × Item)) (l l' : Location) :
    (items.filter (·.1 ≠ l)).lookup l' = if l' = l then none else items.lookup l' := by
  induction items with
  | nil => simp
  | cons e items ih =>
    obtain ⟨m, i⟩ := e
    by_cases hm : m = l
    · subst hm
      rw [List.filter_cons_of_neg (by simp), ih]
      by_cases hl : l' = m
      · simp [hl]
      · rw [if_neg hl, if_neg hl, List.lookup_cons, beq_false_of_ne hl]
    · rw [List.filter_cons_of_pos (by simpa using hm), List.lookup_cons, List.lookup_cons, ih]
      by_cases hl : l' = m
      · subst hl
        simp [hm]
      · rw [beq_false_of_ne hl]

theorem item?_put : (s.put l i).item? l' =
    if l' = [] then some .directory else if l' = l then some i else s.item? l' := by
  unfold item?
  by_cases hnil : l' = []
  · rw [if_pos hnil, if_pos hnil]
  · rw [if_neg hnil, if_neg hnil, put, List.lookup_cons, lookup_filter_ne]
    by_cases hl : l' = l
    · simp [hl]
    · rw [beq_false_of_ne hl, if_neg hl, if_neg hl, if_neg hnil]

theorem item?_erase : (s.erase l).item? l' =
    if l' = [] then some .directory else if l' = l then none else s.item? l' := by
  unfold item?
  by_cases hnil : l' = []
  · rw [if_pos hnil, if_pos hnil]
  · rw [if_neg hnil, if_neg hnil, erase, lookup_filter_ne, if_neg hnil]

theorem item?_put_of_ne (h : l' ≠ l) : (s.put l i).item? l' = s.item? l' := by
  rw [item?_put, if_neg h]
  split
  · rename_i hnil
    rw [hnil]
    rfl
  · rfl

theorem item?_erase_of_ne (h : l' ≠ l) : (s.erase l).item? l' = s.item? l' := by
  rw [item?_erase, if_neg h]
  split
  · rename_i hnil
    rw [hnil]
    rfl
  · rfl

/-- One part of a path, followed without a look at what is there. -/
def walk (l : Location) (part : String) : Location :=
  if part = "." then l else if part = ".." then l.dropLast else l ++ [part]

theorem walk_name {part : String} (l : Location) (hdot : part ≠ ".") (hup : part ≠ "..") : walk l part = l ++ [part] := by
  rw [walk, if_neg hdot, if_neg hup]

theorem foldl_walk_concat {ps : List String} {part : String} (l : Location) (hdot : part ≠ ".") (hup : part ≠ "..") :
    (ps ++ [part]).foldl walk l = ps.foldl walk l ++ [part] := by
  rw [List.foldl_append, List.foldl_cons, List.foldl_nil, walk_name _ hdot hup]

/-- Where a path leads, whether anything is there or not. -/
def destination (s : Store) (p : Path) : Location := (parts p).foldl walk (s.start p)

theorem start_congr (h : s'.here = s.here) (p : Path) : s'.start p = s.start p := by rw [start, start, h]

theorem destination_congr (h : s'.here = s.here) (p : Path) : s'.destination p = s.destination p := by
  rw [destination, destination, start_congr h]

theorem follow_eq_ok_iff : s.follow l part = .ok l' ↔ s.item? l = some .directory ∧ l' = walk l part ∧
    (part ≠ "." → part ≠ ".." → part.utf8ByteSize ≤ maxName ∧ (s.item? (l ++ [part])).isSome) := by
  unfold follow walk
  cases hitem : s.item? l with
  | none => simp
  | some i =>
    cases i with
    | file content => simp
    | directory =>
      by_cases hdot : part = "."
      · simpa [hdot] using eq_comm
      · by_cases hup : part = ".."
        · simpa [hup] using eq_comm
        · by_cases hlong : maxName < part.utf8ByteSize
          · simp [hdot, hup, hlong, Nat.not_le.mpr hlong]
          · by_cases hthere : (s.item? (l ++ [part])).isSome
            · simpa [hdot, hup, hlong, hthere, Nat.le_of_not_lt hlong] using eq_comm
            · simp [hdot, hup, hlong, hthere]

theorem foldl_walk_of_foldlM_follow {ps : List String} (h : ps.foldlM s.follow l = .ok l') :
    ps.foldl walk l = l' := by
  induction ps generalizing l with
  | nil => exact Except.ok.inj h
  | cons part ps ih =>
    rw [List.foldlM_cons] at h
    obtain ⟨m, hm, h⟩ := Except.bind_eq_ok_iff.mp h
    rw [List.foldl_cons, ← (follow_eq_ok_iff.mp hm).2.1]
    exact ih h

theorem locate_eq_ok_iff : s.locate p = .ok (l, i) ↔ checkPath p = .ok () ∧
    (parts p).foldlM s.follow (s.start p) = .ok l ∧ s.item? l = some i ∧
    (i ≠ .directory → asksDirectory p = false) := by
  rw [locate, Except.unit_bind_eq_ok_iff]
  simp only [Except.bind_eq_ok_iff]
  constructor
  · rintro ⟨hcheck, m, hm, h⟩
    refine ⟨hcheck, ?_⟩
    split at h
    · rename_i content hitem
      split at h
      · cases h
      · rename_i hfile
        cases h
        exact ⟨hm, hitem, fun _ => by simpa using hfile⟩
    · rename_i hitem
      cases h
      exact ⟨hm, hitem, fun hne => absurd rfl hne⟩
    · cases h
  · rintro ⟨hcheck, hl, hitem, hasks⟩
    refine ⟨hcheck, l, hl, ?_⟩
    rw [hitem]
    cases i with
    | directory => rfl
    | file content => simp [hasks]

theorem location_of_locate (h : s.locate p = .ok (l, i)) : l = s.destination p :=
  (foldl_walk_of_foldlM_follow (locate_eq_ok_iff.mp h).2.1).symm

theorem read_eq_ok_iff {content : Bytes} :
    s.read p = .ok content ↔ s.locate p = .ok (s.destination p, .file content) := by
  simp only [read, Except.bind_eq_ok_iff]
  constructor
  · rintro ⟨⟨l, i⟩, hlocate, h⟩
    cases i with
    | directory => cases h
    | file found =>
      cases h
      rw [hlocate, location_of_locate hlocate]
  · intro h
    exact ⟨_, h, rfl⟩

/-- A place with a name is where its path leads. -/
theorem location_of_place {q : Place} (h : s.place p = .ok q) (hname : q.name.isSome) :
    q.location = s.destination p := by
  obtain ⟨_, _, h⟩ := Except.bind_eq_ok_iff.mp h
  obtain ⟨m, hm, h⟩ := Except.bind_eq_ok_iff.mp h
  split at h
  · split at h
    · cases h
      cases hname
    · rename_i name hlast
      split at h
      · cases h
        cases hname
      · rename_i hplain
        rw [not_or] at hplain
        cases h
        have hparts : parts p = (parts p).dropLast ++ [name] := by
          rw [List.dropLast_append_getLast? name hlast]
        rw [destination, hparts, List.foldl_append, foldl_walk_of_foldlM_follow hm]
        simp [Place.location, walk, hplain]
  · cases h
  · cases h

end Store

end SchemaTables
