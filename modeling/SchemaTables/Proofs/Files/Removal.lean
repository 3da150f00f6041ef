import SchemaTables.Proofs.Files.Content
import SchemaTables.Proofs.Files.Footprint

/-!
Removing files. In a sound store a file is removed where its path leads to it, and what the request fails
with otherwise is what the path fails with. So after a removal that passes over a missing file there is
none: a grounded path to something that is there misses nothing on its way.
-/

namespace SchemaTables

set_option autoImplicit false

namespace Store

variable {s s' : Store} {p : Path} {l l' : Location} {i : Item} {ps : List String}

/-- Nothing lies where the path leads, which may be nowhere. -/
def Absent (s : Store) (p : Path) : Prop := p.text = "" ∨ s.item? (s.destination p) = none

theorem checkPath_ne_ok (h : p.text = "") : checkPath p ≠ .ok () := by
  have hp : p = ⟨""⟩ := congrArg Path.mk h
  rw [hp]
  decide

theorem Absent.isThere (h : s.Absent p) : s.isThere p = false := by
  unfold Store.isThere
  cases hl : s.locate p with
  | error e => rfl
  | ok found =>
    obtain ⟨l, i⟩ := found
    obtain ⟨hcheck, _, hitem, _⟩ := locate_eq_ok_iff.mp hl
    rw [location_of_locate hl] at hitem
    rcases h with hempty | hnone
    · exact absurd hcheck (checkPath_ne_ok hempty)
    · rw [hnone] at hitem
      cases hitem

theorem Sound.start (h : s.Sound) (p : Path) : s.item? (s.start p) = some .directory := by
  rw [Store.start]
  split
  · rfl
  · exact h.here

theorem Sound.dropLast (h : s.Sound) (hl : s.item? l = some .directory) : s.item? l.dropLast = some .directory := by
  obtain rfl | ⟨m, name, rfl⟩ := List.eq_nil_or_concat' l
  · exact hl
  · have hthere : (s.item? (m ++ [name])).isSome := by rw [hl]; rfl
    rw [List.dropLast_concat]
    exact h.parent hthere

/-- Only a file to which its path leads is removed. -/
theorem Sound.remove_eq (h : s.Sound) (p : Path) : s.remove p = (do
    match ← s.locate p with
    | (l, .file _) => .ok (s.erase l)
    | (_, .directory) => .error .isADirectory) := by
  cases hcheck : checkPath p with
  | error e => rw [Store.remove, place, locate, hcheck]; rfl
  | ok =>
    obtain hempty | ⟨init, last, hparts⟩ := List.eq_nil_or_concat' (parts p)
    · simp [Store.remove, place, locate, hcheck, hempty, h.start p, bind, Except.bind, pure, Except.pure]
    · rw [Store.remove, place_concat hcheck hparts, locate_concat hcheck hparts]
      cases init.foldlM s.follow (s.start p) with
      | error e => rfl
      | ok m =>
        cases hm : s.item? m with
        | none => simp [follow, hm, bind, Except.bind]
        | some i =>
          cases i with
          | file content => simp [follow, hm, bind, Except.bind]
          | directory =>
            by_cases hdots : last = "." ∨ last = ".."
            · -- such a path leads to a directory
              have hup := h.dropLast hm
              rcases hdots with rfl | rfl <;> simp [follow, hm, hup, bind, Except.bind]
            · by_cases hlong : maxName < last.utf8ByteSize
              · simp_all [follow, itemAt, bind, Except.bind]
              · rw [not_or] at hdots
                have hfollow : s.follow m last =
                    if (s.item? (m ++ [last])).isSome then .ok (m ++ [last]) else .error .notFound := by
                  simp [follow, hm, hdots, hlong]
                have hat : s.itemAt ⟨m, some last, asksDirectory p⟩ = .ok (s.item? (m ++ [last])) := by
                  simp [itemAt, hlong, Place.location]
                cases hitem : s.item? (m ++ [last]) with
                | none => simp [hm, hdots, hfollow, hat, hitem, bind, Except.bind]
                | some i =>
                  cases i with
                  | directory => simp [hm, hdots, hfollow, hat, hitem, bind, Except.bind]
                  | file content =>
                    simp only [hm, hdots, or_self, if_false, bind, Except.bind, Option.isNone_some,
                      Bool.false_eq_true, hat, hitem, hfollow, Option.isSome_some, if_true, Place.location,
                      Option.toList_some]
                    split <;> rfl

theorem exists_missing_of_follow (h : ps.foldlM s.follow l = .error .notFound) :
    ∃ ts, ts <+: ps ∧ s.item? (ts.foldl walk l) = none := by
  induction ps generalizing l with
  | nil => cases h
  | cons part ps ih =>
    rw [List.foldlM_cons] at h
    rcases Except.bind_eq_error_iff.mp h with h | ⟨m, hm, h⟩
    · unfold follow at h
      split at h
      · rename_i hdir
        split at h
        · cases h
        · rename_i hdot
          split at h
          · cases h
          · rename_i hup
            split at h
            · cases h
            · split at h
              · cases h
              · rename_i hnone
                refine ⟨[part], by simp, ?_⟩
                rw [List.foldl_cons, List.foldl_nil, walk_name _ hdot hup]
                simpa using hnone
      · cases h
      · rename_i hnone
        exact ⟨[], List.nil_prefix, hnone⟩
    · obtain ⟨ts, hts, hnone⟩ := ih h
      refine ⟨part :: ts, by simpa using hts, ?_⟩
      rw [List.foldl_cons, ← (follow_eq_ok_iff.mp hm).2.1]
      exact hnone

/-- A path that finds nothing misses something on its way, or has no way. -/
theorem exists_missing_of_locate (h : s.locate p = .error .notFound) :
    p.text = "" ∨ ∃ l, s.Passes p l ∧ s.item? l = none := by
  rcases Except.bind_eq_error_iff.mp h with hcheck | ⟨_, _, h⟩
  · left
    unfold checkPath at hcheck
    split at hcheck
    · cases hcheck
    · split at hcheck
      · rename_i hempty
        exact String.isEmpty_iff.mp hempty
      · split at hcheck <;> cases hcheck
  · right
    rcases Except.bind_eq_error_iff.mp h with hfollow | ⟨m, hm, h⟩
    · obtain ⟨ts, hts, hnone⟩ := exists_missing_of_follow hfollow
      exact ⟨_, ⟨ts, hts, rfl⟩, hnone⟩
    · refine ⟨m, ⟨parts p, List.prefix_refl _, foldl_walk_of_foldlM_follow hm⟩, ?_⟩
      split at h
      · split at h <;> cases h
      · cases h
      · assumption

/-- What is not found by a grounded path is not there. -/
theorem Sound.absent_of_notFound (h : s.Sound) (hp : s.Grounded p) (hl : s.locate p = .error .notFound) :
    s.Absent p := by
  refine (exists_missing_of_locate hl).imp_right fun ⟨l, hpasses, hmissing⟩ => ?_
  cases hend : s.item? (s.destination p) with
  | none => rfl
  | some i =>
    have hne : l ≠ s.destination p := by
      rintro rfl
      rw [hmissing] at hend
      cases hend
    have hdir := h.directory_of_passes hp (by simp [hend]) hpasses hne
    rw [hmissing] at hdir
    cases hdir

end Store

namespace Files

variable {s s' : Store} {p : Path}

theorem removeIfThere_run (s : Store) (p : Path) : (removeIfThere p).run.run s =
    match s.remove p with
    | .ok m => (.ok (), m)
    | .error .notFound => (.ok (), s)
    | .error e => (.error e, s) := by
  have hanswer : s.answer (.remove p) = s.change (s.remove p) := rfl
  change (Script.ask (.remove p) _).run s = _
  rw [Script.run_ask, hanswer]
  cases s.remove p with
  | ok m => rfl
  | error e => cases e <;> rfl

/-- Removing returns where there is a file or nothing. -/
theorem removeIfThere_returns_iff (h : s.Sound) : (removeIfThere p).Returns s () s' ↔
    (∃ content, s.locate p = .ok (s.destination p, .file content)) ∧ s' = s.erase (s.destination p) ∨
      s.locate p = .error .notFound ∧ s' = s := by
  unfold Task.Returns
  rw [removeIfThere_run, h.remove_eq]
  cases hl : s.locate p with
  | error e => cases e <;> simp [bind, Except.bind, eq_comm]
  | ok found =>
    obtain ⟨l, i⟩ := found
    rw [Store.location_of_locate hl]
    cases i <;> simp [bind, Except.bind, eq_comm]

theorem absent_of_removeIfThere (h : s.Sound) (hp : s.Grounded p) (hrun : (removeIfThere p).Returns s () s') :
    s'.Absent p := by
  rcases (removeIfThere_returns_iff h).mp hrun with ⟨⟨content, hl⟩, rfl⟩ | ⟨hl, rfl⟩
  · right
    have hitem := (Store.locate_eq_ok_iff.mp hl).2.2.1
    have hsame : (s.erase (s.destination p)).destination p = s.destination p := Store.destination_congr rfl p
    rw [hsame, Store.item?_erase, if_pos rfl, if_neg]
    intro hroot
    rw [hroot] at hitem
    cases hitem
  · exact h.absent_of_notFound hp hl

end Files

end SchemaTables
