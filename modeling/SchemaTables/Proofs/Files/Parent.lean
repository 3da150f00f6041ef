import Mathlib.Data.String.Basic
import SchemaTables.Proofs.Files.Frame
import SchemaTables.Proofs.Files.Walk

/-!
The directory that a file lies in. Where a path leads to something its parent leads to a directory, so
there is no directory to be made for a file that is there.
-/

namespace SchemaTables

set_option autoImplicit false

open scoped List

namespace Store

variable {s s' : Store} {p q : Path} {l l' : Location} {i : Item} {ps : List String}

/-- A path that is no longer than one that can be followed, and has no other characters, can be too. -/
theorem checkPath_of_sublist (h : checkPath p = .ok ()) (hchars : q.chars <+ p.chars) (hne : q.text ≠ "") :
    checkPath q = .ok () := by
  have hsize : q.text.utf8ByteSize ≤ p.text.utf8ByteSize := by
    rw [← String.utf8Len_toList, ← String.utf8Len_toList]
    exact String.utf8Len_le_of_sublist hchars
  unfold checkPath at h ⊢
  split at h
  · cases h
  · rename_i hnull
    split at h
    · cases h
    · split at h
      · cases h
      · rename_i hshort
        have hnull' : ¬ q.chars.contains '\x00' = true := by
          simp only [List.contains_iff_mem] at hnull ⊢
          exact fun hmem => hnull (hchars.subset hmem)
        rw [if_neg hnull', if_neg (by simpa using hne), if_neg (by omega)]

/-- Parts that stay where they are make no difference where the way ends in a directory. -/
theorem foldlM_follow_of_filter (h : (ps.filter (· ≠ ".")).foldlM s.follow l = .ok l')
    (hdir : s.item? l' = some .directory) : ps.foldlM s.follow l = .ok l' := by
  induction ps generalizing l with
  | nil => exact h
  | cons part ps ih =>
    by_cases hdot : part = "."
    · rw [List.filter_cons_of_neg (by simpa using hdot)] at h
      have hhere : s.item? l = some .directory := by
        cases hps : ps.filter (· ≠ ".") with
        | nil =>
          rw [hps] at h
          cases h
          exact hdir
        | cons next rest =>
          rw [hps, List.foldlM_cons] at h
          obtain ⟨m, hm, _⟩ := Except.bind_eq_ok_iff.mp h
          exact (follow_eq_ok_iff.mp hm).1
      rw [List.foldlM_cons]
      refine Except.bind_eq_ok_iff.mpr ⟨l, follow_eq_ok_iff.mpr ⟨hhere, ?_, ?_⟩, ih h⟩
      · rw [walk, if_pos hdot]
      · exact fun hne => absurd hdot hne
    · rw [List.filter_cons_of_pos (by simpa using hdot), List.foldlM_cons] at h
      obtain ⟨m, hm, h⟩ := Except.bind_eq_ok_iff.mp h
      rw [List.foldlM_cons]
      exact Except.bind_eq_ok_iff.mpr ⟨m, hm, ih h⟩

theorem foldlM_follow_filter (h : ps.foldlM s.follow l = .ok l') :
    (ps.filter (· ≠ ".")).foldlM s.follow l = .ok l' := by
  induction ps generalizing l with
  | nil => exact h
  | cons part ps ih =>
    rw [List.foldlM_cons] at h
    obtain ⟨m, hm, h⟩ := Except.bind_eq_ok_iff.mp h
    by_cases hdot : part = "."
    · have hstay := (follow_eq_ok_iff.mp hm).2.1
      rw [walk, if_pos hdot] at hstay
      rw [List.filter_cons_of_neg (by simpa using hdot), ← hstay]
      exact ih h
    · rw [List.filter_cons_of_pos (by simpa using hdot), List.foldlM_cons]
      exact Except.bind_eq_ok_iff.mpr ⟨m, hm, ih h⟩

/-- A path goes one part further than its parent. -/
theorem exists_filter_parts (h : p.parent? = some q) (hne : q.text ≠ "") :
    ∃ part, (parts p).filter (· ≠ ".") = (parts q).filter (· ≠ ".") ++ [part] := by
  obtain ⟨hq, hcomponents⟩ := Path.parent?_eq_some h
  obtain ⟨init, last, hlast⟩ := List.eq_nil_or_concat' p.components |>.resolve_left hcomponents
  have hinit : q.components = init := by rw [Path.components_parent? h, hlast, List.dropLast_concat]
  have hplain : last.Plain := by
    have hproper := Path.proper_components p
    rw [hlast] at hproper
    cases init with
    | nil =>
      rw [hlast] at hq
      rw [hq] at hne
      exact absurd rfl hne
    | cons first rest => exact hproper.2 last (by simp)
  rw [filter_parts, filter_parts, hinit, hlast, List.filterMap_append]
  cases last with
  | root | current => exact hplain.elim
  | parent => exact ⟨"..", rfl⟩
  | name n => exact ⟨n, rfl⟩

/-- What is there lies in a directory, to which the parent of its path leads. -/
theorem exists_locate_parent? (h : s.locate p = .ok (l, i)) (hq : p.parent? = some q) (hne : q.text ≠ "") :
    ∃ l', s.locate q = .ok (l', .directory) := by
  obtain ⟨hcheck, hfollow, _, _⟩ := locate_eq_ok_iff.mp h
  obtain ⟨part, hparts⟩ := exists_filter_parts hq hne
  have hway := foldlM_follow_filter hfollow
  rw [hparts, List.foldlM_append] at hway
  obtain ⟨m, hm, hlast⟩ := Except.bind_eq_ok_iff.mp hway
  rw [List.foldlM_cons] at hlast
  obtain ⟨_, hlast, _⟩ := Except.bind_eq_ok_iff.mp hlast
  have hdir := (follow_eq_ok_iff.mp hlast).1
  rw [← start_parent? hq] at hm
  exact ⟨m, locate_eq_ok_iff.mpr ⟨checkPath_of_sublist hcheck (Path.chars_parent?_sublist hq) hne,
    foldlM_follow_of_filter hm hdir, hdir, fun hfile => absurd rfl hfile⟩⟩

theorem place_concat {init : List String} {last : String} (hcheck : checkPath p = .ok ())
    (hparts : parts p = init ++ [last]) : s.place p = (do
      let m ← init.foldlM s.follow (s.start p)
      match s.item? m with
      | some .directory =>
        if last = "." ∨ last = ".." then .ok ⟨m, none, true⟩ else .ok ⟨m, some last, asksDirectory p⟩
      | some (.file _) => .error .notADirectory
      | none => .error .notFound) := by
  rw [place, hcheck]
  simp only [hparts, List.dropLast_concat, List.getLast?_concat]
  rfl

theorem locate_concat {init : List String} {last : String} (hcheck : checkPath p = .ok ())
    (hparts : parts p = init ++ [last]) : s.locate p = (do
      let m ← init.foldlM s.follow (s.start p)
      let l ← s.follow m last
      match s.item? l with
      | some (.file content) => if asksDirectory p then .error .notADirectory else .ok (l, .file content)
      | some .directory => .ok (l, .directory)
      | none => .error .notFound) := by
  rw [locate, hcheck, hparts, List.foldlM_append]
  simp only [List.foldlM_cons, List.foldlM_nil, bind_pure, bind_assoc]
  rfl

/-- What is there can be reached as the last name of its path, unless the path ends otherwise. -/
theorem exists_place_of_locate (h : s.locate p = .ok (l, i)) (hstart : s.item? (s.start p) = some .directory) :
    ∃ q, s.place p = .ok q ∧
      (q.name.isSome → s.itemAt q = .ok (some i) ∧ q.location = l ∧ q.asksDirectory = asksDirectory p) := by
  obtain ⟨hcheck, hfollow, hitem, _⟩ := locate_eq_ok_iff.mp h
  obtain hempty | ⟨init, last, hparts⟩ := List.eq_nil_or_concat' (parts p)
  · refine ⟨⟨s.start p, none, true⟩, ?_, fun hname => absurd hname Bool.false_ne_true⟩
    refine Except.bind_eq_ok_iff.mpr ⟨(), hcheck, Except.bind_eq_ok_iff.mpr ⟨s.start p, ?_, ?_⟩⟩
    · rw [hempty]
      rfl
    · simp [hempty, hstart]
  · rw [hparts, List.foldlM_append] at hfollow
    obtain ⟨m, hm, hlast⟩ := Except.bind_eq_ok_iff.mp hfollow
    rw [List.foldlM_cons] at hlast
    obtain ⟨_, hlast, hend⟩ := Except.bind_eq_ok_iff.mp hlast
    cases hend
    obtain ⟨hdir, hl, hplain⟩ := follow_eq_ok_iff.mp hlast
    have hplace : s.place p = .ok (if last = "." ∨ last = ".." then ⟨m, none, true⟩
        else ⟨m, some last, asksDirectory p⟩) := by
      rw [place_concat hcheck hparts, hm]
      change (match s.item? m with
        | some .directory => _
        | some (.file _) => _
        | none => _) = _
      rw [hdir]
      simp only
      split <;> rfl
    by_cases hdots : last = "." ∨ last = ".."
    · rw [if_pos hdots] at hplace
      exact ⟨_, hplace, fun hname => absurd hname Bool.false_ne_true⟩
    · rw [if_neg hdots] at hplace
      refine ⟨_, hplace, fun _ => ?_⟩
      rw [not_or] at hdots
      have hlocation : m ++ [last] = l := by rw [hl, walk, if_neg hdots.1, if_neg hdots.2]
      have hshort := (hplain hdots.1 hdots.2).1
      refine ⟨?_, hlocation, rfl⟩
      rw [itemAt, if_neg (by simpa using hshort)]
      simpa [Place.location, hlocation] using hitem

theorem start_of_locate (h : s.locate p = .ok (l, .directory)) : s.item? (s.start p) = some .directory := by
  obtain ⟨_, hfollow, hitem, _⟩ := locate_eq_ok_iff.mp h
  cases hparts : parts p with
  | nil =>
    rw [hparts] at hfollow
    cases hfollow
    exact hitem
  | cons part ps =>
    rw [hparts, List.foldlM_cons] at hfollow
    obtain ⟨m, hm, _⟩ := Except.bind_eq_ok_iff.mp hfollow
    exact (follow_eq_ok_iff.mp hm).1

/-- A directory that is there is not made again. -/
theorem makeDirectory_of_locate (h : s.locate p = .ok (l, .directory)) : s.makeDirectory p = .error .exists := by
  obtain ⟨q, hq, hname⟩ := exists_place_of_locate h (start_of_locate h)
  refine Except.bind_eq_error_iff.mpr (Or.inr ⟨q, hq, ?_⟩)
  split
  · rfl
  · rename_i name hn
    rw [hn] at hname
    rw [(hname rfl).1]
    rfl

end Store

theorem Script.run_ask {α β : Type} (r : Request β) (next : Except FileError β → Script α) (s : Store) :
    (Script.ask r next).run s = (next (s.answer r).1).run (s.answer r).2 := rfl

namespace Files

variable {s : Store} {p : Path} {l : Location} {i : Item}

/-- A directory that cannot be made may be there. -/
theorem makeOne_run (s : Store) (p : Path) : (makeOne p).run.run s =
    match s.makeDirectory p with
    | .ok s' => (.ok (), s')
    | .error e => (if s.isDirectory p then .ok () else .error e, s) := by
  have hanswer : s.answer (.makeDirectory p) = s.change (s.makeDirectory p) := rfl
  change (Script.ask (.makeDirectory p) _).run s = _
  rw [Script.run_ask, hanswer]
  cases s.makeDirectory p with
  | ok s' => rfl
  | error e =>
    change (Script.ask (.isDirectory p) _).run s = _
    have hthere : s.answer (.isDirectory p) = (.ok (s.isDirectory p), s) := rfl
    rw [Script.run_ask, hthere]
    cases s.isDirectory p <;> rfl

theorem makeOne_of_locate (h : s.locate p = .ok (l, .directory)) : (makeOne p).run.run s = (.ok (), s) := by
  have hthere : s.isDirectory p = true := by rw [Store.isDirectory, h]
  rw [makeOne_run, Store.makeDirectory_of_locate h, hthere]
  rfl

theorem makeDirectoriesFrom_of_locate (h : s.locate p = .ok (l, .directory)) (depth : Nat) :
    (makeDirectoriesFrom depth p).Returns s () s := by
  cases depth with
  | zero => exact Task.returns_pure_iff.mpr ⟨rfl, rfl⟩
  | succ depth =>
    unfold makeDirectoriesFrom
    exact Task.returns_bind_iff.mpr ⟨_, s, Task.returns_lift_iff.mpr (makeOne_of_locate h), rfl⟩

/-- There is nothing to be made above what is there. -/
theorem makeParent_of_locate (h : s.locate p = .ok (l, i)) : (makeParent p).Returns s () s := by
  unfold makeParent
  split
  · rename_i dir hdir
    obtain ⟨hparent, hne⟩ := Option.filter_eq_some_iff.mp hdir
    obtain ⟨l', hl'⟩ := Store.exists_locate_parent? h hparent (by simpa using hne)
    exact makeDirectoriesFrom_of_locate hl' _
  · exact Task.returns_pure_iff.mpr ⟨rfl, rfl⟩

end Files

end SchemaTables
