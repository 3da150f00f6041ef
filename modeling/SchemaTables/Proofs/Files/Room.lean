import SchemaTables.Proofs.Files.Ways

/-!
Room for a file. Where no file stands in the way of a path, and its names are not too long, the
directories that it takes can be made, and then a file at its end can be opened and added to.
-/

namespace SchemaTables

set_option autoImplicit false

namespace Store

variable {s m : Store} {p : Path} {content : Bytes}

/-- No file lies at the location or above it. -/
def Clear (s : Store) (l : Location) : Prop := ∀ m content, m <+: l → s.item? m ≠ some (.file content)

theorem ne_of_prefix_dropLast {l l' : Location} (h : l <+: l'.dropLast) (hne : l' ≠ []) : l ≠ l' := by
  rintro rfl
  have hlength := h.length_le
  have hpos := List.length_pos_iff.mpr hne
  rw [List.length_dropLast] at hlength
  omega

/-- No file stands in the way of the path, which ends with a name that a file may have. -/
structure Room (s : Store) (p : Path) : Prop where
  check : checkPath p = .ok ()
  short : Short p
  grounded : s.Grounded p
  name : ∃ init last, parts p = init ++ [last] ∧ last ≠ "." ∧ last ≠ ".."
  file : asksDirectory p = false
  above : s.Clear (s.destination p).dropLast
  free : s.item? (s.destination p) ≠ some .directory

namespace Room

theorem differs {written made : Location → Prop} (hp : s.Room p) (hd : s.Differs written made m)
    (hwritten : ∀ l, l <+: (s.destination p).dropLast → ¬ written l)
    (hfree : m.item? (s.destination p) ≠ some .directory) : m.Room p := by
  have hdestination := destination_congr hd.here p
  refine ⟨hp.check, hp.short, ?_, hp.name, hp.file, ?_, ?_⟩
  · intro qs hqs
    rw [start_congr hd.here]
    exact hd.item (hp.grounded qs hqs) (Or.inl rfl)
  · intro l content hl hfile
    rw [hdestination] at hl
    exact hp.above l content hl ((hd.file_iff (hwritten l hl)).mp hfile)
  · rwa [hdestination]

theorem destination_ne_nil (hp : s.Room p) : s.destination p ≠ [] := by
  obtain ⟨init, last, hparts, hdot, hup⟩ := hp.name
  rw [destination_concat hparts hdot hup]
  simp

/-- Where there is a file later there is room for it, if what is above it is not written meanwhile. -/
theorem of_read {written made : Location → Prop} (hd : s.Differs written made m) (hm : m.Sound)
    (hread : m.read p = .ok content) (hshort : Short p) (hp : s.Grounded p)
    (hwritten : ∀ l, l <+: (s.destination p).dropLast → ¬ written l)
    (hfree : s.item? (s.destination p) ≠ some .directory) : s.Room p := by
  obtain ⟨hcheck, hfollow, hitem, hasks⟩ := locate_eq_ok_iff.mp (read_eq_ok_iff.mp hread)
  have hdestination := destination_congr hd.here p
  have hne : s.destination p ≠ [] := by
    rw [← hdestination]
    intro hroot
    rw [hroot] at hitem
    cases hitem
  refine ⟨hcheck, hshort, hp, ?_, hasks (by simp), ?_, hfree⟩
  · obtain hempty | ⟨init, last, hparts⟩ := List.eq_nil_or_concat' (parts p)
    · have hstart : m.destination p = m.start p := by rw [destination, hempty]; rfl
      rw [hstart, hm.start p] at hitem
      cases hitem
    · rw [hparts, List.foldlM_append] at hfollow
      obtain ⟨l, _, hlast⟩ := Except.bind_eq_ok_iff.mp hfollow
      rw [List.foldlM_cons] at hlast
      obtain ⟨_, hlast, hend⟩ := Except.bind_eq_ok_iff.mp hlast
      cases hend
      obtain ⟨hdir, hl, _⟩ := follow_eq_ok_iff.mp hlast
      rw [hl] at hitem
      refine ⟨init, last, hparts, ?_, ?_⟩
      · rintro rfl
        rw [walk, if_pos rfl, hdir] at hitem
        cases hitem
      · rintro rfl
        rw [walk, if_neg (by decide), if_pos rfl, hm.dropLast hdir] at hitem
        cases hitem
  · intro l found hl hfile
    have hlater : m.item? l = some (.file found) := (hd.file_iff (hwritten l hl)).mpr hfile
    have hstrict : l ≠ m.destination p := by
      rw [hdestination]
      exact ne_of_prefix_dropLast hl hne
    have habove : l <+: m.destination p := hdestination ▸ hl.trans (List.dropLast_prefix _)
    have hdir := hm.above (by rw [hitem]; rfl) habove hstrict
    rw [hlater] at hdir
    cases hdir

section Opening
variable (hp : s.Room p) (h : s.Sound)
include hp h

theorem locate (hfile : s.item? (s.destination p) = some (.file content)) :
    s.locate p = .ok (s.destination p, .file content) := by
  obtain ⟨init, last, hparts, hdot, hup⟩ := hp.name
  have hdestination := destination_concat (s := s) hparts hdot hup
  have hthere : (s.item? (init.foldl walk (s.start p) ++ [last])).isSome := by
    rw [← hdestination, hfile]
    rfl
  have hdir := h.parent hthere
  have hway := h.follow_of_directory hp.grounded hp.short ⟨[last], hparts.symm⟩ hdir
  refine locate_eq_ok_iff.mpr ⟨hp.check, ?_, hfile, fun _ => hp.file⟩
  rw [hparts, List.foldlM_append]
  refine Except.bind_eq_ok_iff.mpr ⟨_, hway, ?_⟩
  rw [List.foldlM_cons]
  refine Except.bind_eq_ok_iff.mpr ⟨s.destination p, ?_, rfl⟩
  have hlast : last.utf8ByteSize ≤ maxName := hp.short last (by simp [hparts])
  apply follow_eq_ok_iff.mpr
  refine ⟨hdir, ?_, fun _ _ => ⟨hlast, hthere⟩⟩
  rw [hdestination, walk, if_neg hdot, if_neg hup]

variable (hdir : s.item? (s.destination p).dropLast = some .directory)
include hdir

theorem openFile (first : Bytes → Bytes) :
    ∃ content, s.openFile first p = .ok (s.put (s.destination p) (.file content)) := by
  obtain ⟨init, last, hparts, hdot, hup⟩ := hp.name
  have hdestination := destination_concat (s := s) hparts hdot hup
  rw [hdestination, List.dropLast_concat] at hdir
  have hplace := h.place_eq hparts hdot hup hp.grounded hp.short hp.check hdir
  have hat : s.itemAt _ = _ := itemAt_eq hparts hdot hup hp.short
  have hlocation : (⟨init.foldl walk (s.start p), some last, asksDirectory p⟩ : Place).location = s.destination p :=
    hdestination.symm
  have hopened : ∀ content, (∀ old, s.item? (s.destination p) = some (.file old) → content = first old) →
      (s.item? (s.destination p) = none → content = []) →
      s.openFile first p = .ok (s.put (s.destination p) (.file content)) := by
    intro content hold hnew
    refine Except.bind_eq_ok_iff.mpr ⟨_, hplace, ?_⟩
    rw [if_neg (by simp [hp.file])]
    refine Except.bind_eq_ok_iff.mpr ⟨_, hat, ?_⟩
    rw [hlocation]
    cases hitem : s.item? (s.destination p) with
    | none => rw [hnew hitem]
    | some i =>
      cases i with
      | directory => exact absurd hitem hp.free
      | file old => rw [hold old hitem]
  cases hitem : s.item? (s.destination p) with
  | none => exact ⟨[], hopened [] (by simp [hitem]) (by simp)⟩
  | some i =>
    cases i with
    | directory => exact absurd hitem hp.free
    | file old => exact ⟨first old, hopened (first old) (by simp [hitem]) (by simp [hitem])⟩

/-- A file that has been opened can be added to. -/
theorem openFile_append (first : Bytes → Bytes) (content : Bytes) :
    ∃ m s', s.openFile first p = .ok m ∧ m.append p content = .ok s' := by
  obtain ⟨opened, hopen⟩ := hp.openFile h hdir first
  have hne := hp.destination_ne_nil
  have hitem : (s.put (s.destination p) (.file opened)).item? (s.destination p) = some (.file opened) := by
    rw [item?_put, if_neg hne, if_pos rfl]
  have hdiffers : s.Differs (· = s.destination p) (fun _ => False) (s.put (s.destination p) (.file opened)) := by
    apply Differs.of_put
    · cases hold : s.item? (s.destination p) with
      | none => exact Or.inl rfl
      | some i => exact Or.inr ⟨by rw [← hold]; exact hp.free, rfl⟩
    · exact Or.inl ⟨⟨opened, rfl⟩, rfl⟩
  have hroom : (s.put (s.destination p) (.file opened)).Room p := by
    apply hp.differs hdiffers
    · intro l hl
      exact ne_of_prefix_dropLast hl hne
    · rw [hitem]
      simp
  have hlocate := hroom.locate (h.openFile hopen) hitem
  exact ⟨_, _, hopen, Except.bind_eq_ok_iff.mpr ⟨_, hlocate, rfl⟩⟩

end Opening

end Room

end Store

namespace Files

open Store

variable {s s' : Store} {p q : Path} {init : List String} {last : String} {cs : List Component}

/-- A directory is made in a directory, unless it is there. -/
theorem makeOne_total (h : s.Sound) (hp : s.Grounded p) (hshort : Short p) (hcheck : checkPath p = .ok ())
    (hparts : parts p = init ++ [last]) (hdot : last ≠ ".") (hup : last ≠ "..")
    (hdir : s.item? (init.foldl walk (s.start p)) = some .directory) (hclear : s.Clear (s.destination p)) :
    ∃ s', (makeOne p).run.run s = (.ok (), s') ∧ s'.item? (s.destination p) = some .directory := by
  have hplace := h.place_eq hparts hdot hup hp hshort hcheck hdir
  have hat : s.itemAt _ = _ := itemAt_eq hparts hdot hup hshort
  cases hitem : s.item? (s.destination p) with
  | some i =>
    cases i with
    | directory => exact ⟨s, makeOne_of_locate (h.locate_directory hp hshort hcheck hitem), hitem⟩
    | file content => exact absurd hitem (hclear _ content (List.prefix_refl _))
  | none =>
    have hlocation : (⟨init.foldl walk (s.start p), some last, asksDirectory p⟩ : Place).location = s.destination p :=
      (destination_concat hparts hdot hup).symm
    have hmade : s.makeDirectory p = .ok (s.put (s.destination p) .directory) := by
      refine Except.bind_eq_ok_iff.mpr ⟨_, hplace, Except.bind_eq_ok_iff.mpr ⟨_, hat, ?_⟩⟩
      rw [hitem, hlocation]
      rfl
    refine ⟨_, by rw [makeOne_run, hmade], ?_⟩
    rw [item?_put]
    split
    · rfl
    · rw [if_pos rfl]

/-- The place of a path with its last name below a location, by what is there. -/
def placeIn (p : Path) (last : String) (l : Location) : Option Item → Except FileError Place
  | some .directory => if last = "." ∨ last = ".." then .ok ⟨l, none, true⟩ else .ok ⟨l, some last, asksDirectory p⟩
  | some (.file _) => .error .notADirectory
  | none => .error .notFound

theorem makeOne_notFound (h : s.Sound) (hp : s.Grounded p) (hshort : Short p) (hcheck : checkPath p = .ok ())
    (hparts : parts p = init ++ [last]) (hdot : last ≠ ".") (hup : last ≠ "..")
    (hmissing : s.item? (init.foldl walk (s.start p)) = none) (hclear : s.Clear (s.destination p)) :
    (makeOne p).run.run s = (.error .notFound, s) := by
  have hdestination := destination_concat (s := s) hparts hdot hup
  have hinit : init <+: parts p := ⟨[last], hparts.symm⟩
  have hway : ∀ ts, ts <+: init → s.item? (ts.foldl walk (s.start p)) = none ∨
      s.item? (ts.foldl walk (s.start p)) = some .directory := by
    intro ts hts
    rcases hp.prefix_or hinit hts with habove | hback
    · cases hitem : s.item? (ts.foldl walk (s.start p)) with
      | none => exact Or.inl rfl
      | some i =>
        cases i with
        | directory => exact Or.inr rfl
        | file content =>
          have hbelow : ts.foldl walk (s.start p) <+: s.destination p := by
            rw [hdestination]
            exact habove.trans (List.prefix_append _ _)
          exact absurd hitem (hclear _ content hbelow)
    · exact Or.inr hback
  have hlost : s.place p = .error .notFound := by
    rw [place_concat hcheck hparts]
    exact h.follow_to_nothing (f := placeIn p last) (fun _ => rfl) hway hmissing fun part hpart =>
      hshort part (hinit.mem hpart)
  have hmade : s.makeDirectory p = .error .notFound := Except.bind_eq_error_iff.mpr (Or.inl hlost)
  have hnone : s.isDirectory p = false := by
    unfold isDirectory
    split
    · rename_i l hl
      have hitem := (locate_eq_ok_iff.mp hl).2.2.1
      rw [location_of_locate hl, hdestination] at hitem
      have hparent : s.item? (init.foldl walk (s.start p)) = some .directory := h.parent (by rw [hitem]; rfl)
      rw [hmissing] at hparent
      cases hparent
    · rfl
  rw [makeOne_run, hmade, hnone]
  rfl

theorem makeDirectoriesFrom_of_makeOne (h : (makeOne p).run.run s = (.ok (), s')) (depth : Nat) :
    (makeDirectoriesFrom (depth + 1) p).Returns s () s' := by
  unfold makeDirectoriesFrom
  exact Task.returns_bind_iff.mpr ⟨_, s', Task.returns_lift_iff.mpr h, rfl⟩

theorem makeDirectoriesFrom_of_parent {m : Store} {depth : Nat} (h : (makeOne p).run.run s = (.error .notFound, s))
    (hq : p.parent? = some q) (habove : (makeDirectoriesFrom depth q).Returns s () m)
    (hone : (makeOne p).run.run m = (.ok (), s')) : (makeDirectoriesFrom (depth + 1) p).Returns s () s' := by
  unfold makeDirectoriesFrom
  refine Task.returns_bind_iff.mpr ⟨_, s, Task.returns_lift_iff.mpr h, ?_⟩
  simp only [hq]
  exact Task.returns_bind_iff.mpr ⟨(), m, habove, hone⟩

theorem clear_of_makeDirectoriesFrom {depth : Nat} {l : Location} (hclear : s.Clear l)
    (h : (makeDirectoriesFrom depth p).Returns s () s') : s'.Clear l := by
  intro m content hm hfile
  exact hclear m content hm (((makeDirectoriesFrom_differs h).file_iff not_false).mp hfile)

/-- A directory can be made with those above it if the latter can where they are missing. -/
theorem makeDirectoriesFrom_succ_total (h : s.Sound) (hp : s.Grounded p) (hshort : Short p)
    (hcheck : checkPath p = .ok ()) (hq : p.parent? = some q) (hparts : parts p = parts q ++ [last]) (hdot : last ≠ ".")
    (hup : last ≠ "..") (hclear : s.Clear (s.destination p)) {depth : Nat}
    (habove : s.item? (s.destination q) = none → ∃ m, (makeDirectoriesFrom depth q).Returns s () m ∧
      m.item? (s.destination q) = some .directory) :
    ∃ s', (makeDirectoriesFrom (depth + 1) p).Returns s () s' ∧ s'.item? (s.destination p) = some .directory := by
  have hdestination : s.destination q = (parts q).foldl walk (s.start p) := by rw [destination, start_parent? hq]
  rw [hdestination] at habove
  cases hdir : s.item? ((parts q).foldl walk (s.start p)) with
  | some i =>
    cases i with
    | directory =>
      obtain ⟨s', hone, hthere⟩ := makeOne_total h hp hshort hcheck hparts hdot hup hdir hclear
      exact ⟨s', makeDirectoriesFrom_of_makeOne hone depth, hthere⟩
    | file content =>
      have hprefix : (parts q).foldl walk (s.start p) <+: s.destination p := by
        rw [destination_concat hparts hdot hup]
        exact List.prefix_append _ _
      exact absurd hdir (hclear _ content hprefix)
  | none =>
    obtain ⟨m, hrest, hmade⟩ := habove hdir
    have hkeeps := (makeDirectoriesFrom_differs hrest).toKeeps
    have hstart := start_congr hkeeps.here p
    have hground : m.Grounded p := by
      intro qs hqs
      rw [hstart]
      exact hkeeps.item (hp qs hqs) (Or.inl rfl)
    have hclear' : m.Clear (m.destination p) := by
      rw [destination_congr hkeeps.here]
      exact clear_of_makeDirectoriesFrom hclear hrest
    rw [← hstart] at hmade
    obtain ⟨s', hone, hthere⟩ := makeOne_total (h.returns hrest) hground hshort hcheck hparts hdot hup hmade hclear'
    rw [destination_congr hkeeps.here] at hthere
    have hfirst := makeOne_notFound h hp hshort hcheck hparts hdot hup hdir hclear
    exact ⟨s', makeDirectoriesFrom_of_parent hfirst hq hrest hone, hthere⟩

/-- The directories of a path with no file in its way can be made. -/
theorem makeDirectoriesFrom_total (hcs : Path.Proper cs) (h : s.Sound) (hp : s.Grounded (Path.ofComponents cs))
    (hshort : Short (Path.ofComponents cs)) (hcheck : checkPath (Path.ofComponents cs) = .ok ())
    (hclear : s.Clear (s.destination (Path.ofComponents cs))) {depth : Nat} (hdepth : cs.length ≤ depth) :
    ∃ s', (makeDirectoriesFrom depth (Path.ofComponents cs)).Returns s () s' ∧
      s'.item? (s.destination (Path.ofComponents cs)) = some .directory := by
  induction cs using List.reverseRecOn generalizing depth with
  | nil => cases hcheck
  | append_singleton cs c ih =>
    cases hitem : s.item? (s.destination (Path.ofComponents (cs ++ [c]))) with
    | some i =>
      cases i with
      | directory =>
        have hthere := h.locate_directory hp hshort hcheck hitem
        exact ⟨s, makeDirectoriesFrom_of_locate hthere depth, hitem⟩
      | file content => exact absurd hitem (hclear _ content (List.prefix_refl _))
    | none =>
      obtain ⟨n, rfl, hdot, hup⟩ := exists_name_of_missing h hcs hp hitem
      have hparent := parent?_of_components (Path.components_ofComponents hcs) (by simp)
      have hbefore : Path.Proper cs := by
        have hdrop := hcs.dropLast
        rwa [List.dropLast_concat] at hdrop
      have hparts : parts (Path.ofComponents (cs ++ [.name n])) = parts (Path.ofComponents cs) ++ [n] := by
        rw [parts_ofComponents hcs, parts_ofComponents hbefore, List.filterMap_append]
        rfl
      cases depth with
      | zero => simp at hdepth
      | succ depth =>
        apply makeDirectoriesFrom_succ_total h hp hshort hcheck hparent hparts hdot hup hclear
        intro hmissing
        have hne : (Path.ofComponents cs).text ≠ "" := by
          intro hempty
          have hnil : Path.ofComponents cs = ⟨""⟩ := congrArg Path.mk hempty
          rw [hnil] at hmissing
          exact absurd (hmissing.symm.trans (h.start ⟨""⟩)) (by simp)
        have habove : s.destination (Path.ofComponents cs) <+:
            s.destination (Path.ofComponents (cs ++ [.name n])) := by
          rw [destination_concat hparts hdot hup, destination, start_parent? hparent]
          exact List.prefix_append _ _
        apply ih hbefore (hp.parent hparent) (hshort.parent hparent)
        · exact checkPath_of_sublist hcheck (Path.chars_parent?_sublist hparent) hne
        · intro m content hm
          exact hclear m content (hm.trans habove)
        · simpa using hdepth

theorem addLine_total (h : s.Sound) (hp : s.Room p) (hdir : s.item? (s.destination p).dropLast = some .directory)
    (line : String) : ∃ s', (addLine p line).Returns s () s' := by
  obtain ⟨m, s', hopen, happend⟩ := hp.openFile_append h hdir id (Text.Utf8.encode (line ++ "\n"))
  exact ⟨s', addLine_returns_iff.mpr ⟨m, hopen, happend⟩⟩

theorem writeText_total (h : s.Sound) (hp : s.Room p) (hdir : s.item? (s.destination p).dropLast = some .directory)
    (text : String) : ∃ s', (writeText p text).Returns s () s' := by
  obtain ⟨m, s', hopen, happend⟩ := hp.openFile_append h hdir (fun _ => []) (Text.Utf8.encode text)
  exact ⟨s', writeText_returns_iff.mpr ⟨m, hopen, happend⟩⟩

/-- Where there is room for a file there will be a directory for it. -/
theorem makeParent_total (h : s.Sound) (hp : s.Room p) : ∃ m, (makeParent p).Returns s () m ∧
    m.item? (s.destination p).dropLast = some .directory ∧ m.item? (s.destination p) = s.item? (s.destination p) := by
  obtain ⟨init, last, hparts, hdot, hup⟩ := hp.name
  obtain ⟨q, hq, hway⟩ := exists_parent? hparts hdot
  have hdestination := destination_concat (s := s) hparts hdot hup
  have hdrop : (s.destination p).dropLast = s.destination q := by
    rw [hdestination, List.dropLast_concat, destination, start_parent? hq, ← foldl_walk_filter, ← hway,
      foldl_walk_filter]
  rw [hdrop]
  unfold makeParent
  split
  · rename_i dir hdirectory
    obtain ⟨hdir, hne⟩ := Option.filter_eq_some_iff.mp hdirectory
    cases hq.symm.trans hdir
    have hcomponents := Path.components_parent? hq
    have hwritten := (Path.parent?_eq_some hq).1
    have hproper := (Path.proper_components p).dropLast
    have hground := hp.grounded.parent hq
    have hcheck := checkPath_of_sublist hp.check (Path.chars_parent?_sublist hq) (by simpa using hne)
    have habove : s.Clear (s.destination q) := hdrop ▸ hp.above
    obtain ⟨m, hmade, hthere⟩ : ∃ m, (makeDirectoriesFrom q.components.length q).Returns s () m ∧
        m.item? (s.destination q) = some .directory := by
      rw [hwritten] at hground hcheck habove ⊢
      rw [Path.components_ofComponents hproper]
      apply makeDirectoriesFrom_total hproper h hground _ hcheck habove (Nat.le_refl _)
      rw [← hwritten]
      exact hp.short.parent hq
    refine ⟨m, hmade, hthere, ?_⟩
    -- the end of the path lies below its parent, which passes nothing there
    apply (makeDirectoriesFrom_differs hmade).item_eq not_false
    intro hmissing hpasses
    rcases hground.passes hpasses with hprefix | hdir
    · have hlength := hprefix.length_le
      rw [← hdrop, hdestination] at hlength
      simp at hlength
    · rw [hmissing] at hdir
      cases hdir
  · rename_i hnone
    have hempty : q = ⟨""⟩ := by
      rw [Path.directory?, hq, Option.filter_some] at hnone
      split at hnone
      · cases hnone
      · rename_i htext
        exact congrArg Path.mk (by simpa using htext)
    refine ⟨s, Task.returns_pure_iff.mpr ⟨rfl, rfl⟩, ?_, rfl⟩
    rw [hempty]
    exact h.start ⟨""⟩

end Files

end SchemaTables
