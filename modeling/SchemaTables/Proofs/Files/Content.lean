import SchemaTables.Proofs.Files.Parent
import SchemaTables.Proofs.Files.Whole

/-!
The content of files that are written. What is added to a file stands at its end afterwards, and what is
written to it is all that it holds. A file that has been written can be written again.
-/

namespace SchemaTables

set_option autoImplicit false

namespace Store

variable {written : Location → Prop} {s s' : Store} {p : Path} {l : Location} {q : Place} {ps : List String}
  {i : Item} {content : Bytes}

/-- A place stays, since the directories on its way do. -/
theorem Keeps.place (h : Keeps written s s') (hq : s.place p = .ok q) : s'.place p = .ok q := by
  obtain ⟨_, hcheck, hq⟩ := Except.bind_eq_ok_iff.mp hq
  obtain ⟨m, hm, hq⟩ := Except.bind_eq_ok_iff.mp hq
  have hstart := start_congr h.here p
  split at hq
  · rename_i hdir
    refine Except.bind_eq_ok_iff.mpr ⟨(), hcheck, Except.bind_eq_ok_iff.mpr ⟨m, ?_, ?_⟩⟩
    · rw [hstart]
      exact h.foldlM_follow hm hdir (Or.inl rfl)
    · rw [h.item hdir (Or.inl rfl)]
      exact hq
  · cases hq
  · cases hq

/-- What has another content is found as before. -/
theorem locate_put_file {before after : Bytes} (h : s.locate p = .ok (l, .file before)) :
    (s.put l (.file after)).locate p = .ok (l, .file after) := by
  obtain ⟨hcheck, hfollow, hitem, hasks⟩ := locate_eq_ok_iff.mp h
  have hne : l ≠ [] := by
    rintro rfl
    cases hitem
  have hkept : ∀ m, s.item? m = some .directory → (s.put l (.file after)).item? m = some .directory := by
    intro m hm
    rw [item?_put_of_ne, hm]
    rintro rfl
    rw [hitem] at hm
    cases hm
  have hsome : ∀ m, (s.item? m).isSome → ((s.put l (.file after)).item? m).isSome := by
    intro m hm
    rw [item?_put]
    split
    · rfl
    · split
      · rfl
      · exact hm
  obtain ⟨hl, hall⟩ := foldlM_follow_eq_ok_iff.mp hfollow
  refine locate_eq_ok_iff.mpr ⟨hcheck, foldlM_follow_eq_ok_iff.mpr ⟨hl, ?_⟩, ?_, fun _ => hasks (by simp)⟩
  · intro qs part hbegins
    obtain ⟨hdir, hplain⟩ := hall qs part hbegins
    exact ⟨hkept _ hdir, fun hdot hup => ⟨(hplain hdot hup).1, hsome _ (hplain hdot hup).2⟩⟩
  · rw [item?_put, if_neg hne, if_pos rfl]

/-- What is added stands after what was there. -/
theorem read_append (h : s.append p content = .ok s') :
    ∃ before, s.read p = .ok before ∧ s'.read p = .ok (before ++ content) := by
  obtain ⟨⟨l, i⟩, hl, h⟩ := Except.bind_eq_ok_iff.mp h
  cases i with
  | directory => cases h
  | file before =>
    cases h
    refine ⟨before, ?_, ?_⟩
    · rw [read, hl]
      rfl
    · rw [read, locate_put_file hl]
      rfl

theorem item?_of_read (h : s.read p = .ok content) : s.item? (s.destination p) = some (.file content) :=
  (locate_eq_ok_iff.mp (read_eq_ok_iff.mp h)).2.2.1

/-- A file that is read after it was opened was empty or missing, or is what it was opened with. -/
theorem read_openFile {first : Bytes → Bytes} {m : Store} (h : s.openFile first p = .ok m)
    (hread : m.read p = .ok content) : s.item? (s.destination p) = none ∧ content = [] ∨
      ∃ before, s.item? (s.destination p) = some (.file before) ∧ content = first before := by
  have hitem := item?_of_read hread
  have hcontent : ∀ found, m = s.put (s.destination p) (.file found) → content = found := by
    rintro found rfl
    have hsame : (s.put (s.destination p) (.file found)).destination p = s.destination p :=
      destination_congr rfl p
    rw [hsame, item?_put, if_pos rfl] at hitem
    split at hitem
    · cases hitem
    · cases hitem
      rfl
  rcases openFile_ok h with ⟨hnone, hm⟩ | ⟨before, hfile, hm⟩
  · exact Or.inl ⟨hnone, hcontent _ hm⟩
  · exact Or.inr ⟨before, hfile, hcontent _ hm⟩

/-- A file that could be opened once, and is still there, can be opened again. -/
theorem openFile_again {first : Bytes → Bytes} {m : Store} (h : s.openFile first p = .ok m)
    (hkeeps : s.Keeps written s') (hread : s'.read p = .ok content) (start : Bytes → Bytes) :
    s'.openFile start p = .ok (s'.put (s'.destination p) (.file (start content))) := by
  obtain ⟨q, hq, h⟩ := Except.bind_eq_ok_iff.mp h
  refine Except.bind_eq_ok_iff.mpr ⟨q, hkeeps.place hq, ?_⟩
  split at h
  · cases h
  · rename_i hname
    have hlocation : q.location = s'.destination p :=
      location_of_place (hkeeps.place hq) (by cases hn : q.name <;> simp_all)
    obtain ⟨i?, hi, _⟩ := Except.bind_eq_ok_iff.mp h
    have hitem : s'.itemAt q = .ok (some (.file content)) := by
      unfold itemAt at hi ⊢
      split at hi
      · cases hi
      · rename_i hshort
        rw [if_neg hshort, hlocation, item?_of_read hread]
    rw [if_neg hname, hitem, hlocation]
    rfl

end Store

theorem Store.change_eq_ok_iff {s s' : Store} {r : Except FileError Store} {a : Unit} :
    s.change r = (.ok a, s') ↔ r = .ok s' := by
  cases r <;> simp [change]

theorem Task.returns_request_iff {ε α : Type} {wrap : FileError → ε} {r : Request α} {s s' : Store} {a : α} :
    (Task.request wrap r).Returns s a s' ↔ s.answer r = (.ok a, s') := by
  have hrun : (Task.request wrap r).run.run s = ((s.answer r).1.mapError wrap, (s.answer r).2) := rfl
  unfold Returns
  rw [hrun, Prod.mk.injEq, Except.mapError_eq_ok_iff]
  rcases s.answer r with ⟨answer, m⟩
  rw [Prod.mk.injEq]

namespace Files

variable {written : Location → Prop} {s s' : Store} {p : Path} {line text : String}

theorem writeText_returns_iff : (writeText p text).Returns s () s' ↔
    ∃ m, s.openFile (fun _ => []) p = .ok m ∧ m.append p (Text.Utf8.encode text) = .ok s' := by
  simp only [writeText, write, Task.returns_bind_iff, Task.returns_request_iff, Store.answer,
    Store.change_eq_ok_iff, exists_const]

theorem addLine_returns_iff : (addLine p line).Returns s () s' ↔
    ∃ m, s.openFile id p = .ok m ∧ m.append p (Text.Utf8.encode (line ++ "\n")) = .ok s' := by
  simp only [addLine, Task.returns_bind_iff, Task.returns_request_iff, Store.answer, Store.change_eq_ok_iff,
    exists_const]

/-- A text that is written is all that the file holds. -/
theorem read_writeText (h : (writeText p text).Returns s () s') : s'.read p = .ok (Text.Utf8.encode text) := by
  obtain ⟨m, hopen, happend⟩ := writeText_returns_iff.mp h
  obtain ⟨before, hbefore, hafter⟩ := Store.read_append happend
  rcases Store.read_openFile hopen hbefore with ⟨_, rfl⟩ | ⟨_, _, rfl⟩ <;> exact hafter

/-- A line stands at the end of the file, which may be new. -/
theorem read_addLine (h : (addLine p line).Returns s () s') : ∃ before,
    s'.read p = .ok (before ++ Text.Utf8.encode (line ++ "\n")) ∧
      (s.item? (s.destination p) = none ∧ before = [] ∨ s.item? (s.destination p) = some (.file before)) := by
  obtain ⟨m, hopen, happend⟩ := addLine_returns_iff.mp h
  obtain ⟨before, hbefore, hafter⟩ := Store.read_append happend
  refine ⟨before, hafter, ?_⟩
  rcases Store.read_openFile hopen hbefore with hnew | ⟨old, hold, rfl⟩
  · exact Or.inl hnew
  · exact Or.inr hold

/-- What has been written can be written again. -/
theorem writeText_again (h : (writeText p text).Returns s () s') (text' : String) :
    ∃ s'', (writeText p text').Returns s' () s'' := by
  obtain ⟨m, hopen, happend⟩ := writeText_returns_iff.mp h
  have hread := read_writeText h
  have honly : (writeText p text).WritesOnly fun _ => True := writeText_writesOnly trivial
  have hkeeps : s.Keeps (fun _ => True) s' := honly.keeps h fun _ _ => trivial
  have hopen' := Store.openFile_again hopen hkeeps hread fun _ => []
  have hlocate : (s'.put (s'.destination p) (.file [])).locate p = .ok (s'.destination p, .file []) :=
    Store.locate_put_file (Store.read_eq_ok_iff.mp hread)
  exact ⟨_, writeText_returns_iff.mpr ⟨_, hopen', Except.bind_eq_ok_iff.mpr ⟨_, hlocate, rfl⟩⟩⟩

end Files

end SchemaTables
