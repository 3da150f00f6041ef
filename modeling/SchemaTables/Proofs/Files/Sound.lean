import SchemaTables.Proofs.Files.Frame
import SchemaTables.Proofs.Files.Walk

/-!
Soundness is kept. Whatever is asked of a sound store, and whatever it answers, the store afterwards is
sound; hence so is the store after any script.
-/

namespace SchemaTables

set_option autoImplicit false

namespace Store

variable {s s' : Store} {p : Path} {q : Place} {l : Location} {i : Item} {name : String}

theorem directory_of_place (h : s.place p = .ok q) : s.item? q.directory = some .directory := by
  obtain ⟨_, _, h⟩ := Except.bind_eq_ok_iff.mp h
  obtain ⟨m, _, h⟩ := Except.bind_eq_ok_iff.mp h
  split at h
  · rename_i hdir
    split at h
    · cases h
      exact hdir
    · split at h <;> cases h <;> exact hdir
  · cases h
  · cases h

namespace Sound

/-- Something put into a directory, where no directory is replaced by a file. -/
theorem put (h : s.Sound) (hdir : s.item? l = some .directory)
    (hold : s.item? (l ++ [name]) = some .directory → i = .directory) : (s.put (l ++ [name]) i).Sound := by
  have hkeep : ∀ m, s.item? m = some .directory → (s.put (l ++ [name]) i).item? m = some .directory := by
    intro m hm
    by_cases heq : m = l ++ [name]
    · subst heq
      rw [item?_put, if_neg (by simp), if_pos rfl, hold hm]
    · rw [item?_put_of_ne heq, hm]
  refine ⟨hkeep _ h.here, fun {m part} hm => hkeep m ?_⟩
  by_cases heq : m ++ [part] = l ++ [name]
  · rwa [(List.append_inj' heq rfl).1]
  · rw [item?_put_of_ne heq] at hm
    exact h.parent hm

theorem erase (h : s.Sound) (hfile : s.item? l ≠ some .directory) : (s.erase l).Sound := by
  have hkeep : ∀ m, s.item? m = some .directory → (s.erase l).item? m = some .directory := by
    intro m hm
    have hne : m ≠ l := by
      rintro rfl
      exact hfile hm
    rw [item?_erase_of_ne hne, hm]
  refine ⟨hkeep _ h.here, fun {m part} hm => hkeep m ?_⟩
  by_cases heq : m ++ [part] = l
  · rw [item?_erase, if_neg (by simp), if_pos heq] at hm
    cases hm
  · rw [item?_erase_of_ne heq] at hm
    exact h.parent hm

theorem put_place (h : s.Sound) (hq : s.place p = .ok q) (hname : q.name.isSome)
    (hold : s.item? q.location = some .directory → i = .directory) : (s.put q.location i).Sound := by
  obtain ⟨name, hname⟩ := Option.isSome_iff_exists.mp hname
  have hlocation : q.location = q.directory ++ [name] := by simp [Place.location, hname]
  rw [hlocation] at hold ⊢
  exact h.put (directory_of_place hq) hold

/-- A file with another content. -/
theorem put_file (h : s.Sound) {before after : Bytes} (hfile : s.item? l = some (.file before)) :
    (s.put l (.file after)).Sound := by
  obtain rfl | ⟨m, name, rfl⟩ := List.eq_nil_or_concat' l
  · cases hfile
  · have hthere : (s.item? (m ++ [name])).isSome := by simp [hfile]
    refine h.put (h.parent hthere) fun hdir => ?_
    rw [hfile] at hdir
    cases hdir

theorem makeDirectory (h : s.Sound) (hmade : s.makeDirectory p = .ok s') : s'.Sound := by
  obtain ⟨q, hq, hmade⟩ := Except.bind_eq_ok_iff.mp hmade
  split at hmade
  · cases hmade
  · rename_i name hname
    obtain ⟨i?, _, hmade⟩ := Except.bind_eq_ok_iff.mp hmade
    split at hmade
    · cases hmade
    · cases hmade
      exact h.put_place hq (by simp [hname]) fun _ => rfl

theorem openFile (h : s.Sound) {first : Bytes → Bytes} (hopen : s.openFile first p = .ok s') : s'.Sound := by
  obtain ⟨q, hq, hopen⟩ := Except.bind_eq_ok_iff.mp hopen
  split at hopen
  · cases hopen
  · rename_i hname
    have hsome : q.name.isSome := by cases hn : q.name <;> simp_all
    obtain ⟨i?, hi, hopen⟩ := Except.bind_eq_ok_iff.mp hopen
    have hitem := item?_of_itemAt hi
    split at hopen <;> cases hopen
    · exact h.put_place hq hsome fun hdir => by simp [hdir] at hitem
    · exact h.put_place hq hsome fun hdir => by simp [hdir] at hitem

theorem append (h : s.Sound) {content : Bytes} (happend : s.append p content = .ok s') : s'.Sound := by
  obtain ⟨⟨l, i⟩, hl, happend⟩ := Except.bind_eq_ok_iff.mp happend
  cases i with
  | directory => cases happend
  | file before =>
    cases happend
    exact h.put_file (locate_eq_ok_iff.mp hl).2.2.1

theorem remove (h : s.Sound) (hremove : s.remove p = .ok s') : s'.Sound := by
  obtain ⟨hfile, rfl⟩ := remove_ok hremove
  exact h.erase hfile

theorem rename (h : s.Sound) {source target : Path} (hrename : s.rename source target = .ok s') :
    s'.Sound := by
  obtain ⟨b, content, replaced, hb, hname, _, hreplaced, hnodir, hsource, rfl⟩ := rename_ok hrename
  have herased := h.erase (l := s.destination source) (by simp [hsource])
  have hlocation := location_of_place hb hname
  obtain ⟨name, hname⟩ := Option.isSome_iff_exists.mp hname
  have hconcat : s.destination target = b.directory ++ [name] := by simp [← hlocation, Place.location, hname]
  have hne : b.directory ≠ s.destination source := by
    intro heq
    have hdir := directory_of_place hb
    rw [heq, hsource] at hdir
    cases hdir
  rw [hconcat]
  refine herased.put (by rw [item?_erase_of_ne hne, directory_of_place hb]) fun hdir => ?_
  rw [← hconcat] at hdir
  by_cases heq : s.destination target = s.destination source
  · rw [heq, item?_erase, if_pos rfl] at hdir
    split at hdir
    · rename_i hnil
      rw [hnil] at hsource
      cases hsource
    · cases hdir
  · have hitem := item?_of_itemAt hreplaced
    rw [hlocation] at hitem
    rw [item?_erase_of_ne heq, hitem] at hdir
    exact absurd hdir hnodir

theorem change (h : s.Sound) {r : Except FileError Store} (hr : ∀ s', r = .ok s' → s'.Sound) :
    (s.change r).2.Sound := by
  cases r with
  | error e => exact h
  | ok s' => exact hr s' rfl

/-- One request keeps a store sound. -/
theorem answer (h : s.Sound) {α : Type} (r : Request α) : (s.answer r).2.Sound := by
  cases r with
  | read p | isDirectory p | isThere p | sync p | elapsed => exact h
  | makeDirectory p => exact h.change fun _ => h.makeDirectory
  | create p | touch p => exact h.change fun _ => h.openFile
  | append p content => exact h.change fun _ => h.append
  | rename source target => exact h.change fun _ => h.rename
  | remove p => exact h.change fun _ => h.remove

/-- Any script keeps a store sound. -/
theorem run {α : Type} (t : Script α) (h : s.Sound) : (t.run s).2.Sound := by
  induction t generalizing s with
  | done a => exact h
  | ask r next ih => exact ih _ (h.answer r)

theorem returns {ε α : Type} {t : Task ε α} {a : α} (h : s.Sound) (ht : t.Returns s a s') : s'.Sound := by
  have hrun := h.run t.run
  rwa [ht] at hrun

end Sound

end Store

end SchemaTables
