import SchemaTables.Files.Whole
import SchemaTables.Proofs.Files.Store

/-!
Frames of scripts. A script that asks to write nothing but certain paths keeps every directory and every
file that these paths do not lead to, whatever is answered to it. What can be read there before it runs
can be read there afterwards.
-/

namespace SchemaTables

set_option autoImplicit false

/-- The later store has the directories of the earlier one, and its files but those that may be written. -/
structure Store.Keeps (written : Location → Prop) (s s' : Store) : Prop where
  here : s'.here = s.here
  item : ∀ {l i}, s.item? l = some i → i = .directory ∨ ¬ written l → s'.item? l = some i

namespace Store

variable {written : Location → Prop} {s s' s'' : Store} {l l' : Location} {i : Item} {p : Path}

namespace Keeps

theorem refl (s : Store) : Keeps written s s := ⟨rfl, fun hi _ => hi⟩

theorem trans (h : Keeps written s s') (h' : Keeps written s' s'') : Keeps written s s'' :=
  ⟨h'.here.trans h.here, fun hi hfree => h'.item (h.item hi hfree) hfree⟩

theorem follow (h : Keeps written s s') {part : String} (hl : s.follow l part = .ok l')
    (hi : s.item? l' = some i) (hfree : i = .directory ∨ ¬ written l') : s'.follow l part = .ok l' := by
  obtain ⟨hdir, rfl, hplain⟩ := follow_eq_ok_iff.mp hl
  refine follow_eq_ok_iff.mpr ⟨h.item hdir (Or.inl rfl), rfl, ?_⟩
  intro hdot hup
  refine ⟨(hplain hdot hup).1, ?_⟩
  have hwalk : walk l part = l ++ [part] := by rw [walk, if_neg hdot, if_neg hup]
  rw [hwalk] at hi hfree
  rw [h.item hi hfree]
  rfl

/-- A walk that is taken once can be taken again, since all but its end are directories. -/
theorem foldlM_follow (h : Keeps written s s') {ps : List String} (hl : ps.foldlM s.follow l = .ok l')
    (hi : s.item? l' = some i) (hfree : i = .directory ∨ ¬ written l') :
    ps.foldlM s'.follow l = .ok l' := by
  induction ps generalizing l with
  | nil => exact hl
  | cons part ps ih =>
    rw [List.foldlM_cons] at hl ⊢
    obtain ⟨m, hm, hl⟩ := Except.bind_eq_ok_iff.mp hl
    refine Except.bind_eq_ok_iff.mpr ⟨m, ?_, ih hl⟩
    cases ps with
    | nil =>
      cases hl
      exact h.follow hm hi hfree
    | cons next ps =>
      rw [List.foldlM_cons] at hl
      obtain ⟨m', hm', _⟩ := Except.bind_eq_ok_iff.mp hl
      exact h.follow hm (follow_eq_ok_iff.mp hm').1 (Or.inl rfl)

theorem locate (h : Keeps written s s') (hl : s.locate p = .ok (l, i))
    (hfree : i = .directory ∨ ¬ written l) : s'.locate p = .ok (l, i) := by
  obtain ⟨hcheck, hwalk, hi, hasks⟩ := locate_eq_ok_iff.mp hl
  refine locate_eq_ok_iff.mpr ⟨hcheck, ?_, h.item hi hfree, hasks⟩
  have hstart := start_congr h.here p
  rw [hstart]
  exact h.foldlM_follow hwalk hi hfree

theorem read (h : Keeps written s s') {content : Bytes} (hread : s.read p = .ok content)
    (hfree : ¬ written (s.destination p)) : s'.read p = .ok content := by
  rw [read_eq_ok_iff, destination_congr h.here]
  exact h.locate (read_eq_ok_iff.mp hread) (Or.inr hfree)

/-- A store that differs at one location only, where there was nothing or a file that may be written. -/
theorem of_change (hhere : s'.here = s.here) (helse : ∀ m, m ≠ l → s'.item? m = s.item? m)
    (hl : s.item? l = none ∨ s.item? l ≠ some .directory ∧ written l) : Keeps written s s' := by
  refine ⟨hhere, ?_⟩
  intro m i hm hfree
  by_cases heq : m = l
  · subst heq
    rcases hl with hnone | ⟨hfile, hwritten⟩
    · rw [hnone] at hm
      cases hm
    · rcases hfree with rfl | hnot
      · exact absurd hm hfile
      · exact absurd hwritten hnot
  · rw [helse m heq, hm]

theorem put (hl : s.item? l = none ∨ s.item? l ≠ some .directory ∧ written l) :
    Keeps written s (s.put l i) :=
  .of_change rfl (fun _ hm => item?_put_of_ne hm) hl

theorem erase (hl : s.item? l ≠ some .directory) (hwritten : written l) :
    Keeps written s (s.erase l) :=
  .of_change rfl (fun _ hm => item?_erase_of_ne hm) (Or.inr ⟨hl, hwritten⟩)

end Keeps

theorem item?_of_itemAt {q : Place} {i? : Option Item} (h : s.itemAt q = .ok i?) :
    s.item? q.location = i? := by
  unfold itemAt at h
  split at h
  · cases h
  · exact Except.ok.inj h

theorem makeDirectory_ok (h : s.makeDirectory p = .ok s') :
    s.item? (s.destination p) = none ∧ s' = s.put (s.destination p) .directory := by
  obtain ⟨q, hq, h⟩ := Except.bind_eq_ok_iff.mp h
  split at h
  · cases h
  · rename_i name hname
    have hlocation : q.location = s.destination p := location_of_place hq (by simp [hname])
    obtain ⟨i?, hi, h⟩ := Except.bind_eq_ok_iff.mp h
    have hitem := item?_of_itemAt hi
    rw [hlocation] at hitem h
    split at h
    · cases h
    · rename_i hnone
      cases h
      refine ⟨?_, rfl⟩
      rw [hitem]
      simpa using hnone

/-- A file that is opened is made empty, or keeps of its content what it starts with. -/
theorem openFile_ok {first : Bytes → Bytes} (h : s.openFile first p = .ok s') :
    (s.item? (s.destination p) = none ∧ s' = s.put (s.destination p) (.file [])) ∨
      ∃ before, s.item? (s.destination p) = some (.file before) ∧
        s' = s.put (s.destination p) (.file (first before)) := by
  obtain ⟨q, hq, h⟩ := Except.bind_eq_ok_iff.mp h
  split at h
  · cases h
  · rename_i hname
    have hlocation : q.location = s.destination p := location_of_place hq (by cases hn : q.name <;> simp_all)
    obtain ⟨i?, hi, h⟩ := Except.bind_eq_ok_iff.mp h
    have hitem := item?_of_itemAt hi
    rw [hlocation] at hitem h
    split at h
    · cases h
    · cases h
      exact Or.inr ⟨_, hitem, rfl⟩
    · cases h
      exact Or.inl ⟨hitem, rfl⟩

theorem append_ok {content : Bytes} (h : s.append p content = .ok s') :
    ∃ before, s.item? (s.destination p) = some (.file before) ∧
      s' = s.put (s.destination p) (.file (before ++ content)) := by
  obtain ⟨⟨l, i⟩, hl, h⟩ := Except.bind_eq_ok_iff.mp h
  have hitem := (locate_eq_ok_iff.mp hl).2.2.1
  rw [location_of_locate hl] at hitem h
  cases i with
  | directory => cases h
  | file before =>
    cases h
    exact ⟨before, hitem, rfl⟩

theorem remove_ok (h : s.remove p = .ok s') :
    s.item? (s.destination p) ≠ some .directory ∧ s' = s.erase (s.destination p) := by
  obtain ⟨q, hq, h⟩ := Except.bind_eq_ok_iff.mp h
  split at h
  · cases h
  · rename_i hname
    have hlocation : q.location = s.destination p := location_of_place hq (by cases hn : q.name <;> simp_all)
    obtain ⟨i?, hi, h⟩ := Except.bind_eq_ok_iff.mp h
    have hitem := item?_of_itemAt hi
    rw [hlocation] at hitem h
    split at h
    · cases h
    · cases h
    · split at h
      · cases h
      · cases h
        exact ⟨by simp [hitem], rfl⟩

/-- A file that is given another name is found under it, in place of a file or of nothing. -/
theorem rename_ok {source target : Path} (h : s.rename source target = .ok s') :
    ∃ q content replaced, s.place target = .ok q ∧ q.name.isSome ∧ q.asksDirectory = false ∧
      s.itemAt q = .ok replaced ∧ replaced ≠ some .directory ∧
      s.item? (s.destination source) = some (.file content) ∧
      s' = (s.erase (s.destination source)).put (s.destination target) (.file content) := by
  obtain ⟨a, ha, h⟩ := Except.bind_eq_ok_iff.mp h
  obtain ⟨b, hb, h⟩ := Except.bind_eq_ok_iff.mp h
  split at h
  · cases h
  · rename_i hnames
    simp only [Bool.or_eq_true, not_or, Option.isNone_iff_eq_none, ← ne_eq, Option.ne_none_iff_isSome] at hnames
    have hsource := location_of_place ha hnames.1
    have htarget := location_of_place hb hnames.2
    obtain ⟨moved, hmoved, h⟩ := Except.bind_eq_ok_iff.mp h
    split at h
    · cases h
    · cases h
    · rename_i content
      obtain ⟨replaced, hreplaced, h⟩ := Except.bind_eq_ok_iff.mp h
      split at h
      · cases h
      · rename_i hasks
        split at h
        · cases h
        · rename_i hfile
          cases h
          rw [Bool.or_eq_true, not_or, Bool.not_eq_true, Bool.not_eq_true] at hasks
          refine ⟨b, content, replaced, hb, hnames.2, hasks.2, hreplaced, hfile, ?_, ?_⟩
          · rw [← hsource]
            exact item?_of_itemAt hmoved
          · rw [hsource, htarget]

theorem keeps_change {r : Except FileError Store} (h : ∀ s', r = .ok s' → Keeps written s s') :
    Keeps written s (s.change r).2 := by
  cases r with
  | error e => exact .refl s
  | ok s' => exact h s' rfl

end Store

/-- The request writes to no path but those that are allowed. -/
def Request.WritesOnly (allowed : Path → Prop) {β : Type} : Request β → Prop
  | .create p | .touch p | .append p _ | .remove p => allowed p
  | .rename _ _ => False
  | .read _ | .isDirectory _ | .isThere _ | .makeDirectory _ | .sync _ | .elapsed => True

section Frames
variable {allowed : Path → Prop} {written : Location → Prop} {s : Store} {α β : Type}

theorem Store.keeps_answer {r : Request β} (hr : r.WritesOnly allowed)
    (hallowed : ∀ p, allowed p → written (s.destination p)) : Keeps written s (s.answer r).2 := by
  cases r with
  | read p | isDirectory p | isThere p | sync p | elapsed => exact .refl s
  | makeDirectory p =>
    refine keeps_change fun s' h => ?_
    obtain ⟨hnone, rfl⟩ := makeDirectory_ok h
    exact .put (Or.inl hnone)
  | create p | touch p =>
    refine keeps_change fun s' h => ?_
    rcases openFile_ok h with ⟨hnone, rfl⟩ | ⟨before, hfile, rfl⟩
    · exact .put (Or.inl hnone)
    · exact .put (Or.inr ⟨by simp [hfile], hallowed p hr⟩)
  | append p content =>
    refine keeps_change fun s' h => ?_
    obtain ⟨before, hfile, rfl⟩ := append_ok h
    exact .put (Or.inr ⟨by simp [hfile], hallowed p hr⟩)
  | rename source target => exact hr.elim
  | remove p =>
    refine keeps_change fun s' h => ?_
    obtain ⟨hfile, rfl⟩ := remove_ok h
    exact .erase hfile (hallowed p hr)

/-- Whatever the answers are, the script writes to no path but those that are allowed. -/
def Script.WritesOnly (allowed : Path → Prop) : Script α → Prop
  | .done _ => True
  | .ask r next => r.WritesOnly allowed ∧ ∀ answer, (next answer).WritesOnly allowed

/-- A script keeps all that its paths do not lead to. -/
theorem Script.WritesOnly.keeps {t : Script α} (h : t.WritesOnly allowed)
    (hallowed : ∀ p, allowed p → written (s.destination p)) : s.Keeps written (t.run s).2 := by
  induction t generalizing s with
  | done a => exact .refl s
  | ask r next ih =>
    have hfirst : s.Keeps written (s.answer r).2 := Store.keeps_answer h.1 hallowed
    refine hfirst.trans (ih _ (h.2 _) ?_)
    intro p hp
    rw [Store.destination_congr hfirst.here]
    exact hallowed p hp

theorem Script.WritesOnly.bind {t : Script α} {f : α → Script β} (h : t.WritesOnly allowed)
    (hf : ∀ a, (f a).WritesOnly allowed) : (t >>= f).WritesOnly allowed := by
  change (t.bind f).WritesOnly allowed
  induction t with
  | done a => exact hf a
  | ask r next ih => exact ⟨h.1, fun answer => ih answer (h.2 answer)⟩

instance : LawfulMonad Script := LawfulMonad.mk' Script
  (fun t => by
    change t.bind Script.done = t
    induction t with
    | done a => rfl
    | ask r next ih => exact congrArg (Script.ask r) (funext ih))
  (fun _ _ => rfl)
  (fun t f g => by
    change (t.bind f).bind g = t.bind fun a => (f a).bind g
    induction t with
    | done a => rfl
    | ask r next ih => exact congrArg (Script.ask r) (funext ih))

theorem Script.run_bind (t : Script α) (f : α → Script β) (s : Store) :
    (t >>= f).run s = (f (t.run s).1).run (t.run s).2 := by
  change (t.bind f).run s = _
  induction t generalizing s with
  | done a => rfl
  | ask r next ih => exact ih _ _

end Frames

namespace Task

variable {allowed : Path → Prop} {s s' : Store} {ε α β : Type}

def WritesOnly (allowed : Path → Prop) (t : Task ε α) : Prop := t.run.WritesOnly allowed

/-- The task ends well on the store, with an answer and a store. -/
def Returns (t : Task ε α) (s : Store) (a : α) (s' : Store) : Prop := t.run.run s = (.ok a, s')

namespace WritesOnly

variable {t : Task ε α}

theorem pure (a : α) : (Pure.pure a : Task ε α).WritesOnly allowed := trivial

theorem request {wrap : FileError → ε} {r : Request α} (h : r.WritesOnly allowed) :
    (Task.request wrap r).WritesOnly allowed := ⟨h, fun _ => trivial⟩

theorem bind {f : α → Task ε β} (h : t.WritesOnly allowed) (hf : ∀ a, (f a).WritesOnly allowed) :
    (t >>= f).WritesOnly allowed := by
  refine Script.WritesOnly.bind h ?_
  intro r
  cases r with
  | ok a => exact hf a
  | error e => trivial

theorem mapM {f : α → Task ε β} {l : List α} (hf : ∀ a ∈ l, (f a).WritesOnly allowed) :
    (l.mapM f).WritesOnly allowed := by
  induction l with
  | nil => exact .pure _
  | cons a l ih =>
    rw [List.mapM_cons]
    refine .bind (hf a List.mem_cons_self) fun b => ?_
    refine .bind (ih fun a' ha' => hf a' (List.mem_cons_of_mem a ha')) fun bs => ?_
    exact .pure _

theorem keeps {written : Location → Prop} {a : α} (h : t.WritesOnly allowed) (hrun : t.Returns s a s')
    (hallowed : ∀ p, allowed p → written (s.destination p)) : s.Keeps written s' := by
  have hkeeps := Script.WritesOnly.keeps h hallowed
  rw [hrun] at hkeeps
  exact hkeeps

end WritesOnly

theorem run_bind (t : Task ε α) (f : α → Task ε β) (s : Store) :
    (t >>= f).run.run s = match t.run.run s with
      | (.ok a, m) => (f a).run.run m
      | (.error e, m) => (.error e, m) := by
  refine (Script.run_bind t.run _ s).trans ?_
  rcases t.run.run s with ⟨r, m⟩
  cases r <;> rfl

theorem returns_bind_iff {t : Task ε α} {f : α → Task ε β} {b : β} :
    (t >>= f).Returns s b s' ↔ ∃ a m, t.Returns s a m ∧ (f a).Returns m b s' := by
  unfold Returns
  rw [run_bind]
  rcases t.run.run s with ⟨r, m⟩
  cases r <;> simp

/-- Tasks that change nothing find what they find one after the other. -/
theorem mapM_run {f : α → Task ε β} {g : α → Except ε β} {l : List α} (h : ∀ a ∈ l, (f a).run.run s = (g a, s)) :
    (l.mapM f).run.run s = (l.mapM g, s) := by
  induction l with
  | nil => rfl
  | cons a l ih =>
    rw [List.forall_mem_cons] at h
    rw [List.mapM_cons, List.mapM_cons, run_bind, h.1]
    cases g a with
    | error e => rfl
    | ok b =>
      simp only
      rw [run_bind, ih h.2]
      cases l.mapM g <;> rfl

theorem exists_returns_and {t : Task ε α} {p : α → Store → Bool}
    (h : (t.run.run s).1.toOption.any (p · (t.run.run s).2) = true) : ∃ a s', t.Returns s a s' ∧ p a s' = true := by
  rcases hrun : t.run.run s with ⟨r, m⟩
  rw [hrun] at h
  cases r with
  | error e => cases h
  | ok a => exact ⟨a, m, hrun, h⟩

theorem exists_returns {t : Task ε α} {p : α → Bool} (h : (t.run.run s).1.toOption.any p = true) :
    ∃ a s', t.Returns s a s' ∧ p a = true := exists_returns_and h

theorem returns_pure_iff {a b : α} : (Pure.pure a : Task ε α).Returns s b s' ↔ a = b ∧ s = s' := by
  simp [Returns, Pure.pure, ExceptT.pure, ExceptT.run, ExceptT.mk, Script.run]

theorem returns_wrap_iff {δ : Type} {wrap : δ → ε} {t : Task δ α} {a : α} :
    (t.lift wrap).Returns s a s' ↔ t.Returns s a s' := by
  have hrun : (t.lift wrap).run.run s = ((t.run.run s).1.mapError wrap, (t.run.run s).2) :=
    Script.run_bind t.run _ s
  unfold Returns
  rw [hrun, Prod.mk.injEq, Except.mapError_eq_ok_iff]
  rcases t.run.run s with ⟨r, m⟩
  rw [Prod.mk.injEq]

theorem returns_lift_iff {t : Script α} {a : α} :
    Returns (ExceptT.lift t : ExceptT ε Script α) s a s' ↔ t.run s = (a, s') := by
  have hrun : (ExceptT.lift t : ExceptT ε Script α).run.run s = (.ok (t.run s).1, (t.run s).2) :=
    Script.run_bind t _ s
  unfold Returns
  rw [hrun, Prod.mk.injEq, Except.ok.injEq]
  rcases t.run s with ⟨b, m⟩
  rw [Prod.mk.injEq]

theorem returns_mapM_cons_iff {f : α → Task ε β} {a : α} {l : List α} {bs : List β} :
    ((a :: l).mapM f).Returns s bs s' ↔ ∃ b m rest, (f a).Returns s b m ∧ (l.mapM f).Returns m rest s' ∧ bs = b :: rest := by
  rw [List.mapM_cons]
  simp only [returns_bind_iff, returns_pure_iff]
  constructor
  · rintro ⟨b, m, hb, rest, m', hrest, rfl, rfl⟩
    exact ⟨b, m, rest, hb, hrest, rfl⟩
  · rintro ⟨b, m, rest, hb, hrest, rfl⟩
    exact ⟨b, m, hb, rest, s', hrest, rfl, rfl⟩

/-- What holds of the elements done and the store, and is kept by one element after the other, holds of all
in the end. -/
theorem mapM_invariant {f : α → Task ε β} {l : List α} {bs : List β} {P : List α → List β → Store → Prop}
    (h : (l.mapM f).Returns s bs s') (hstart : P [] [] s)
    (hstep : ∀ done a rest outs n b n', l = done ++ a :: rest → P done outs n → (f a).Returns n b n' →
      P (done ++ [a]) (outs ++ [b]) n') : P l bs s' := by
  have hloop : ∀ rest done outs n bs, l = done ++ rest → P done outs n → (rest.mapM f).Returns n bs s' →
      P l (outs ++ bs) s' := by
    intro rest
    induction rest with
    | nil =>
      intro done outs n bs hl hP h
      obtain ⟨rfl, rfl⟩ := returns_pure_iff.mp h
      simpa [hl] using hP
    | cons a rest ih =>
      intro done outs n bs hl hP h
      obtain ⟨b, m, bs', hb, hrest, rfl⟩ := returns_mapM_cons_iff.mp h
      have hnext := ih (done ++ [a]) (outs ++ [b]) m bs' (by simp [hl]) (hstep done a rest outs n b m hl hP hb) hrest
      simpa using hnext
  exact hloop l [] [] s bs rfl hstart h

/-- Tasks that return one after the other, each where those before have left off, return together. -/
theorem exists_mapM_returns {f : α → Task ε β} {g : α → β} {l : List α} {P : List α → Store → Prop}
    (hstart : P [] s) (hstep : ∀ done a rest n, l = done ++ a :: rest → P done n →
      ∃ n', (f a).Returns n (g a) n' ∧ P (done ++ [a]) n') : ∃ s', (l.mapM f).Returns s (l.map g) s' := by
  have hloop : ∀ rest done n, l = done ++ rest → P done n → ∃ s', (rest.mapM f).Returns n (rest.map g) s' := by
    intro rest
    induction rest with
    | nil =>
      intro done n _ _
      exact ⟨n, returns_pure_iff.mpr ⟨rfl, rfl⟩⟩
    | cons a rest ih =>
      intro done n hl hP
      obtain ⟨m, ha, hnext⟩ := hstep done a rest n hl hP
      obtain ⟨s', hrest⟩ := ih (done ++ [a]) m (by simp [hl]) hnext
      exact ⟨s', returns_mapM_cons_iff.mpr ⟨_, m, _, ha, hrest, rfl⟩⟩
  exact hloop l [] s rfl hstart

/-- What a task does to one element, whatever was done to those before, it does to every element. -/
theorem forall₂_of_mapM {written : Location → Prop} {f : α → Task ε β} {l : List α} {bs : List β}
    {R : α → β → Prop} (h : (l.mapM f).Returns s bs s')
    (hf : ∀ a ∈ l, ∀ m b m', s.Keeps written m → (f a).Returns m b m' → m.Keeps written m' ∧ R a b) :
    s.Keeps written s' ∧ List.Forall₂ R l bs := by
  induction l generalizing s bs with
  | nil =>
    obtain ⟨rfl, rfl⟩ := returns_pure_iff.mp h
    exact ⟨.refl s, .nil⟩
  | cons a l ih =>
    obtain ⟨b, m, rest, hb, hrest, rfl⟩ := returns_mapM_cons_iff.mp h
    obtain ⟨hkeeps, hR⟩ := hf a List.mem_cons_self s b m (.refl s) hb
    have htail := ih hrest fun a' ha' m₁ b' m₂ hm₁ =>
      hf a' (List.mem_cons_of_mem a ha') m₁ b' m₂ (hkeeps.trans hm₁)
    exact ⟨hkeeps.trans htail.1, .cons hR htail.2⟩

end Task

end SchemaTables
