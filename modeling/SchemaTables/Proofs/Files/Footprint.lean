import SchemaTables.Proofs.Files.Sound
import SchemaTables.Proofs.Files.Whole

/-!
Footprints of scripts. A script that writes to certain paths only and makes certain directories only can
change nothing else: the store afterwards differs from the one before by files at the ends of these paths
and by new directories. Directories that are made for a file lie on the way of its path.
-/

namespace SchemaTables

set_option autoImplicit false

/-- The later store keeps what is not written, and all that is new in it is a file that may be written or
a directory that may be made. -/
structure Store.Differs (written made : Location → Prop) (s s' : Store) : Prop extends
    Store.Keeps written s s' where
  found : ∀ {l i}, s'.item? l = some i → s.item? l = some i ∨
    ((∃ content, i = .file content) ∧ written l) ∨ (i = .directory ∧ made l)

namespace Store.Differs

variable {written made written' made' : Location → Prop} {s s' s'' : Store} {l : Location} {i : Item}
  {p : Path}

theorem refl (s : Store) : Differs written made s s := ⟨.refl s, Or.inl⟩

theorem trans (h : Differs written made s s') (h' : Differs written made s' s'') :
    Differs written made s s'' := by
  refine ⟨h.toKeeps.trans h'.toKeeps, fun hl => ?_⟩
  rcases h'.found hl with hl | hnew
  · exact h.found hl
  · exact Or.inr hnew

theorem mono (h : Differs written made s s') (hwritten : ∀ l, written l → written' l)
    (hmade : ∀ l, made l → made' l) : Differs written' made' s s' := by
  refine ⟨⟨h.here, fun hl hfree => h.item hl ?_⟩, fun hl => ?_⟩
  · exact hfree.imp_right fun hnot hw => hnot (hwritten _ hw)
  · rcases h.found hl with hl | ⟨hfile, hw⟩ | ⟨hdir, hm⟩
    · exact Or.inl hl
    · exact Or.inr (Or.inl ⟨hfile, hwritten _ hw⟩)
    · exact Or.inr (Or.inr ⟨hdir, hmade _ hm⟩)

/-- What is not written is as it was, or a directory that was made. -/
theorem item_eq_or (h : Differs written made s s') (hfree : ¬ written l) :
    s'.item? l = s.item? l ∨ s.item? l = none ∧ s'.item? l = some .directory ∧ made l := by
  cases hl : s.item? l with
  | some i => exact Or.inl (h.item hl (Or.inr hfree))
  | none =>
    cases hl' : s'.item? l with
    | none => exact Or.inl rfl
    | some i =>
      rcases h.found hl' with hold | ⟨_, hw⟩ | ⟨rfl, hm⟩
      · rw [hl] at hold
        cases hold
      · exact absurd hw hfree
      · exact Or.inr ⟨rfl, rfl, hm⟩

/-- What is neither written nor made is as it was. -/
theorem item_eq (h : Differs written made s s') (hwritten : ¬ written l) (hmade : s.item? l = none → ¬ made l) :
    s'.item? l = s.item? l := by
  rcases h.item_eq_or hwritten with hsame | ⟨hnone, _, hm⟩
  · exact hsame
  · exact absurd hm (hmade hnone)

/-- Where nothing is written there are the same files. -/
theorem file_iff (h : Differs written made s s') (hfree : ¬ written l) {content : Bytes} :
    s'.item? l = some (.file content) ↔ s.item? l = some (.file content) := by
  constructor
  · intro hl
    rcases h.found hl with hl | ⟨_, hw⟩ | ⟨hdir, _⟩
    · exact hl
    · exact absurd hw hfree
    · cases hdir
  · intro hl
    exact h.item hl (Or.inr hfree)

/-- A store that differs at one location only. -/
theorem of_put (hl : s.item? l = none ∨ s.item? l ≠ some .directory ∧ written l)
    (hi : (∃ content, i = .file content) ∧ written l ∨ i = .directory ∧ made l) :
    Differs written made s (s.put l i) := by
  refine ⟨.put hl, fun {m j} hm => ?_⟩
  by_cases heq : m = l
  · subst heq
    rw [item?_put] at hm
    split at hm
    · rename_i hnil
      rw [hnil]
      exact Or.inl hm
    · rw [if_pos rfl] at hm
      exact Or.inr (Option.some.inj hm ▸ hi)
  · rw [item?_put_of_ne heq] at hm
    exact Or.inl hm

theorem of_erase (hl : s.item? l ≠ some .directory) (hwritten : written l) :
    Differs written made s (s.erase l) := by
  refine ⟨.erase hl hwritten, fun {m j} hm => Or.inl ?_⟩
  by_cases heq : m = l
  · rw [item?_erase, if_pos heq] at hm
    split at hm
    · rename_i hnil
      rw [hnil]
      exact hm
    · cases hm
  · rwa [item?_erase_of_ne heq] at hm

end Store.Differs

/-- The request writes to paths of the first kind only, and makes directories of the second kind only. -/
def Request.Touches (writes makes : Path → Prop) {β : Type} : Request β → Prop
  | .create p | .touch p | .append p _ | .remove p => writes p
  | .makeDirectory p => makes p
  | .rename _ _ => False
  | .read _ | .isDirectory _ | .isThere _ | .sync _ | .elapsed => True

/-- Whatever the answers are, the script writes and makes nothing else. -/
def Script.Touches {α : Type} (writes makes : Path → Prop) : Script α → Prop
  | .done _ => True
  | .ask r next => r.Touches writes makes ∧ ∀ answer, (next answer).Touches writes makes

section Scripts
variable {writes makes : Path → Prop} {written made : Location → Prop} {s : Store} {α β : Type}

theorem Store.differs_change {r : Except FileError Store} (h : ∀ s', r = .ok s' → Differs written made s s') :
    Differs written made s (s.change r).2 := by
  cases r with
  | error e => exact .refl s
  | ok s' => exact h s' rfl

theorem Store.differs_answer {r : Request β} (hr : r.Touches writes makes)
    (hwrites : ∀ p, writes p → written (s.destination p)) (hmakes : ∀ p, makes p → made (s.destination p)) :
    Differs written made s (s.answer r).2 := by
  cases r with
  | read p | isDirectory p | isThere p | sync p | elapsed => exact .refl s
  | makeDirectory p =>
    refine differs_change fun s' h => ?_
    obtain ⟨hnone, rfl⟩ := makeDirectory_ok h
    exact .of_put (Or.inl hnone) (Or.inr ⟨rfl, hmakes p hr⟩)
  | create p | touch p =>
    refine differs_change fun s' h => ?_
    rcases openFile_ok h with ⟨hnone, rfl⟩ | ⟨before, hfile, rfl⟩
    · exact .of_put (Or.inl hnone) (Or.inl ⟨⟨_, rfl⟩, hwrites p hr⟩)
    · exact .of_put (Or.inr ⟨by simp [hfile], hwrites p hr⟩) (Or.inl ⟨⟨_, rfl⟩, hwrites p hr⟩)
  | append p content =>
    refine differs_change fun s' h => ?_
    obtain ⟨before, hfile, rfl⟩ := append_ok h
    exact .of_put (Or.inr ⟨by simp [hfile], hwrites p hr⟩) (Or.inl ⟨⟨_, rfl⟩, hwrites p hr⟩)
  | rename source target => exact hr.elim
  | remove p =>
    refine differs_change fun s' h => ?_
    obtain ⟨hfile, rfl⟩ := remove_ok h
    exact .of_erase hfile (hwrites p hr)

/-- A script changes nothing that its paths do not lead to. -/
theorem Script.Touches.differs {t : Script α} (h : t.Touches writes makes)
    (hwrites : ∀ p, writes p → written (s.destination p)) (hmakes : ∀ p, makes p → made (s.destination p)) :
    s.Differs written made (t.run s).2 := by
  induction t generalizing s with
  | done a => exact .refl s
  | ask r next ih =>
    have hfirst : s.Differs written made (s.answer r).2 := Store.differs_answer h.1 hwrites hmakes
    refine hfirst.trans (ih _ (h.2 _) ?_ ?_)
    · intro p hp
      rw [Store.destination_congr hfirst.here]
      exact hwrites p hp
    · intro p hp
      rw [Store.destination_congr hfirst.here]
      exact hmakes p hp

theorem Script.Touches.bind {t : Script α} {f : α → Script β} (h : t.Touches writes makes)
    (hf : ∀ a, (f a).Touches writes makes) : (t >>= f).Touches writes makes := by
  change (t.bind f).Touches writes makes
  induction t with
  | done a => exact hf a
  | ask r next ih => exact ⟨h.1, fun answer => ih answer (h.2 answer)⟩

end Scripts

namespace Task

variable {writes makes : Path → Prop} {s s' : Store} {ε α β : Type}

def Touches (writes makes : Path → Prop) (t : Task ε α) : Prop := t.run.Touches writes makes

namespace Touches

variable {t : Task ε α}

theorem pure (a : α) : (Pure.pure a : Task ε α).Touches writes makes := trivial

theorem request {wrap : FileError → ε} {r : Request α} (h : r.Touches writes makes) :
    (Task.request wrap r).Touches writes makes := ⟨h, fun _ => trivial⟩

theorem bind {f : α → Task ε β} (h : t.Touches writes makes) (hf : ∀ a, (f a).Touches writes makes) :
    (t >>= f).Touches writes makes := by
  refine Script.Touches.bind h ?_
  intro r
  cases r with
  | ok a => exact hf a
  | error e => trivial

theorem mapM {f : α → Task ε β} {l : List α} (hf : ∀ a ∈ l, (f a).Touches writes makes) :
    (l.mapM f).Touches writes makes := by
  induction l with
  | nil => exact .pure _
  | cons a l ih =>
    rw [List.mapM_cons]
    refine .bind (hf a List.mem_cons_self) fun b => ?_
    refine .bind (ih fun a' ha' => hf a' (List.mem_cons_of_mem a ha')) fun bs => ?_
    exact .pure _

theorem differs {written made : Location → Prop} {a : α} (h : t.Touches writes makes)
    (hrun : t.Returns s a s') (hwrites : ∀ p, writes p → written (s.destination p))
    (hmakes : ∀ p, makes p → made (s.destination p)) : s.Differs written made s' := by
  have hdiffers := Script.Touches.differs h hwrites hmakes
  rw [hrun] at hdiffers
  exact hdiffers

end Touches

end Task

/-- The path passes nothing that the other does not pass, wherever both start. -/
def Path.OnWayOf (p w : Path) : Prop := ∀ (s : Store) (l : Location), s.Passes p l → s.Passes w l

namespace Path.OnWayOf

variable {p q w : Path}

theorem refl (p : Path) : p.OnWayOf p := fun _ _ h => h

theorem trans (h : p.OnWayOf q) (h' : q.OnWayOf w) : p.OnWayOf w := fun s l hl => h' s l (h s l hl)

theorem of_parent? (h : p.parent? = some q) : q.OnWayOf p := fun _ _ => Store.passes_of_parent? h

end Path.OnWayOf

namespace Files

variable {writes makes : Path → Prop} {p : Path}

theorem makeOne_touches (h : makes p) : (makeOne p).Touches writes makes := by
  refine ⟨h, fun r => ?_⟩
  cases r with
  | ok => trivial
  | error e =>
    refine ⟨trivial, fun r => ?_⟩
    rcases r with _ | _ | _ <;> trivial

theorem makeDirectoriesFrom_touches {depth : Nat} (h : ∀ q : Path, q.OnWayOf p → makes q) :
    (makeDirectoriesFrom depth p).Touches writes makes := by
  induction depth generalizing p with
  | zero => exact .pure ()
  | succ depth ih =>
    have hone : (makeOne p).Touches writes makes := makeOne_touches (h p (.refl p))
    unfold makeDirectoriesFrom
    refine .bind (Script.Touches.bind hone fun _ => trivial) fun r => ?_
    split
    · split
      · rename_i q hq
        exact .bind (ih fun r hr => h r (hr.trans (.of_parent? hq))) fun _ => hone
      · trivial
    · trivial

/-- The directories that are made for a file lie on the way of its path. -/
theorem makeParent_touches (h : ∀ q : Path, q.OnWayOf p → makes q) :
    (makeParent p).Touches writes makes := by
  unfold makeParent
  split
  · rename_i dir hdir
    have hparent : p.parent? = some dir := (Option.filter_eq_some_iff.mp hdir).1
    exact makeDirectoriesFrom_touches fun q hq => h q (hq.trans (.of_parent? hparent))
  · exact .pure ()

theorem makeDirectoriesFrom_differs {depth : Nat} {s m : Store} (h : (makeDirectoriesFrom depth p).Returns s () m) :
    s.Differs (fun _ => False) (fun l => s.Passes p l) m := by
  have htouches : (makeDirectoriesFrom depth p).Touches (fun _ => False) fun q => q.OnWayOf p :=
    makeDirectoriesFrom_touches fun _ hq => hq
  exact htouches.differs h (fun _ hno => hno.elim) fun q hq => hq s _ (s.passes_destination q)

theorem makeParent_differs {s m : Store} (h : (makeParent p).Returns s () m) :
    s.Differs (fun _ => False) (fun l => s.Passes p l) m := by
  have htouches : (makeParent p).Touches (fun _ => False) fun q => q.OnWayOf p := makeParent_touches fun _ hq => hq
  exact htouches.differs h (fun _ hno => hno.elim) fun q hq => hq s _ (s.passes_destination q)

theorem writeText_touches {text : String} (h : writes p) : (writeText p text).Touches writes makes :=
  .bind (.request h) fun _ => .request h

theorem addLine_touches {line : String} (h : writes p) : (addLine p line).Touches writes makes :=
  .bind (.request h) fun _ => .request h

theorem removeIfThere_touches (h : writes p) : (removeIfThere p).Touches writes makes := by
  refine ⟨h, fun r => ?_⟩
  cases r with
  | ok => trivial
  | error e => cases e <;> trivial

end Files

end SchemaTables
