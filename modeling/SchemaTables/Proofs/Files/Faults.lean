import SchemaTables.Proofs.Files.Footprint

/-!
Scripts on a file system that fails. Any request may go wrong, whatever the store holds, and what goes wrong
leaves the store as it is, but for a part of what was to be added to a file. So a script has many ends, one for
each way in which its requests can fail, and one in which none of them does.
-/

namespace SchemaTables

set_option autoImplicit false

/-- How a request goes wrong: its error, and how many bytes are added to a file all the same. -/
structure Fault where
  error : FileError
  written : Nat := 0
deriving DecidableEq, Repr

namespace Store

/-- The answer to a request that goes wrong, and the store after it. -/
def fail {α : Type} (s : Store) (f : Fault) : Request α → Except FileError α × Store
  | .append p content => (.error f.error, (s.change (s.append p (content.take f.written))).2)
  | _ => (.error f.error, s)

/-- The answer to a request that may go wrong. -/
def answerWith {α : Type} (s : Store) (fault : Option Fault) (r : Request α) : Except FileError α × Store :=
  match fault with
  | none => s.answer r
  | some f => s.fail f r

end Store

/-- Runs a script on a store whose requests go wrong in their order as the faults say. -/
def Script.runWith {α : Type} : Script α → List (Option Fault) → Store → α × Store
  | done a, _, s => (a, s)
  | ask r next, faults, s =>
    let (answer, s) := s.answerWith (faults.headD none) r
    (next answer).runWith faults.tail s

/-- The script may end so, as its requests go wrong or not. -/
def Script.Ends {α : Type} (t : Script α) (s : Store) (a : α) (s' : Store) : Prop :=
  ∃ faults, t.runWith faults s = (a, s')

/-- The task may end so, well or with an error. -/
def Task.Ends {ε α : Type} (t : Task ε α) (s : Store) (r : Except ε α) (s' : Store) : Prop := t.run.Ends s r s'

section Scripts
variable {α β : Type} {s s' : Store} {t : Script α} {a : α}

theorem Script.runWith_nil (t : Script α) (s : Store) : t.runWith [] s = t.run s := by
  induction t generalizing s with
  | done a => rfl
  | ask r next ih => exact ih _ _

theorem Script.ends_run (t : Script α) (s : Store) : t.Ends s (t.run s).1 (t.run s).2 := ⟨[], t.runWith_nil s⟩

theorem Script.ends_done_iff {b : α} : (Script.done a).Ends s b s' ↔ a = b ∧ s = s' := by
  simp [Script.Ends, Script.runWith]

theorem Script.ends_ask_iff {r : Request β} {next : Except FileError β → Script α} :
    (Script.ask r next).Ends s a s' ↔
      ∃ fault, (next (s.answerWith fault r).1).Ends (s.answerWith fault r).2 a s' := by
  constructor
  · rintro ⟨faults, h⟩
    exact ⟨faults.headD none, faults.tail, h⟩
  · rintro ⟨fault, faults, h⟩
    exact ⟨fault :: faults, h⟩

theorem Script.ends_bind_iff {f : α → Script β} {b : β} :
    (t >>= f).Ends s b s' ↔ ∃ a m, t.Ends s a m ∧ (f a).Ends m b s' := by
  change (t.bind f).Ends s b s' ↔ _
  induction t generalizing s with
  | done a =>
    simp only [Script.ends_done_iff]
    constructor
    · intro h
      exact ⟨a, s, ⟨rfl, rfl⟩, h⟩
    · rintro ⟨_, _, ⟨rfl, rfl⟩, h⟩
      exact h
  | ask r next ih =>
    simp only [Script.bind, Script.ends_ask_iff, ih]
    constructor
    · rintro ⟨fault, a, m, ha, hb⟩
      exact ⟨a, m, ⟨fault, ha⟩, hb⟩
    · rintro ⟨a, m, ⟨fault, ha⟩, hb⟩
      exact ⟨fault, a, m, ha, hb⟩

end Scripts

section Footprints
variable {writes makes : Path → Prop} {written made : Location → Prop} {s s' : Store} {α β : Type}

/-- A request that goes wrong changes nothing that it would not change otherwise. -/
theorem Store.differs_answerWith {r : Request β} (fault : Option Fault) (hr : r.Touches writes makes)
    (hwrites : ∀ p, writes p → written (s.destination p)) (hmakes : ∀ p, makes p → made (s.destination p)) :
    Differs written made s (s.answerWith fault r).2 := by
  cases fault with
  | none => exact differs_answer hr hwrites hmakes
  | some f =>
    cases r with
    | append p content =>
      have hpart : (Request.append p (content.take f.written)).Touches writes makes := hr
      exact differs_answer hpart hwrites hmakes
    | _ => exact .refl s

theorem Script.Touches.differs_of_ends {t : Script α} {a : α} (h : t.Touches writes makes) (hends : t.Ends s a s')
    (hwrites : ∀ p, writes p → written (s.destination p)) (hmakes : ∀ p, makes p → made (s.destination p)) :
    s.Differs written made s' := by
  induction t generalizing s with
  | done b =>
    obtain ⟨_, rfl⟩ := Script.ends_done_iff.mp hends
    exact .refl s
  | ask r next ih =>
    obtain ⟨fault, hnext⟩ := Script.ends_ask_iff.mp hends
    have hfirst : s.Differs written made (s.answerWith fault r).2 :=
      Store.differs_answerWith fault h.1 hwrites hmakes
    refine hfirst.trans (ih _ (h.2 _) hnext ?_ ?_)
    · intro p hp
      rw [Store.destination_congr hfirst.here]
      exact hwrites p hp
    · intro p hp
      rw [Store.destination_congr hfirst.here]
      exact hmakes p hp

end Footprints

namespace Task

variable {ε δ α β : Type} {s s' : Store} {t : Task ε α} {r : Except ε α}

theorem ends_of_returns {a : α} (h : t.Returns s a s') : t.Ends s (.ok a) s' := by
  have hends := Script.ends_run t.run s
  rwa [h] at hends

theorem ends_pure_iff {a : α} : (Pure.pure a : Task ε α).Ends s r s' ↔ r = .ok a ∧ s = s' := by
  refine Script.ends_done_iff.trans ?_
  rw [eq_comm]

theorem ends_throw_iff {e : ε} : (throw e : Task ε α).Ends s r s' ↔ r = .error e ∧ s = s' := by
  refine Script.ends_done_iff.trans ?_
  rw [eq_comm]

theorem ends_bind_iff {f : α → Task ε β} {r : Except ε β} : (t >>= f).Ends s r s' ↔
    (∃ e, r = .error e ∧ t.Ends s (.error e) s') ∨ ∃ a m, t.Ends s (.ok a) m ∧ (f a).Ends m r s' := by
  refine Script.ends_bind_iff.trans ?_
  constructor
  · rintro ⟨first, m, hfirst, hrest⟩
    cases first with
    | error e =>
      obtain ⟨rfl, rfl⟩ := Script.ends_done_iff.mp hrest
      exact Or.inl ⟨e, rfl, hfirst⟩
    | ok a => exact Or.inr ⟨a, m, hfirst, hrest⟩
  · rintro (⟨e, rfl, he⟩ | ⟨a, m, ha, hrest⟩)
    · exact ⟨_, s', he, Script.ends_done_iff.mpr ⟨rfl, rfl⟩⟩
    · exact ⟨_, m, ha, hrest⟩

theorem ends_request_iff {wrap : FileError → ε} {q : Request α} : (Task.request wrap q).Ends s r s' ↔
    ∃ fault, (s.answerWith fault q).1.mapError wrap = r ∧ (s.answerWith fault q).2 = s' := by
  refine Script.ends_ask_iff.trans ?_
  simp only [Script.ends_done_iff]

theorem ends_wrap_iff {wrap : δ → ε} {t : Task δ α} : (t.lift wrap).Ends s r s' ↔
    ∃ r', t.Ends s r' s' ∧ r'.mapError wrap = r := by
  refine Script.ends_bind_iff.trans ?_
  simp only [Script.ends_done_iff]
  constructor
  · rintro ⟨r', m, hends, rfl, rfl⟩
    exact ⟨r', hends, rfl⟩
  · rintro ⟨r', hends, rfl⟩
    exact ⟨r', s', hends, rfl, rfl⟩

theorem Touches.differs_of_ends {writes makes : Path → Prop} {written made : Location → Prop}
    (h : t.Touches writes makes) (hends : t.Ends s r s') (hwrites : ∀ p, writes p → written (s.destination p))
    (hmakes : ∀ p, makes p → made (s.destination p)) : s.Differs written made s' :=
  Script.Touches.differs_of_ends h hends hwrites hmakes

end Task

end SchemaTables
