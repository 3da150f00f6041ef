import SchemaTables.Proofs.Plan.BuildValidity
import SchemaTables.Proofs.Plan.Makefile

/-!
When the rules of a plan that is made from checks say what the plan says. A task has one of the spellings of its child
table, and one of each of its parent tables; but spellings of one path differ in slashes and dots only, so it does not
matter to make which one is written.
-/

namespace SchemaTables

set_option autoImplicit false

open Make
open Text (isGap IsWord)

variable {validationDir p q : Path} {checks : List ManualCheck}

/-- Spellings of one path are words together. -/
theorem Path.Same.isWord_iff (h : p.Same q) : IsWord p.text ↔ IsWord q.text := by
  have hslash : ∀ a b : List Char, (∀ c ∈ a ++ '/' :: b, isGap c = false) ↔
      (∀ c ∈ a, isGap c = false) ∧ ∀ c ∈ b, isGap c = false := by
    intro a b
    have hslash : isGap '/' = false := rfl
    rw [List.forall_mem_append, List.forall_mem_cons, and_iff_right hslash]
  have hsolid : ∀ r : Path, (∀ c ∈ r.chars, isGap c = false) ↔
      ∀ component ∈ r.components, ∀ c ∈ component.text.toList, isGap c = false :=
    @Path.holds_chars_iff (∀ c ∈ ·, isGap c = false) nofun (List.forall_mem_singleton.mpr rfl) hslash
  have hword : ∀ r : Path, IsWord r.text ↔ r.components ≠ [] ∧
      ∀ component ∈ r.components, ∀ c ∈ component.text.toList, isGap c = false := by
    intro r
    rw [← hsolid, ne_eq, Path.components_eq_nil_iff]
    exact ⟨fun hr => ⟨hr.nonempty, hr.solid⟩, fun hr => ⟨hr.1, hr.2⟩⟩
  rw [hword, hword, h]

/-- Spellings of one path are sheltered together. -/
theorem Path.Same.sheltered_iff (h : p.Same q) : Sheltered p.chars ↔ Sheltered q.chars := by
  have hnil : Sheltered [] := sheltered_of_notMem List.not_mem_nil
  have hdot : Sheltered ['.'] := sheltered_of_notMem (by decide)
  rw [Path.holds_chars_iff hnil hdot (sheltered_append_cons_iff (by decide)),
    Path.holds_chars_iff hnil hdot (sheltered_append_cons_iff (by decide)), h]

/-- What all characters of a log path are, besides those that all logs have. -/
theorem forall_mem_logPath_iff {P : Char → Prop} {ending : String} (hlong : 2 < ending.toList.length)
    (hslash : '/' ∉ ending.toList) (hP : ∀ c ∈ '/' :: ("-csv-list-column-foreign-key" ++ ending).toList, P c) :
    (∀ c ∈ (logPath validationDir p ending).text.toList, P c) ↔
      (∀ c ∈ validationDir.text.toList, P c) ∧ ∀ c ∈ (tableStem p).toList, P c := by
  obtain ⟨hfirst, hrest⟩ := List.forall_mem_cons.mp hP
  have hname : (∀ c ∈ (tableStem p ++ "-csv-list-column-foreign-key" ++ ending).toList, P c) ↔
      ∀ c ∈ (tableStem p).toList, P c := by
    rw [String.append_assoc, String.toList_append, List.forall_mem_append]
    exact and_iff_left hrest
  have hrelative : (⟨tableStem p ++ "-csv-list-column-foreign-key" ++ ending⟩ : Path).isAbsolute = false :=
    Path.isAbsolute_of_plain (plain_logName p hlong hslash)
  change (∀ c ∈ (validationDir.join _).chars, P c) ↔ _
  rw [← hname]
  rcases Path.chars_join validationDir hrelative with ⟨hchars, _⟩ | hchars
  · rw [hchars]
    exact List.forall_mem_append
  · rw [hchars, List.forall_mem_append, List.forall_mem_cons, and_iff_right hfirst]
    rfl

theorem logPath_ne_empty {ending : String} (hlong : 2 < ending.toList.length) (hslash : '/' ∉ ending.toList) :
    (logPath validationDir p ending).text ≠ "" := by
  have hname := Path.fileName?_join validationDir (Path.fileName?_of_plain (plain_logName p hlong hslash))
  rw [← logPath, Path.fileName?_eq_some_iff] at hname
  intro hempty
  rw [Path.components_eq_nil_iff.mpr hempty] at hname
  cases hname

/-- What make takes the head of a rule apart at. -/
def Make.isMark (c : Char) : Bool := isGap c || c == ':'

theorem any_isMark_iff {chars : List Char} : chars.any Make.isMark = false ↔ ∀ c ∈ chars, Make.isMark c = false := by
  simp

/-- A log is a target of its own exactly when no mark comes from the directory or the stem. -/
theorem isWord_logPath_iff {ending : String} (hlong : 2 < ending.toList.length) (hslash : '/' ∉ ending.toList)
    (hmarks : ('/' :: ("-csv-list-column-foreign-key" ++ ending).toList).any isMark = false) :
    IsWord (logPath validationDir p ending).text ∧ ':' ∉ (logPath validationDir p ending).text.toList ↔
      (validationDir.text.toList ++ (tableStem p).toList).any isMark = false := by
  rw [any_isMark_iff, List.forall_mem_append, ← forall_mem_logPath_iff hlong hslash (any_isMark_iff.mp hmarks)]
  constructor
  · rintro ⟨hword, hcolon⟩ c hc
    have hne : c ≠ ':' := fun heq => hcolon (heq ▸ hc)
    simp [isMark, hword.solid c hc, hne]
  · intro h
    refine ⟨⟨logPath_ne_empty hlong hslash, fun c hc => ?_⟩, fun hc => ?_⟩
    · exact (Bool.or_eq_false_iff.mp (h c hc)).1
    · cases h ':' hc

/-- What make has to read in the task of the check stands there as words. -/
structure ManualCheck.Legible (c : ManualCheck) (validationDir : Path) : Prop where
  directory : validationDir.text ≠ ""
  /-- The logs stand in the directory and are named after the stem of the table. -/
  logs : (validationDir.text.toList ++ (tableStem c.childTable).toList).any isMark = false
  parentTable : IsWord c.parentTable.text
  texts : ∀ text ∈ [c.childTable.text, c.childColumn, c.parentColumn] ++ c.separator.toList, Sheltered text.toList

namespace CheckPlan

variable {t : CheckTask}

theorem logs_of_mem (ht : t ∈ (ofChecks checks validationDir).tasks) :
    t.errorLog = errorLogPath validationDir t.childTable ∧
      t.successLog = successLogPath validationDir t.childTable := by
  obtain ⟨herror, hsuccess⟩ := List.cons.inj (namesLogs_of_mem ht)
  exact ⟨herror, (List.cons.inj hsuccess).1⟩

/-- Every task of a plan is legible exactly when every check is that it is made from. -/
theorem legible_ofChecks_iff :
    (∀ t ∈ (ofChecks checks validationDir).tasks, t.Legible (ofChecks checks validationDir)) ↔
      ∀ c ∈ checks, c.Legible validationDir := by
  constructor
  · intro h c hc
    obtain ⟨t, ht, hsame, hstep⟩ := exists_task_of_check validationDir hc
    obtain ⟨q, hq, hparent⟩ := (covers_of_mem ht).complete c.step hstep
    have hlegible := h t ht
    have hsuccess := hlegible.successLog
    have hcolon := hlegible.colonless
    rw [(logs_of_mem ht).2] at hsuccess hcolon
    have hlogs := (isWord_logPath_iff (by decide) (by decide) (by decide)).mp ⟨hsuccess, hcolon⟩
    rw [tableStem_congr hsame] at hlogs
    have htexts := hlegible.texts c.step hstep
    simp only [CheckStep.texts, List.cons_append, List.nil_append, List.forall_mem_cons] at htexts
    obtain ⟨htable, hcolumn, -, htarget, hseparator⟩ := htexts
    refine ⟨hlegible.validationDir.nonempty, hlogs, hparent.isWord_iff.mpr (hlegible.parents q hq), ?_⟩
    simp only [List.cons_append, List.nil_append, List.forall_mem_cons]
    exact ⟨hsame.sheltered_iff.mp htable, hcolumn, htarget, hseparator⟩
  · intro h t ht
    obtain ⟨c, hc, htable⟩ := (mem_tasks_ofChecks ht).1
    have hlogs := (h c hc).logs
    rw [htable] at hlogs
    have hsuccess : IsWord t.successLog.text ∧ ':' ∉ t.successLog.text.toList := by
      rw [(logs_of_mem ht).2]
      exact (isWord_logPath_iff (by decide) (by decide) (by decide)).mpr hlogs
    have herror : IsWord t.errorLog.text ∧ ':' ∉ t.errorLog.text.toList := by
      rw [(logs_of_mem ht).1]
      exact (isWord_logPath_iff (by decide) (by decide) (by decide)).mpr hlogs
    have hparents : ∀ q ∈ t.dependsOn, IsWord q.text := by
      intro q hq
      obtain ⟨step, hstep, rfl⟩ := (covers_of_mem ht).parents q hq
      obtain ⟨d, hd, _, rfl⟩ := exists_check_of_step ht hstep
      exact (h d hd).parentTable
    have hdir : IsWord validationDir.text :=
      ⟨(h c hc).directory, fun d hd =>
        (Bool.or_eq_false_iff.mp (any_isMark_iff.mp hlogs d (List.mem_append_left _ hd))).1⟩
    refine ⟨⟨hsuccess.1, hsuccess.2, herror.1, hparents, hdir⟩, ?_⟩
    intro step hstep
    obtain ⟨d, hd, hsame, rfl⟩ := exists_check_of_step ht hstep
    have htexts := (h d hd).texts
    simp only [List.cons_append, List.nil_append, List.forall_mem_cons] at htexts
    obtain ⟨htable, hcolumn, htarget, hseparator⟩ := htexts
    have hparent : Sheltered d.parentTable.text.toList := sheltered_of_notMem ((h d hd).parentTable.notMem rfl)
    simp only [CheckStep.texts, List.cons_append, List.nil_append, List.forall_mem_cons]
    exact ⟨hsame.sheltered_iff.mpr htable, hcolumn, hparent, htarget, hseparator⟩

/-- Make reads from the rules what a plan has to say exactly when all checks are legible. -/
theorem read_makefile_ofChecks_iff (checks : List ManualCheck) (validationDir : Path) :
    Make.read (ofChecks checks validationDir).makefile = (ofChecks checks validationDir).statements ↔
      ∀ c ∈ checks, c.Legible validationDir := by
  rw [read_makefile_iff, legible_ofChecks_iff]

end CheckPlan

end SchemaTables
