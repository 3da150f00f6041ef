import SchemaTables.Proofs.Plan.Command
import SchemaTables.Proofs.Text.Words

/-!
What make reads from the rules of a plan. A line that is part of no recipe is taken apart at its first colon and then
at blanks, and the paths of the plan stand there as they are. So the rules say what the plan says exactly when these
paths are words, and no text in a recipe starts a line of its own.
-/

namespace SchemaTables

set_option autoImplicit false

open scoped List

open Text (isGap words IsWord)

namespace Make

/-- What a line says that is part of no recipe. -/
inductive Statement where
  | assign (names values : List String)
  | rule (targets prerequisites : List String)
  /-- Without a colon a line is neither, and make stops at it. -/
  | unread (line : List Char)
deriving DecidableEq

/-- What the two sides of a colon say. -/
def Statement.ofSides (left : List Char) : List Char → Statement
  | '=' :: values => .assign (words left) (words values)
  | prerequisites => .rule (words left) (words prerequisites)

/-- Recipe lines start with a tab; they and lines of blanks say nothing. -/
def statement? (line : List Char) : Option Statement :=
  if line.head? = some '\t' ∨ words line = [] then none
  else match Text.cutAt ':' line with
    | some (left, right) => some (.ofSides left right)
    | none => some (.unread line)

/-- What a makefile says line by line. A backslash is a character like any other. -/
def read (text : String) : List Statement := (Text.lines text).filterMap statement?

namespace Statement

/-- The words before the colon. -/
def left : Statement → List String
  | assign names _ => names
  | rule targets _ => targets
  | unread _ => []

/-- The words after the colon. -/
def right : Statement → List String
  | assign _ values => values
  | rule _ prerequisites => prerequisites
  | unread _ => []

end Statement

variable {c : Char} {s line : List Char} {text : String} {texts : List String} {statement : Statement}

section Lines

theorem statement?_eq_none_iff : statement? line = none ↔ line.head? = some '\t' ∨ words line = [] := by
  unfold statement?
  split
  · rename_i h
    exact iff_of_true rfl h
  · rename_i h
    refine iff_of_false ?_ h
    split <;> exact Option.some_ne_none _

/-- What is read is words, and there is no colon in what stands before the first one. -/
theorem words_of_statement? (h : statement? line = some statement) :
    (∀ t ∈ statement.left, IsWord t ∧ ':' ∉ t.toList) ∧ ∀ t ∈ statement.right, IsWord t := by
  unfold statement? at h
  split at h
  · cases h
  · split at h
    · rename_i left right hcut
      have hleft : ∀ t ∈ words left, IsWord t ∧ ':' ∉ t.toList := by
        intro t ht
        obtain ⟨hword, hsubset⟩ := Text.of_mem_words ht
        exact ⟨hword, fun hcolon => Text.notMem_of_cutAt hcut (hsubset hcolon)⟩
      cases h
      unfold Statement.ofSides
      split
      · exact ⟨hleft, fun t ht => (Text.of_mem_words ht).1⟩
      · exact ⟨hleft, fun t ht => (Text.of_mem_words ht).1⟩
    · cases h
      exact ⟨nofun, nofun⟩

theorem words_of_mem_read (h : statement ∈ read text) :
    (∀ t ∈ statement.left, IsWord t ∧ ':' ∉ t.toList) ∧ ∀ t ∈ statement.right, IsWord t := by
  obtain ⟨line, _, hline⟩ := List.mem_filterMap.mp h
  exact words_of_statement? hline

theorem read_of_notMem (h : '\n' ∉ text.toList) : read text = (statement? text.toList).toList := by
  rw [read, Text.lines_eq_singleton_iff.mpr h]
  cases hline : statement? text.toList <;> simp [hline]

theorem statement?_append_colon {left right : List Char} (hcolon : ':' ∉ left) (hfirst : left.head? = some c)
    (hc : isGap c = false) : statement? (left ++ ':' :: right) = some (.ofSides left right) := by
  have htab : (left ++ ':' :: right).head? ≠ some '\t' := by
    rw [List.head?_append, hfirst, Option.some_or]
    rintro ⟨⟩
    cases hc
  have hwords : words (left ++ ':' :: right) ≠ [] :=
    Text.words_ne_nil hc (List.mem_append_left _ (List.mem_of_head? hfirst))
  rw [statement?, if_neg (not_or.mpr ⟨htab, hwords⟩), Text.cutAt_append_cons hcolon]

/-- Every line is read on its own. -/
theorem read_joinWith (texts : List String) : read (Text.joinWith "\n" texts ++ "\n") = texts.flatMap read := by
  have hlast : statement? [] = none := rfl
  have hlines : Text.lines (Text.joinWith "\n" texts ++ "\n") = Text.lines (Text.joinWith "\n" texts) ++ [[]] := by
    rw [Text.lines, String.toList_append]
    exact Text.splitAt_append_cons '\n' _ []
  rw [read, hlines, List.filterMap_append, List.filterMap_cons_none hlast, List.filterMap_nil, List.append_nil]
  cases texts with
  | nil => rfl
  | cons t rest =>
    rw [Text.lines_joinWith (List.cons_ne_nil t rest), List.filterMap_flatMap]
    rfl

end Lines

section Recipes

/-- A line that starts within the text starts with a tab, or is a line of blanks that ends within the text. Such a text
stands in a recipe without saying anything of its own. -/
def Sheltered (s : List Char) : Prop :=
  ∀ line, '\n' :: line <:+ s → line.head? = some '\t' ∨ '\n' ∈ line ∧ words (Text.before '\n' line) = []

theorem sheltered_of_notMem (h : '\n' ∉ s) : Sheltered s := fun _ hline => absurd (hline.subset List.mem_cons_self) h

theorem sheltered_cons_iff : Sheltered (c :: s) ↔
    (c = '\n' → s.head? = some '\t' ∨ '\n' ∈ s ∧ words (Text.before '\n' s) = []) ∧ Sheltered s := by
  unfold Sheltered
  constructor
  · intro h
    refine ⟨?_, fun line hline => h line (hline.trans (List.suffix_cons c s))⟩
    rintro rfl
    exact h s List.suffix_rfl
  · rintro ⟨hfirst, hrest⟩ line hline
    rcases List.suffix_cons_iff.mp hline with heq | hline
    · obtain ⟨rfl, rfl⟩ := List.cons.inj heq
      exact hfirst rfl
    · exact hrest line hline

/-- What a text says after its first line. -/
def later (s : List Char) : List Statement := (Text.splitAt '\n' s).tail.filterMap statement?

theorem later_of_notMem (h : '\n' ∉ s) : later s = [] := by
  rw [later, Text.splitAt_of_notMem h]
  rfl

theorem later_cons_of_ne (h : c ≠ '\n') (s : List Char) : later (c :: s) = later s := by
  obtain ⟨first, rest, hpieces⟩ := List.exists_cons_of_ne_nil (Text.splitAt_ne_nil '\n' s)
  rw [later, later, Text.splitAt, if_neg h, hpieces]
  rfl

theorem later_break (s : List Char) : later ('\n' :: s) = (statement? (Text.before '\n' s)).toList ++ later s := by
  rw [later, later, Text.splitAt, if_pos rfl, Text.splitAt_eq_before_cons]
  cases hline : statement? (Text.before '\n' s) <;> simp [hline]

theorem later_append_of_notMem {a : List Char} (h : '\n' ∉ a) (s : List Char) : later (a ++ s) = later s := by
  induction a with
  | nil => rfl
  | cons d a ih =>
    rw [List.mem_cons, not_or] at h
    rw [List.cons_append, later_cons_of_ne (Ne.symm h.1), ih h.2]

/-- Whether a line goes on after the text or ends within it, its start decides. -/
theorem statement?_before_eq_none_iff (hc : isGap c = false) (s rest : List Char) :
    statement? (Text.before '\n' (s ++ c :: rest)) = none ↔
      s.head? = some '\t' ∨ '\n' ∈ s ∧ words (Text.before '\n' s) = [] := by
  have hne : ∀ d, isGap d = true → c ≠ d := by
    rintro d hd rfl
    rw [hc] at hd
    cases hd
  rw [statement?_eq_none_iff]
  by_cases hs : '\n' ∈ s
  · obtain ⟨d, s, rfl⟩ := List.exists_cons_of_ne_nil (List.ne_nil_of_mem hs)
    rw [Text.before_append_of_mem hs, and_iff_right hs]
    apply or_congr_left
    by_cases hd : d = '\n'
    · rw [hd, Text.before_cons_self]
      simp
    · rw [Text.before_cons_of_ne hd]
      rfl
  · have hwords : words (s ++ c :: Text.before '\n' rest) ≠ [] := Text.words_ne_nil hc (by simp)
    have htab := hne '\t' rfl
    rw [Text.before_append_of_notMem hs, Text.before_cons_of_ne (hne '\n' rfl), or_iff_left hwords,
      or_iff_left fun h => hs h.1]
    cases s with
    | nil => simpa using htab
    | cons d s => rfl

/-- A text before something that is no blank says nothing exactly when it is sheltered. -/
theorem later_append_cons_eq_nil_iff (hc : isGap c = false) (s rest : List Char) :
    later (s ++ c :: rest) = [] ↔ Sheltered s ∧ later (c :: rest) = [] := by
  induction s with
  | nil => exact (and_iff_right (sheltered_of_notMem List.not_mem_nil)).symm
  | cons d s ih =>
    rw [List.cons_append, sheltered_cons_iff, and_assoc, ← ih]
    by_cases hd : d = '\n'
    · subst hd
      rw [later_break, List.append_eq_nil_iff, Option.toList_eq_nil_iff, statement?_before_eq_none_iff hc]
      simp
    · rw [later_cons_of_ne hd]
      simp [hd]

/-- Nothing starts at what is no blank. -/
theorem sheltered_append_cons_iff (hc : isGap c = false) (a b : List Char) :
    Sheltered (a ++ c :: b) ↔ Sheltered a ∧ Sheltered b := by
  have hbreak : c ≠ '\n' := by
    rintro rfl
    cases hc
  have hlast : later [c] = [] := later_of_notMem (by simpa using hbreak.symm)
  have hwhole := later_append_cons_eq_nil_iff hc (a ++ c :: b) []
  rw [List.append_assoc, List.cons_append, later_append_cons_eq_nil_iff hc, later_cons_of_ne hbreak,
    later_append_cons_eq_nil_iff hc, and_iff_left hlast, and_iff_left hlast] at hwhole
  exact hwhole.symm

/-- What stands after a text in a recipe. -/
def IsFrame (frame : String) : Prop := '\n' ∉ frame.toList ∧ frame.toList.head?.map isGap = some false

instance : DecidablePred IsFrame := fun _ => inferInstanceAs (Decidable (_ ∧ _))

theorem later_frame_append {frame : String} (h : '\n' ∉ frame.toList) (rest : String) :
    later (frame ++ rest).toList = later rest.toList := by
  rw [String.toList_append, later_append_of_notMem h]

theorem later_text_append_eq_nil_iff {frame : String} (h : IsFrame frame) (t rest : String) :
    later (t ++ (frame ++ rest)).toList = [] ↔ Sheltered t.toList ∧ later rest.toList = [] := by
  obtain ⟨hbreak, hstart⟩ := h
  obtain ⟨c, hhead, hc⟩ := Option.map_eq_some_iff.mp hstart
  obtain ⟨chars, hframe⟩ := List.head?_eq_some_iff.mp hhead
  rw [← later_frame_append hbreak rest, String.toList_append, String.toList_append, hframe]
  exact later_append_cons_eq_nil_iff hc t.toList (chars ++ rest.toList)

theorem later_text_frame_eq_nil_iff {frame : String} (h : IsFrame frame) (t : String) :
    later (t ++ frame).toList = [] ↔ Sheltered t.toList := by
  have hempty : later [] = [] := rfl
  simpa [hempty] using later_text_append_eq_nil_iff h t ""

theorem read_of_tab (htab : text.toList.head? = some '\t') (hbreak : '\n' ∉ text.toList) : read text = [] := by
  rw [read_of_notMem hbreak, statement?_eq_none_iff.mpr (.inl htab)]
  rfl

/-- The start of a recipe line says nothing itself. -/
theorem read_recipeLine {start : String} (htab : start.toList.head? = some '\t') (hbreak : '\n' ∉ start.toList)
    (rest : String) : read (start ++ rest) = later rest.toList := by
  obtain ⟨chars, hchars⟩ := List.head?_eq_some_iff.mp htab
  have hne : '\t' ≠ '\n' := by decide
  rw [← later_frame_append hbreak, read, Text.lines, String.toList_append, hchars, later, List.cons_append,
    Text.splitAt_eq_before_cons, Text.before_cons_of_ne hne]
  rfl

end Recipes

end Make

open Make

/-- What a rule has to say: the success log is made of the parent tables and the directory of the logs. -/
def CheckTask.statement (p : CheckPlan) (t : CheckTask) : Statement :=
  .rule [t.successLog.text] (t.dependsOn.map Path.text ++ [p.validationDir.text])

/-- What the rules of a plan have to say: all logs of either kind, and then what each task makes of what. -/
def CheckPlan.statements (p : CheckPlan) : List Statement :=
  .assign ["MANUAL_FOREIGN_KEY_VALIDATION_LOGS"] (p.tasks.map fun t => t.successLog.text) ::
    .assign ["MANUAL_FOREIGN_KEY_VALIDATION_LOGS_ERRORS"] (p.tasks.map fun t => t.errorLog.text) ::
    p.tasks.map (CheckTask.statement p)

/-- What is read of the recipes of the steps. -/
def CheckTask.saidInRecipes (t : CheckTask) : List Statement :=
  t.steps.flatMap fun step => (step.recipe t).flatMap Make.read

/-- The paths of the task stand in the lines for make as they are. -/
structure CheckTask.HasWords (p : CheckPlan) (t : CheckTask) : Prop where
  successLog : IsWord t.successLog.text
  colonless : ':' ∉ t.successLog.text.toList
  errorLog : IsWord t.errorLog.text
  parents : ∀ q ∈ t.dependsOn, IsWord q.text
  validationDir : IsWord p.validationDir.text

/-- What is read of the rule of a task is what it has to say. -/
structure CheckTask.Legible (p : CheckPlan) (t : CheckTask) : Prop extends t.HasWords p where
  texts : ∀ step ∈ t.steps, ∀ text ∈ step.texts t, Sheltered text.toList

section Lines
variable {t : CheckTask} {step : CheckStep} {p : CheckPlan} {name : String} {paths : List Path}

theorem CheckPlan.read_variableLine {c : Char} {names : List String} (hnames : words name.toList = names)
    (hcolon : ':' ∉ name.toList) (hbreak : '\n' ∉ name.toList) (hfirst : name.toList.head? = some c)
    (hc : isGap c = false) (h : ∀ p ∈ paths, IsWord p.text) :
    Make.read (variableLine name paths) = [.assign names (paths.map Path.text)] := by
  have htexts : ∀ t ∈ paths.map Path.text, IsWord t := List.forall_mem_map.mpr h
  have hline : (variableLine name paths).toList =
      name.toList ++ ':' :: '=' :: ' ' :: (Text.joinWith " " (paths.map Path.text)).toList := by
    simp [variableLine]
  have hwhole : '\n' ∉ (variableLine name paths).toList := by
    simp [hline, hbreak, Text.break_notMem_joinWith htexts]
  rw [read_of_notMem hwhole, hline, statement?_append_colon hcolon hfirst hc, Statement.ofSides,
    Text.words_cons_gap rfl, Text.words_joinWith_iff.mpr htexts, hnames]
  rfl

theorem CheckTask.HasWords.read_ruleHead (h : t.HasWords p) : Make.read (t.ruleHead p) = [t.statement p] := by
  obtain ⟨c, rest, hfirst, hc⟩ := h.successLog.exists_cons
  have htexts : ∀ text ∈ t.dependsOn.map Path.text, IsWord text := List.forall_mem_map.mpr h.parents
  have hline : (t.ruleHead p).toList = t.successLog.text.toList ++ ':' :: ' ' ::
      ((Text.joinWith " " (t.dependsOn.map Path.text)).toList ++ ' ' :: p.validationDir.text.toList) := by
    simp [ruleHead]
  have hbreak : isGap '\n' = true := rfl
  have hwhole : '\n' ∉ (t.ruleHead p).toList := by
    simp [hline, h.successLog.notMem hbreak, h.validationDir.notMem hbreak, Text.break_notMem_joinWith htexts]
  have hhead : t.successLog.text.toList.head? = some c := by rw [hfirst, List.head?_cons]
  rw [read_of_notMem hwhole, hline, statement?_append_colon h.colonless hhead hc, Statement.ofSides,
    h.successLog.words_eq, Text.words_cons_gap rfl, Text.words_append_gap rfl, Text.words_joinWith_iff.mpr htexts,
    h.validationDir.words_eq]
  · rfl
  · rintro values ⟨⟩

/-- The recipe of a step says nothing exactly when its texts are sheltered. -/
theorem CheckStep.read_recipe_eq_nil_iff (hlog : '\n' ∉ t.errorLog.text.toList) :
    (step.recipe t).flatMap Make.read = [] ↔ ∀ text ∈ step.texts t, Sheltered text.toList := by
  have hlog := sheltered_of_notMem hlog
  unfold CheckStep.recipe CheckStep.command CheckStep.texts
  rw [List.flatMap_cons, List.flatMap_singleton, List.append_eq_nil_iff]
  simp only [String.append_assoc, inQuotes, Text.joinWith, List.map_cons, List.map_nil, String.intercalate_cons_cons,
    String.intercalate_singleton]
  rw [read_recipeLine (by decide) (by decide), read_recipeLine (by decide) (by decide)]
  cases step.separator with
  | none =>
    simp (disch := decide) only [String.empty_append, later_frame_append, later_text_append_eq_nil_iff,
      later_text_frame_eq_nil_iff, Option.toList_none, List.append_nil, List.forall_mem_cons]
    tauto
  | some separator =>
    simp (disch := decide) only [String.append_assoc, later_frame_append, later_text_append_eq_nil_iff,
      later_text_frame_eq_nil_iff, Option.toList_some, List.cons_append, List.nil_append, List.forall_mem_cons]
    tauto

theorem CheckTask.HasWords.saidInRecipes_eq_nil_iff (h : t.HasWords p) :
    t.saidInRecipes = [] ↔ ∀ step ∈ t.steps, ∀ text ∈ step.texts t, Sheltered text.toList := by
  rw [saidInRecipes, List.flatMap_eq_nil_iff]
  exact forall₂_congr fun step _ => CheckStep.read_recipe_eq_nil_iff (h.errorLog.notMem rfl)

/-- Besides its head, a rule can only say something in the recipes of its steps. -/
theorem CheckTask.HasWords.flatMap_read_rule (h : t.HasWords p) :
    (t.rule p).flatMap Make.read = t.statement p :: t.saidInRecipes := by
  have hsuccess : '\n' ∉ t.successLog.text.toList := h.successLog.notMem rfl
  have herror : '\n' ∉ t.errorLog.text.toList := h.errorLog.notMem rfl
  have hsteps : ((t.steps.map (CheckStep.recipe t)).flatten).flatMap Make.read = t.saidInRecipes := by
    rw [← List.flatMap_def, List.flatMap_assoc, saidInRecipes]
  unfold rule
  simp only [List.flatMap_append, List.flatMap_cons, List.flatMap_nil, List.append_nil, h.read_ruleHead, hsteps,
    inQuotes, String.append_assoc]
  simp (disch := first | assumption | decide) only [read_recipeLine, read_of_tab, later_frame_append, later_of_notMem,
    List.append_nil]
  rfl

end Lines

section Plan
variable {p : CheckPlan} {t : CheckTask}

/-- What is read of a plan whose paths are words. -/
theorem CheckPlan.read_makefile (h : ∀ t ∈ p.tasks, t.HasWords p) : Make.read p.makefile =
    .assign ["MANUAL_FOREIGN_KEY_VALIDATION_LOGS"] (p.tasks.map fun t => t.successLog.text) ::
    .assign ["MANUAL_FOREIGN_KEY_VALIDATION_LOGS_ERRORS"] (p.tasks.map fun t => t.errorLog.text) ::
    p.tasks.flatMap fun t => t.statement p :: t.saidInRecipes := by
  have hempty : Make.read "" = [] := rfl
  have hsuccess : ∀ q ∈ p.tasks.map CheckTask.successLog, IsWord q.text :=
    List.forall_mem_map.mpr fun t ht => (h t ht).successLog
  have herror : ∀ q ∈ p.tasks.map CheckTask.errorLog, IsWord q.text :=
    List.forall_mem_map.mpr fun t ht => (h t ht).errorLog
  have hlogs : words "MANUAL_FOREIGN_KEY_VALIDATION_LOGS\t\t\t".toList =
      ["MANUAL_FOREIGN_KEY_VALIDATION_LOGS"] := by decide
  have herrors : words "MANUAL_FOREIGN_KEY_VALIDATION_LOGS_ERRORS\t".toList =
      ["MANUAL_FOREIGN_KEY_VALIDATION_LOGS_ERRORS"] := by decide
  have hrules : ((p.tasks.map fun t => "" :: t.rule p).flatten).flatMap Make.read =
      p.tasks.flatMap fun t => t.statement p :: t.saidInRecipes := by
    rw [← List.flatMap_def, List.flatMap_assoc]
    apply List.flatMap_congr
    intro t ht
    rw [List.flatMap_cons, hempty, List.nil_append, (h t ht).flatMap_read_rule]
  rw [makefile, read_joinWith, List.flatMap_append, hrules, List.flatMap_cons, List.flatMap_singleton,
    read_variableLine hlogs (by decide) (by decide) rfl (by decide) hsuccess,
    read_variableLine herrors (by decide) (by decide) rfl (by decide) herror, List.map_map, List.map_map]
  rfl

/-- The head of a rule is read in the place where it stands. -/
theorem CheckPlan.read_ruleHead_subset (ht : t ∈ p.tasks) : Make.read (t.ruleHead p) ⊆ Make.read p.makefile := by
  have hhead : t.ruleHead p ∈ "" :: t.rule p := List.mem_cons_of_mem _ List.mem_cons_self
  have hrule := List.mem_flatten_of_mem (List.mem_map_of_mem (f := fun t => "" :: t.rule p) ht) hhead
  rw [makefile, read_joinWith]
  intro statement h
  exact List.mem_flatMap.mpr ⟨t.ruleHead p, List.mem_append_right _ hrule, h⟩

/-- What is read is words, so these are all that a plan can be read back from. -/
theorem CheckPlan.hasWords_of_read (h : Make.read p.makefile = p.statements) : ∀ t ∈ p.tasks, t.HasWords p := by
  have hread : ∀ statement ∈ p.statements, (∀ text ∈ statement.left, IsWord text ∧ ':' ∉ text.toList) ∧
      ∀ text ∈ statement.right, IsWord text := fun statement hstatement => words_of_mem_read (h ▸ hstatement)
  simp only [statements, List.forall_mem_cons, List.forall_mem_map] at hread
  obtain ⟨-, ⟨-, herrors⟩, hrules⟩ := hread
  intro t ht
  obtain ⟨hleft, hright⟩ := hrules t ht
  obtain ⟨⟨hsuccess, hcolon⟩, -⟩ := List.forall_mem_cons.mp hleft
  obtain ⟨hparents, hdir⟩ := List.forall_mem_append.mp hright
  exact ⟨hsuccess, hcolon, herrors _ (List.mem_map_of_mem ht), List.forall_mem_map.mp hparents,
    hdir _ (List.mem_singleton.mpr rfl)⟩

/-- Make reads from the rules of a plan what they have to say exactly when every task is legible. -/
theorem CheckPlan.read_makefile_iff (p : CheckPlan) :
    Make.read p.makefile = p.statements ↔ ∀ t ∈ p.tasks, t.Legible p := by
  constructor
  · intro h t ht
    have hwords := hasWords_of_read h
    rw [read_makefile hwords] at h
    have hrules := (List.cons.inj (List.cons.inj h).2).2
    -- every task says something, so with one statement for each task the recipes say nothing
    have hone := (Text.length_flatMap_eq_iff fun t _ => List.cons_ne_nil _ _).mp
      ((congrArg List.length hrules).trans (List.length_map _)) t ht
    exact ⟨hwords t ht, (hwords t ht).saidInRecipes_eq_nil_iff.mp (List.length_eq_zero_iff.mp (Nat.succ.inj hone))⟩
  · intro h
    have hrules : (p.tasks.flatMap fun t => t.statement p :: t.saidInRecipes) =
        p.tasks.map (CheckTask.statement p) := by
      rw [List.map_eq_flatMap]
      apply List.flatMap_congr
      intro t ht
      rw [(h t ht).saidInRecipes_eq_nil_iff.mpr (h t ht).texts]
    rw [read_makefile fun t ht => (h t ht).toHasWords, hrules]
    rfl

end Plan

end SchemaTables
