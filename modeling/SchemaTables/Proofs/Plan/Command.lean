import SchemaTables.Plan.Makefile
import SchemaTables.Proofs.CommandLine.Reader

/-!
The commands in the rules for make. Every argument of a check stands between quotes, so the shell reads the
arguments of a step back from its command, as long as they have no character that it looks at there.
-/

namespace SchemaTables

set_option autoImplicit false

namespace Shell

/-- The words of a command of which a word was begun. Blanks end it, unless they stand between quotes. -/
def wordsFrom : Bool → Option (List Char) → List Char → List String
  | _, word, [] => (word.map String.ofList).toList
  | quoted, word, c :: s =>
    if c = '\x22' then wordsFrom (!quoted) (some (word.getD [])) s
    else if c = ' ' ∧ quoted = false then (word.map String.ofList).toList ++ wordsFrom false none s
    else wordsFrom quoted (some (word.getD [] ++ [c])) s

def words (command : String) : List String := wordsFrom false none command.toList

/-- What the shell or make does not leave alone between quotes. -/
def isSpecial (c : Char) : Bool := ['\x22', '$', '\x60', '\\', '\n', '\x00'].contains c

/-- The piece is read as the word, at the end of a command and before another piece. -/
structure Spells (piece : String) (word : String) : Prop where
  last : words piece = [word]
  next : ∀ rest, wordsFrom false none (piece.toList ++ ' ' :: rest) = word :: wordsFrom false none rest

variable {quoted : Bool} {text word : String} {s begun rest : List Char}

theorem wordsFrom_append (h : ∀ c ∈ s, c ≠ '\x22' ∧ (c = ' ' → quoted = true)) :
    wordsFrom quoted (some begun) (s ++ rest) = wordsFrom quoted (some (begun ++ s)) rest := by
  induction s generalizing begun with
  | nil => rw [List.nil_append, List.append_nil]
  | cons c s ih =>
    obtain ⟨⟨hquote, hblank⟩, hs⟩ := List.forall_mem_cons.mp h
    have hgoes : ¬ (c = ' ' ∧ quoted = false) := by
      rintro ⟨hc, hquoted⟩
      rw [hblank hc] at hquoted
      cases hquoted
    rw [List.cons_append, wordsFrom, if_neg hquote, if_neg hgoes, ih hs]
    simp

theorem spells_inQuotes (h : '\x22' ∉ text.toList) : Spells (inQuotes text) text := by
  have hquoted : ∀ rest, wordsFrom false none ((inQuotes text).toList ++ rest) =
      wordsFrom false (some text.toList) rest := by
    intro rest
    have hchars : (inQuotes text).toList ++ rest = '\x22' :: (text.toList ++ '\x22' :: rest) := by
      simp [inQuotes]
    rw [hchars, wordsFrom, if_pos rfl]
    have htext : ∀ c ∈ text.toList, c ≠ '\x22' ∧ (c = ' ' → (!false) = true) := by
      intro c hc
      exact ⟨fun heq => h (heq ▸ hc), fun _ => rfl⟩
    rw [wordsFrom_append htext, wordsFrom, if_pos rfl]
    rfl
  constructor
  · have hlast := hquoted []
    rw [List.append_nil] at hlast
    rw [words, hlast]
    simp [wordsFrom]
  · intro rest
    rw [hquoted, wordsFrom]
    simp

theorem spells_self (hne : text ≠ "") (h : ∀ c ∈ text.toList, c ≠ '\x22' ∧ c ≠ ' ') : Spells text text := by
  obtain ⟨c, s, hchars⟩ : ∃ c s, text.toList = c :: s := by
    apply List.exists_cons_of_ne_nil
    intro hnil
    exact hne (String.toList_eq_nil_iff.mp hnil)
  have hplain : ∀ rest, wordsFrom false none (text.toList ++ rest) = wordsFrom false (some text.toList) rest := by
    intro rest
    rw [hchars] at h ⊢
    obtain ⟨⟨hquote, hblank⟩, hs⟩ := List.forall_mem_cons.mp h
    rw [List.cons_append, wordsFrom, if_neg hquote, if_neg (fun hc => hblank hc.1), wordsFrom_append]
    · rfl
    · intro d hd
      exact ⟨(hs d hd).1, fun heq => absurd heq (hs d hd).2⟩
  constructor
  · have hlast := hplain []
    rw [List.append_nil] at hlast
    rw [words, hlast]
    simp [wordsFrom]
  · intro rest
    rw [hplain, wordsFrom]
    simp

/-- Pieces with a blank between neighbours are read one by one. -/
theorem words_joinWith {pieces texts : List String} (h : List.Forall₂ Spells pieces texts) :
    words (Text.joinWith " " pieces) = texts := by
  induction h with
  | nil => rfl
  | @cons piece text pieces texts hpiece hrest ih =>
    cases hrest with
    | nil => simpa [Text.joinWith] using hpiece.last
    | cons hnext hrest =>
      rw [Text.joinWith, String.intercalate_cons_cons, words, String.append_assoc, String.toList_append,
        String.toList_append]
      refine (hpiece.next _).trans (congrArg _ ih)

end Shell

namespace CheckStep

variable {t : CheckTask} {step : CheckStep}

/-- The words that the command of a step gives to the program. -/
def arguments (t : CheckTask) (step : CheckStep) : List String :=
  [t.childTable.text, step.childColumn, step.parentTable.text, step.parentColumn] ++
    CommandLine.separatorWords step.separator

def texts (t : CheckTask) (step : CheckStep) : List String :=
  [t.childTable.text, step.childColumn, step.parentTable.text, step.parentColumn] ++ step.separator.toList

/-- Texts that the shell leaves alone between quotes, and that the program takes for values. -/
structure Plain (t : CheckTask) (step : CheckStep) : Prop where
  characters : ∀ text ∈ step.texts t, text.toList.any Shell.isSpecial = false
  values : ∀ text ∈ step.texts t, CommandLine.Reader.looksLikeOption text = false
  childTable : t.childTable.text ≠ ""
  parentTable : step.parentTable.text ≠ ""

instance (t : CheckTask) (step : CheckStep) : Decidable (step.Plain t) :=
  decidable_of_iff ((∀ text ∈ step.texts t, text.toList.any Shell.isSpecial = false) ∧
      (∀ text ∈ step.texts t, CommandLine.Reader.looksLikeOption text = false) ∧
      t.childTable.text ≠ "" ∧ step.parentTable.text ≠ "")
    ⟨fun h => ⟨h.1, h.2.1, h.2.2.1, h.2.2.2⟩, fun h => ⟨h.characters, h.values, h.childTable, h.parentTable⟩⟩

/-- The variable of the rules that stands for the program and its command. -/
def programVariable : String := "$(LIST_COLUMN_FOREIGN_KEY_CHECK)"

theorem Plain.spells (h : step.Plain t) {text : String} (htext : text ∈ step.texts t) :
    Shell.Spells (inQuotes text) text := by
  apply Shell.spells_inQuotes
  intro hquote
  have hspecial : Shell.isSpecial '\x22' = true := by decide
  have hany := List.any_eq_true.mpr ⟨_, hquote, hspecial⟩
  rw [h.characters text htext] at hany
  cases hany

/-- The pieces of the command of a step. -/
def pieces (t : CheckTask) (step : CheckStep) : List String :=
  (programVariable ::
      [t.childTable.text, step.childColumn, step.parentTable.text, step.parentColumn].map inQuotes) ++
    match step.separator with
    | some separator => ["--separator", inQuotes separator]
    | none => []

theorem command_eq (t : CheckTask) (step : CheckStep) :
    step.command t = Text.joinWith " " (step.pieces t) := by
  have hfront : "$(LIST_COLUMN_FOREIGN_KEY_CHECK) " = programVariable ++ " " := by decide
  have hoption : " --separator " = " " ++ ("--separator" ++ " ") := by decide
  have hfields : ∀ a b c d : String, programVariable ++ " " ++ Text.joinWith " " [a, b, c, d] =
      Text.joinWith " " [programVariable, a, b, c, d] := by
    intro a b c d
    exact (String.intercalate_cons_cons).symm
  unfold command pieces
  cases step.separator with
  | none =>
    rw [hfront, List.append_nil]
    exact (String.append_empty).trans (hfields _ _ _ _)
  | some separator =>
    rw [hfront, hoption, Text.joinWith, String.intercalate_append_of_ne_nil (List.cons_ne_nil _ _)
      (List.cons_ne_nil _ _), String.intercalate_cons_cons, String.intercalate_singleton]
    refine (congrArg (· ++ _) (hfields _ _ _ _)).trans ?_
    simp only [Text.joinWith, String.append_assoc, List.map_cons, List.map_nil]

/-- The shell reads the arguments of a step back from its command. -/
theorem words_command (h : step.Plain t) :
    Shell.words (step.command t) = programVariable :: step.arguments t := by
  have hvariable : Shell.Spells programVariable programVariable :=
    Shell.spells_self (by decide) (by simp [programVariable])
  have hoption : Shell.Spells "--separator" "--separator" := Shell.spells_self (by decide) (by simp)
  have hfields : ∀ text ∈ [t.childTable.text, step.childColumn, step.parentTable.text, step.parentColumn],
      Shell.Spells (inQuotes text) text := by
    intro text htext
    exact h.spells (List.mem_append_left _ htext)
  rw [command_eq]
  apply Shell.words_joinWith
  unfold pieces arguments
  refine List.rel_append (.cons hvariable ?_) ?_
  · rw [List.forall₂_map_left_iff, List.forall₂_same]
    exact hfields
  · cases hseparator : step.separator with
    | none => exact .nil
    | some separator =>
      have hmem : separator ∈ step.texts t := by simp [texts, hseparator]
      exact .cons hoption (.cons (h.spells hmem) .nil)

end CheckStep

end SchemaTables
