import SchemaTables.CommandLine.Command
import SchemaTables.Proofs.Except

/-!
Reading the words of a command. Words that do not look like options are its arguments, as long as its form
asks for more; an option with a value is read with the word after it.
-/

namespace SchemaTables.CommandLine

set_option autoImplicit false

variable {f : ProgramForm} {c : CommandForm} {outer inner : Given} {word : String}

/-- The reader after the name of a command, between two words. -/
def Reader.within (c : CommandForm) (outer inner : Given) : Reader where
  focus := .command c
  outer := outer
  inner := inner

namespace Reader

theorem takeFree_of_plain (r : Reader) (h : looksLikeOption word = false) :
    r.takeFree f word = r.takeWord f word := by
  unfold looksLikeOption at h
  unfold takeFree
  split
  · rename_i hchars
    simp [hchars] at h
  · rename_i hchars
    simp [hchars] at h
  · rename_i hchars
    simp [hchars] at h
  · rfl

theorem step_argument {a : ArgumentForm} (hform : c.arguments[inner.arguments.length]? = some a)
    (haccepts : a.kind.accepts word = true) (hplain : looksLikeOption word = false) :
    (within c outer inner).step f word =
      .ok (within c outer { inner with arguments := inner.arguments ++ [word] }) := by
  have hnext : argumentForm? c inner.arguments.length = some a := by
    unfold argumentForm?
    rw [hform]
  change (within c outer inner).takeFree f word = _
  rw [takeFree_of_plain _ hplain]
  simp [takeWord, takeArgument, within, hnext, haccepts]

/-- The forms are those of the arguments that are still asked for. -/
theorem foldlM_arguments (given : List ArgumentForm) {forms : List ArgumentForm} {words : List String}
    (hform : c.arguments = given ++ forms) (hgiven : inner.arguments.length = given.length)
    (h : List.Forall₂ (fun a word => a.kind.accepts word = true ∧ looksLikeOption word = false) forms words) :
    words.foldlM (Reader.step f) (within c outer inner) =
      .ok (within c outer { inner with arguments := inner.arguments ++ words }) := by
  induction h generalizing given inner with
  | nil => simp [List.append_nil, pure, Except.pure]
  | @cons a word forms words hword _ ih =>
    have hnext : c.arguments[inner.arguments.length]? = some a := by
      rw [hform, hgiven]
      simp
    rw [List.foldlM_cons, step_argument hnext hword.1 hword.2]
    refine (ih (given ++ [a]) ?_ ?_).trans ?_
    · rw [hform, List.append_assoc, List.singleton_append]
    · simp [hgiven]
    · simp

end Reader

/-- The words that give a separator, if there is one. -/
def separatorWords : Option String → List String
  | some separator => ["--separator", separator]
  | none => []

theorem Reader.foldlM_separatorWords {separator : Option String} {arguments : List String}
    (hplain : ∀ text ∈ separator, looksLikeOption text = false) :
    (separatorWords separator).foldlM (Reader.step program) (within checkForm {} ⟨[], arguments⟩) =
      .ok (within checkForm {} ⟨(separator.map fun text => ("separator", text)).toList, arguments⟩) := by
  cases separator with
  | none => rfl
  | some text =>
    have hname : (within checkForm {} ⟨[], arguments⟩).step program "--separator" =
        .ok { within checkForm {} ⟨[], arguments⟩ with pending := some separatorOption } := rfl
    rw [separatorWords, List.foldlM_cons, hname]
    change [text].foldlM (Reader.step program)
      { within checkForm {} ⟨[], arguments⟩ with pending := some separatorOption } = _
    rw [List.foldlM_cons]
    have hvalue : ({ within checkForm {} ⟨[], arguments⟩ with pending := some separatorOption } :
        Reader).step program text = .ok (within checkForm {} ⟨[("separator", text)], arguments⟩) := by
      simp [step, within, hplain text rfl]
      rfl
    rw [hvalue]
    rfl

/-- A check is asked for by its tables and columns; without a separator it takes the default. -/
theorem invocation_check {childTable childColumn parentTable parentColumn : String}
    {separator : Option String} (hchild : childTable ≠ "") (hparent : parentTable ≠ "")
    (hplain : ∀ text ∈ [childTable, childColumn, parentTable, parentColumn] ++ separator.toList,
      Reader.looksLikeOption text = false) :
    invocation (checkForm.name ::
      ([childTable, childColumn, parentTable, parentColumn] ++ separatorWords separator)) =
      .ok ⟨⟨"tablewright.toml"⟩, ⟨"runs"⟩, false,
        .check ⟨⟨childTable⟩, childColumn, ⟨parentTable⟩, parentColumn, separator.getD "|"⟩⟩ := by
  have hread : read program (checkForm.name ::
      ([childTable, childColumn, parentTable, parentColumn] ++ separatorWords separator)) =
      .ok ⟨checkForm, (separator.map fun text => ("separator", text)).toList,
        [childTable, childColumn, parentTable, parentColumn]⟩ := by
    have hname : Reader.step program {} checkForm.name = .ok (.within checkForm {} {}) := rfl
    have harguments : [childTable, childColumn, parentTable, parentColumn].foldlM (Reader.step program)
        (.within checkForm {} {}) =
        .ok (.within checkForm {} ⟨[], [childTable, childColumn, parentTable, parentColumn]⟩) := by
      apply Reader.foldlM_arguments [] rfl rfl
      simp [checkForm, ValueKind.accepts, hchild, hparent, hplain]
    have hseparator : ∀ text ∈ separator, Reader.looksLikeOption text = false := by
      intro text htext
      exact hplain text (List.mem_append_right _ (Option.mem_toList.mpr htext))
    rw [read, List.foldlM_cons, hname]
    change (([childTable, childColumn, parentTable, parentColumn] ++ separatorWords separator).foldlM
      (Reader.step program) (.within checkForm {} {}) >>= _) = _
    rw [List.foldlM_append, harguments]
    change ((separatorWords separator).foldlM (Reader.step program)
      (.within checkForm {} ⟨[], [childTable, childColumn, parentTable, parentColumn]⟩) >>= _) = _
    rw [Reader.foldlM_separatorWords hseparator]
    cases separator <;> rfl
  rw [invocation, hread]
  cases separator <;> rfl

end SchemaTables.CommandLine
