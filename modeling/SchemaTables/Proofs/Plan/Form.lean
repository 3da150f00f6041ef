import SchemaTables.Plan.Form
import SchemaTables.Proofs.Shape.Acceptance

/-!
The three descriptions of a plan document agree. What is written of a plan has the published form, whatever
has the form can be read as a plan, and what is read of a plan is the plan. So a document is refused for its
form or for the rules of plans, and for nothing else.
-/

namespace SchemaTables

set_option autoImplicit false

open Shape (text textOrNull listOf record)

def CheckStep.form : Shape :=
  record [("child_column", text), ("parent_column", text), ("parent_table", text), ("separator", textOrNull)]
    ["child_column", "parent_column", "parent_table"]

def CheckTask.form : Shape :=
  record [("child_table", text), ("depends_on", listOf text), ("error_log", text), ("name", text),
      ("steps", listOf CheckStep.form), ("success_log", text)]
    ["child_table", "depends_on", "error_log", "name", "steps", "success_log"]

def CheckPlan.form : Shape :=
  record [("plan_version", text), ("tasks", listOf CheckTask.form), ("validation_dir", text)]
    ["plan_version", "tasks", "validation_dir"]

/-- The published document describes this form. -/
theorem CheckPlan.ofDocument?_formDocument : Shape.ofDocument? CheckPlan.formDocument = some CheckPlan.form :=
  (rfl)

namespace CheckStep

theorem form_describes : form.Describes ofJson? := by
  intro v h
  obtain ⟨fields, rfl, _⟩ := Shape.accepts_record_iff.mp h
  obtain ⟨childColumn, hchild⟩ :=
    Shape.exists_required "child_column" Shape.describes_text h (by simp) (by simp)
  obtain ⟨parentTable, htable⟩ :=
    Shape.exists_required "parent_table" Shape.describes_path h (by simp) (by simp)
  obtain ⟨parentColumn, hparent⟩ :=
    Shape.exists_required "parent_column" Shape.describes_text h (by simp) (by simp)
  obtain ⟨separator, hseparator⟩ := Shape.exists_optional_text "separator" h (by simp)
  refine ⟨⟨childColumn, parentTable, parentColumn, separator⟩, ?_⟩
  simp [ofJson?, Json.record?, hchild, htable, hparent, hseparator]

theorem ofJson?_toJson (s : CheckStep) : ofJson? s.toJson = some s := by
  obtain ⟨childColumn, parentTable, parentColumn, separator⟩ := s
  cases separator <;> rfl

theorem accepts_toJson (s : CheckStep) : form.Accepts s.toJson := by
  refine Shape.accepts_record_iff.mpr ⟨_, rfl, ?_, ?_⟩
  · obtain ⟨childColumn, parentTable, parentColumn, separator⟩ := s
    cases separator <;>
      simp [Json.whenSome, Json.ofPath, List.lookup_cons, List.lookup_nil, Shape.accepts_text_iff,
        Shape.accepts_textOrNull_iff]
  · simp [List.lookup_cons]

end CheckStep

namespace CheckTask

theorem form_describes : form.Describes ofJson? := by
  intro v h
  obtain ⟨fields, rfl, _⟩ := Shape.accepts_record_iff.mp h
  obtain ⟨name, hname⟩ := Shape.exists_required "name" Shape.describes_text h (by simp) (by simp)
  obtain ⟨childTable, htable⟩ :=
    Shape.exists_required "child_table" Shape.describes_path h (by simp) (by simp)
  obtain ⟨dependsOn, hdepends⟩ :=
    Shape.exists_required "depends_on" (Shape.describes_listOf Shape.describes_path) h (by simp) (by simp)
  obtain ⟨errorLog, herror⟩ := Shape.exists_required "error_log" Shape.describes_path h (by simp) (by simp)
  obtain ⟨successLog, hsuccess⟩ :=
    Shape.exists_required "success_log" Shape.describes_path h (by simp) (by simp)
  obtain ⟨steps, hsteps⟩ :=
    Shape.exists_required "steps" (Shape.describes_listOf CheckStep.form_describes) h (by simp) (by simp)
  refine ⟨⟨name, childTable, dependsOn, errorLog, successLog, steps⟩, ?_⟩
  simp [ofJson?, Json.record?, hname, htable, hdepends, herror, hsuccess, hsteps]

theorem ofJson?_toJson (t : CheckTask) : ofJson? t.toJson = some t := by
  have hdepends : Json.list? Json.path? (.arr (t.dependsOn.map Json.ofPath)) = some t.dependsOn :=
    Json.list?_map fun _ _ => rfl
  have hsteps : Json.list? CheckStep.ofJson? (.arr (t.steps.map CheckStep.toJson)) = some t.steps :=
    Json.list?_map fun s _ => s.ofJson?_toJson
  simp [ofJson?, toJson, Json.record?, Json.required, List.lookup_cons, hdepends, hsteps, Json.path?, Json.text?,
    Json.ofPath]

theorem accepts_toJson (t : CheckTask) : form.Accepts t.toJson := by
  refine Shape.accepts_record_iff.mpr ⟨_, rfl, ?_, ?_⟩
  · simp [Json.ofPath, List.lookup_cons, List.lookup_nil, Shape.accepts_text_iff, Shape.accepts_listOf_iff,
      CheckStep.accepts_toJson]
  · simp [List.lookup_cons, List.lookup_nil]

end CheckTask

namespace CheckPlan

theorem form_describes : form.Describes ofJson? := by
  intro v h
  obtain ⟨fields, rfl, _⟩ := Shape.accepts_record_iff.mp h
  obtain ⟨version, hversion⟩ :=
    Shape.exists_required "plan_version" Shape.describes_text h (by simp) (by simp)
  obtain ⟨validationDir, hdir⟩ :=
    Shape.exists_required "validation_dir" Shape.describes_path h (by simp) (by simp)
  obtain ⟨tasks, htasks⟩ :=
    Shape.exists_required "tasks" (Shape.describes_listOf CheckTask.form_describes) h (by simp) (by simp)
  refine ⟨⟨version, validationDir, tasks⟩, ?_⟩
  simp [ofJson?, Json.record?, hversion, hdir, htasks]

theorem ofJson?_toJson (p : CheckPlan) : ofJson? p.toJson = some p := by
  have htasks : Json.list? CheckTask.ofJson? (.arr (p.tasks.map CheckTask.toJson)) = some p.tasks :=
    Json.list?_map fun t _ => t.ofJson?_toJson
  simp [ofJson?, toJson, Json.record?, Json.required, List.lookup_cons, htasks, Json.path?, Json.text?, Json.ofPath]

theorem accepts_toJson (p : CheckPlan) : form.Accepts p.toJson := by
  refine Shape.accepts_record_iff.mpr ⟨_, rfl, ?_, ?_⟩
  · simp [Json.ofPath, List.lookup_cons, List.lookup_nil, Shape.accepts_text_iff, Shape.accepts_listOf_iff,
      CheckTask.accepts_toJson]
  · simp [List.lookup_cons, List.lookup_nil]

/-- The codes of the errors that the rules for plans make. -/
def errorCodes : List String :=
  ["duplicate_child_table", "duplicate_log_path", "undeclared_dependency", "empty_separator"]

theorem code_mem_of_mem_errors {index : Nat} {seen : SeenPaths} {t : CheckTask} {issue : Issue}
    (h : issue ∈ t.errors index seen) : issue.code ∈ errorCodes := by
  have hlog : ∀ {logs field log}, issue ∈ CheckTask.logErrors index logs field log →
      issue.code ∈ errorCodes := by
    intro logs field log h
    rw [CheckTask.logErrors, List.mem_ite_nil_right, List.mem_singleton] at h
    simp [h.2, Issue.error, errorCodes]
  unfold CheckTask.errors at h
  simp only [List.mem_append, List.mem_flatten, List.mem_mapIdx] at h
  rcases h with ((h | h) | h) | ⟨_, ⟨i, _, rfl⟩, h⟩
  · rw [CheckTask.childTableErrors, List.mem_ite_nil_right, List.mem_singleton] at h
    simp [h.2, errorCodes]
  · exact hlog h
  · exact hlog h
  · rw [CheckTask.stepErrors, List.mem_append, List.mem_ite_nil_left, List.mem_ite_nil_right,
      List.mem_singleton, List.mem_singleton] at h
    rcases h with h | h
    · simp [h.2, errorCodes]
    · simp [h.2, Issue.error, errorCodes]

theorem code_mem_of_mem_taskErrors {index : Nat} {seen : SeenPaths} {tasks : List CheckTask} {issue : Issue}
    (h : issue ∈ taskErrors index seen tasks) : issue.code ∈ errorCodes := by
  induction tasks generalizing index seen with
  | nil => cases h
  | cons t rest ih =>
    rcases List.mem_append.mp h with h | h
    · exact code_mem_of_mem_errors h
    · exact ih h

theorem read_of_accepts {document : Json} {p : CheckPlan} (h : form.Accepts document)
    (hp : ofJson? document = some p) :
    read document = if p.review.isOk then .ok (p, p.review.warnings) else .error p.review := by
  rw [read, readAs, ofDocument?_formDocument]
  simp only [Shape.isOk_review_iff.mpr h, hp]
  rfl

theorem read_of_not_accepts {document : Json} (h : ¬ form.Accepts document) :
    read document = .error (form.review document) := by
  rw [← Shape.isOk_review_iff, Bool.not_eq_true] at h
  rw [read, readAs, ofDocument?_formDocument]
  simp only [h]
  rfl

/-- A plan that is written and read again is the plan, with the warnings of its review, or is refused with
this review; and a document of the published form is always read as a plan, so that no document is refused
for anything but its form or the rules for plans. -/
theorem read_by_form_and_rules :
    (∀ p : CheckPlan, read p.toJson =
      if p.review.isOk then .ok (p, p.review.warnings) else .error p.review) ∧
    (∀ document, (shape.review document).isOk = true → ∃ p, ofJson? document = some p) ∧
    ∀ document report, read document = .error report →
      ∀ issue ∈ report.errors, issue.code ≠ "invalid_plan_json" := by
  refine ⟨fun p => read_of_accepts p.accepts_toJson p.ofJson?_toJson, fun document h => ?_, ?_⟩
  · rw [shape, ofDocument?_formDocument, Option.getD_some, Shape.isOk_review_iff] at h
    exact form_describes document h
  · intro document report hread issue hissue hcode
    by_cases h : form.Accepts document
    · obtain ⟨p, hp⟩ := form_describes document h
      rw [read_of_accepts h hp] at hread
      split at hread
      · cases hread
      · cases hread
        have hmem := code_mem_of_mem_taskErrors hissue
        rw [hcode] at hmem
        exact absurd hmem (by decide)
    · rw [read_of_not_accepts h] at hread
      cases hread
      obtain ⟨violation, _, rfl⟩ := List.mem_map.mp hissue
      exact absurd hcode (by simp [Violation.issue, Issue.error])

end CheckPlan

end SchemaTables
