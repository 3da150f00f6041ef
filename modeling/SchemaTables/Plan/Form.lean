import SchemaTables.Plan.Validity
import SchemaTables.Shape.Schema

/-!
The published form of plan documents, as a JSON Schema.
-/

namespace SchemaTables

namespace CheckPlan

/-- Any text. -/
private def anyText : Json := .obj [("type", .str "string")]

/-- A text or null. -/
private def optionalText : Json := .obj [("type", .arr [.str "string", .str "null"])]

/-- The definition with a name. -/
private def defined (name : String) : Json := .obj [("$ref", .str ("#/definitions/" ++ name))]

private def listing (items : Json) : Json := .obj [("type", .str "array"), ("items", items)]

/-- The form of a plan document, for those who write or read one. -/
def formDocument : Json :=
  .obj [
    ("$schema", .str "http://json-schema.org/draft-07/schema#"),
    ("title", .str "CheckPlan"),
    ("description", .str "Executable plan of deferred foreign-key checks.\n\nEvery path is relative to the output root."),
    ("type", .str "object"),
    ("required", .arr [.str "plan_version", .str "tasks", .str "validation_dir"]),
    ("properties", .obj [
      ("plan_version", anyText),
      ("tasks", .obj [
        ("description", .str "One task per child table, ordered by child table path."),
        ("type", .str "array"),
        ("items", defined "CheckTask")]),
      ("validation_dir", .obj [
        ("description", .str "Directory holding the per-task logs."),
        ("type", .str "string")])]),
    ("definitions", .obj [
      ("CheckStep", .obj [
        ("description", .str "One (child column, parent column) membership check."),
        ("type", .str "object"),
        ("required", .arr [.str "child_column", .str "parent_column", .str "parent_table"]),
        ("properties", .obj [
          ("child_column", anyText),
          ("parent_column", anyText),
          ("parent_table", anyText),
          ("separator", .obj [
            ("description", .str "Splits multivalued child cells. Absent for single-valued columns."),
            ("type", .arr [.str "string", .str "null"])])])]),
      ("CheckTask", .obj [
        ("description", .str "All checks whose child column lives in one table."),
        ("type", .str "object"),
        ("required", .arr [
          .str "child_table",
          .str "depends_on",
          .str "error_log",
          .str "name",
          .str "steps",
          .str "success_log"]),
        ("properties", .obj [
          ("child_table", anyText),
          ("depends_on", .obj [
            ("description", .str "Distinct parent tables referenced by the steps, sorted."),
            ("type", .str "array"),
            ("items", anyText)]),
          ("error_log", .obj [
            ("description", .str "Receives the output of every failing step; truncated when the task starts."),
            ("type", .str "string")]),
          ("name", .obj [
            ("description", .str "Child table file stem, e.g. `Dataset`."),
            ("type", .str "string")]),
          ("steps", listing (defined "CheckStep")),
          ("success_log", .obj [
            ("description", .str "Touched only when no step failed."),
            ("type", .str "string")])])])])]

/-- The shape that the form describes. -/
def shape : Shape := (Shape.ofDocument? formDocument).getD .nothing

/-- What reading a plan document gives: a plan with warnings, or a report that tells why there is none. -/
abbrev Reading := Except Report (CheckPlan × List Issue)

/-- Reads a plan that keeps to a form. The form comes first, then the fields, then the rules for plans. -/
def readAs (form document : Json) : Reading :=
  match Shape.ofDocument? form with
  | none => .error (.single (.error "schema_validation_error" "/" "the form is not a JSON Schema"))
  | some shape =>
    let structural := shape.review document
    if !structural.isOk then .error structural
    else match ofJson? document with
      | none => .error (.single (.error "invalid_plan_json" "/" "the document is not a plan"))
      | some plan =>
        let semantic := plan.review
        if semantic.isOk then .ok (plan, semantic.warnings) else .error semantic

/-- Reads a plan that keeps to the published form. -/
def read (document : Json) : Reading := readAs formDocument document

end CheckPlan

end SchemaTables
