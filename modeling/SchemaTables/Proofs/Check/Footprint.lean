import SchemaTables.Check.Run
import SchemaTables.Proofs.Files.Footprint
import SchemaTables.Proofs.Plan.Form

/-!
What the run of a plan leaves alone. However it ends, a run writes to nothing but the logs of its tasks,
and makes directories on the ways of the logs and of the directory of the logs only. So a table keeps its
content unless a log lies in its place.
-/

namespace SchemaTables

set_option autoImplicit false

variable {writes makes : Path → Prop} {dataDir : Path}

theorem CheckStep.run_touches (step : CheckStep) (childTable : Path) :
    (step.run dataDir childTable).Touches writes makes := by
  have hread : ∀ p title, (Check.readColumn p title).Touches writes makes := fun p title =>
    .bind (.request trivial) fun _ => trivial
  exact Script.Touches.bind (Task.Touches.bind (hread _ _) fun _ => .bind (hread _ _) fun _ => .pure _)
    fun _ => trivial

namespace CheckTask

/-- The logs of a task. -/
def logs (t : CheckTask) (dataDir : Path) : List Path := [dataDir.join t.errorLog, dataDir.join t.successLog]

theorem errorLog_mem_logs (t : CheckTask) (dataDir : Path) : dataDir.join t.errorLog ∈ t.logs dataDir := List.mem_cons_self

theorem successLog_mem_logs (t : CheckTask) (dataDir : Path) : dataDir.join t.successLog ∈ t.logs dataDir :=
  List.mem_cons_of_mem _ List.mem_cons_self

theorem errorLog_subset_logs (t : CheckTask) (dataDir : Path) : [dataDir.join t.errorLog] ⊆ t.logs dataDir :=
  List.cons_subset.mpr ⟨t.errorLog_mem_logs dataDir, List.nil_subset _⟩

theorem successLog_subset_logs (t : CheckTask) (dataDir : Path) : [dataDir.join t.successLog] ⊆ t.logs dataDir :=
  List.cons_subset.mpr ⟨t.successLog_mem_logs dataDir, List.nil_subset _⟩

/-- The tables that a task reads. -/
def tables (t : CheckTask) (dataDir : Path) : List Path :=
  dataDir.join t.childTable :: t.steps.map fun step => dataDir.join step.parentTable

variable {t : CheckTask} {errorLog : Path}

theorem runStep_touches (childTable : Path) (step : CheckStep) (hwrites : writes errorLog)
    (hmakes : ∀ q : Path, q.OnWayOf errorLog → makes q) :
    (runStep dataDir childTable errorLog step).Touches writes makes := by
  refine .bind (Script.Touches.bind (step.run_touches childTable) fun _ => trivial) fun f => ?_
  cases f with
  | none => exact .pure _
  | some failure =>
    exact .bind (Files.makeParent_touches hmakes) fun _ =>
      .bind (Files.addLine_touches hwrites) fun _ => .pure _

/-- A task writes to its logs, and makes directories on their ways. -/
theorem run_touches (hwrites : ∀ log ∈ t.logs dataDir, writes log)
    (hmakes : ∀ log ∈ t.logs dataDir, ∀ q : Path, q.OnWayOf log → makes q) :
    (t.run dataDir).Touches writes makes := by
  have herror := t.errorLog_mem_logs dataDir
  have hsuccess := t.successLog_mem_logs dataDir
  refine .bind (Files.removeIfThere_touches (hwrites _ herror)) fun _ => ?_
  refine .bind (Files.removeIfThere_touches (hwrites _ hsuccess)) fun _ => ?_
  refine .bind (.mapM fun step _ => runStep_touches _ step (hwrites _ herror) (hmakes _ herror)) fun _ => ?_
  simp only
  split
  · exact .bind (Files.makeParent_touches (hmakes _ hsuccess)) fun _ =>
      .bind (Files.writeText_touches (hwrites _ hsuccess)) fun _ => .pure _
  · exact .pure _

end CheckTask

namespace CheckPlan

def logs (plan : CheckPlan) (dataDir : Path) : List Path := plan.tasks.flatMap (·.logs dataDir)

def tables (plan : CheckPlan) (dataDir : Path) : List Path := plan.tasks.flatMap (·.tables dataDir)

variable {plan : CheckPlan} {runId : String} {s : Store}

theorem run_touches (plan : CheckPlan) (dataDir : Path) (runId : String) :
    (plan.run dataDir runId).Touches (· ∈ plan.logs dataDir)
      fun q => ∃ p ∈ dataDir.join plan.validationDir :: plan.logs dataDir, q.OnWayOf p := by
  refine .bind ⟨trivial, fun _ => trivial⟩ fun _ => ?_
  refine .bind (Files.makeDirectoriesFrom_touches fun q hq => ⟨_, List.mem_cons_self, hq⟩) fun _ => ?_
  refine .bind (.mapM fun t ht => ?_) fun _ => .bind ⟨trivial, fun _ => trivial⟩ fun _ => .pure _
  have hlogs : ∀ log ∈ t.logs dataDir, log ∈ plan.logs dataDir := fun log hlog =>
    List.mem_flatMap.mpr ⟨t, ht, hlog⟩
  exact CheckTask.run_touches hlogs fun log hlog q hq =>
    ⟨log, List.mem_cons_of_mem _ (hlogs log hlog), hq⟩

/-- The store after a run, however it ends. -/
theorem run_differs (plan : CheckPlan) (dataDir : Path) (runId : String) (s : Store) :
    s.Differs (fun l => ∃ log ∈ plan.logs dataDir, s.destination log = l)
      (fun l => ∃ p ∈ dataDir.join plan.validationDir :: plan.logs dataDir, s.Passes p l)
      ((plan.run dataDir runId).run.run s).2 :=
  Script.Touches.differs (plan.run_touches dataDir runId) (fun log hlog => ⟨log, hlog, rfl⟩)
    fun q ⟨p, hp, hq⟩ => ⟨p, hp, hq s _ (s.passes_destination q)⟩

/-- A run leaves every file that has no log in its place as it was, so every such table. Where nothing
is there will be no file, nor a directory that is not on the way of a log. -/
theorem run_keeps_table (table : Path)
    (hfree : ∀ log ∈ plan.logs dataDir, s.destination log ≠ s.destination table) :
    (∀ content, s.read table = .ok content →
        ((plan.run dataDir runId).run.run s).2.read table = .ok content) ∧
      (∀ content, ((plan.run dataDir runId).run.run s).2.item? (s.destination table) = some (.file content) ↔
        s.item? (s.destination table) = some (.file content)) ∧
      (s.item? (s.destination table) = none →
        (∀ p ∈ dataDir.join plan.validationDir :: plan.logs dataDir, ¬ s.Passes p (s.destination table)) →
        ((plan.run dataDir runId).run.run s).2.item? (s.destination table) = none) := by
  have hdiffers := plan.run_differs dataDir runId s
  have hkept : ¬ ∃ log ∈ plan.logs dataDir, s.destination log = s.destination table := by
    rintro ⟨log, hlog, heq⟩
    exact hfree log hlog heq
  refine ⟨fun content hread => hdiffers.read hread hkept, fun content => hdiffers.file_iff hkept, ?_⟩
  intro hnone hways
  rw [hdiffers.item_eq hkept fun _ ⟨p, hp, hpasses⟩ => hways p hp hpasses, hnone]

/-- A child table and its check against a table that is there and one that is not. -/
def orders (successLog : Path) : CheckPlan where
  version := planVersion
  validationDir := ⟨"out"⟩
  tasks := [{
    name := "orders"
    childTable := ⟨"orders.csv"⟩
    dependsOn := [⟨"archive.csv"⟩, ⟨"items.csv"⟩]
    errorLog := ⟨"out/orders.err.log"⟩
    successLog := successLog
    steps := [⟨"item", ⟨"items.csv"⟩, "id", none⟩, ⟨"item", ⟨"archive.csv"⟩, "id", none⟩] }]

/-- A store with the tables that are there. -/
def ordersStore : Store where
  items := [(["items.csv"], .file (Text.Utf8.encode "id\n7\n")),
    (["orders.csv"], .file (Text.Utf8.encode "item\n7\n"))]

theorem run_keeps_table_items :
    (⟨"./items.csv"⟩ ∈ (orders ⟨"out/orders.success.log"⟩).tables ⟨"."⟩ ∧
      (((orders ⟨"out/orders.success.log"⟩).run ⟨"."⟩ "run").run.run ordersStore).2.read ⟨"./items.csv"⟩ =
        .ok (Text.Utf8.encode "id\n7\n")) ∧
    ⟨"./archive.csv"⟩ ∈ (orders ⟨"out/orders.success.log"⟩).tables ⟨"."⟩ ∧
      (((orders ⟨"out/orders.success.log"⟩).run ⟨"."⟩ "run").run.run ordersStore).2.item? ["archive.csv"] = none := by
  refine ⟨⟨by decide, ?_⟩, by decide, ?_⟩
  · exact (run_keeps_table ⟨"./items.csv"⟩ (by decide +kernel)).1 _ (by decide +kernel)
  · exact (run_keeps_table ⟨"./archive.csv"⟩ (by decide +kernel)).2.2 (by decide +kernel)
      (by decide +kernel)

/-- A plan that is accepted may name one of its tables as a log, which its run then removes. -/
theorem exists_table_removed : ∃ document plan warnings s table content,
    read document = .ok (plan, warnings) ∧ table ∈ plan.tables ⟨"."⟩ ∧ s.read table = .ok content ∧
      ∃ o s', (plan.run ⟨"."⟩ "run").Returns s o s' ∧ s'.read table = .error .notFound := by
  have hread := read_of_accepts (orders ⟨"items.csv"⟩).accepts_toJson (orders ⟨"items.csv"⟩).ofJson?_toJson
  rw [if_pos (by decide +kernel)] at hread
  refine ⟨_, _, _, ordersStore, ⟨"./items.csv"⟩, _, hread, by decide, by rfl, _, _, rfl, by decide +kernel⟩

end CheckPlan

end SchemaTables
