import SchemaTables.Proofs.Artifacts.Checks
import SchemaTables.Proofs.Plan.BuildMakefile

/-!
The rules for make that a schema compiles to. They say what the plan says exactly when the names, titles and paths that
go into its checks can stand in such a file as they are, and nothing refuses those that cannot.
-/

namespace SchemaTables

set_option autoImplicit false

/-- Make reads from the rules of a compiled plan two variables that list the success logs and the error logs, and for
each task in turn a rule that makes its success log of the tables it depends on and the directory of the logs, exactly
when this holds of every slot with a check: the directory is there and has no blank and no colon, nor has the stem of
the class's table; the table that the slot refers to is a word; and no other text of the check starts a line that says
something. -/
theorem compile_makefile {o : Options} {s : Schema} {a : Artifacts} {v : View} (h : compile o s = .ok a)
    (hv : View.ofSchema s = .ok v) : Make.read a.plan.makefile = a.plan.statements ↔
      ∀ c ∈ v.tableClasses, ∀ slots, v.slots c.name = .ok slots → ∀ slot ∈ slots, ∀ target,
        Job.RefersTo ⟨v, o⟩ slot target → slot.multivalued = true ∨ slot.required = false →
          ManualCheck.Legible ⟨Options.csvPath c.name, slot.columnTitle, target.table, target.idTitle,
            if slot.multivalued then some o.separator else none⟩ o.validationDir := by
  obtain ⟨v', h⟩ := compile_eq_ok_iff.mp h
  cases hv.symm.trans h.view
  have hplan : a.plan = .ofChecks a.manualChecks o.validationDir := h.plan
  rw [hplan, CheckPlan.read_makefile_ofChecks_iff]
  constructor
  · intro hall c hc slots hslots slot hslot target href hmanual
    exact hall _ (h.mem_manualChecks_iff.mpr ⟨c, hc, slots, hslots, slot, hslot, target, href, hmanual, rfl⟩)
  · intro hall check hcheck
    obtain ⟨c, hc, slots, hslots, slot, hslot, target, href, hmanual, rfl⟩ := h.mem_manualChecks_iff.mp hcheck
    exact hall c hc slots hslots slot hslot target href hmanual

def personKey : Slot := { name := "id", required := true, identifier := true }

def friends : Slot := { name := "friends", range := "Person", multivalued := true }

def friendView : View := ⟨friendSchema, [("Person", [personKey, friends])]⟩

/-- The rules for the friends of persons say what the plan says. -/
theorem compile_makefile_friends : ∃ a, compile {} friendSchema = .ok a ∧
    Make.read a.plan.makefile = a.plan.statements := by
  obtain ⟨text, ha⟩ := exists_compile (o := {}) (s := friendSchema) (by decide) rfl rfl rfl rfl
  have hview : View.ofSchema friendSchema = .ok friendView := rfl
  refine ⟨_, ha, (compile_makefile ha hview).mpr ?_⟩
  intro c hc slots hslots slot hslot target href hmanual
  cases List.mem_singleton.mp hc
  have heq : friendView.slots "Person" = .ok [personKey, friends] := rfl
  cases heq.symm.trans hslots
  have hfriends : slot = friends := by
    rcases List.mem_pair.mp hslot with rfl | rfl
    · revert hmanual
      decide
    · rfl
  have hpersons : Job.RefersTo ⟨friendView, {}⟩ friends
      ⟨Options.csvPath "Person", personKey.name, personKey.columnTitle⟩ :=
    @Job.RefersTo.ofClass _ _ { name := "Person", slots := ["id", "friends"] } personKey rfl rfl rfl
  subst hfriends
  cases href.unique hpersons
  have htexts : ∀ text ∈ ["Person.csv", "friends", "id*", "|"], '\n' ∉ text.toList := by decide
  exact ⟨by decide, by decide, by decide, fun text htext => Make.sheltered_of_notMem (htexts text htext)⟩

/-- Research groups have any number of partners, who are research groups. -/
def groupSchema : Schema where
  name := "groups"
  classPrefix := some "ex"
  prefixes := [("ex", "https://example.org/")]
  types := [{ name := "string" }]
  classes := [{ name := "Research Group", slots := ["id", "partners"] }]
  slots := [{ name := "id", required := true, identifier := true },
    { name := "partners", range := "Research Group", multivalued := true }]

def groupPlan : CheckPlan :=
  .ofChecks [⟨⟨"Research Group.csv"⟩, "partners", ⟨"Research Group.csv"⟩, "id*", some "|"⟩] ⟨"out/validation"⟩

/-- The blank in the name cuts the log of research groups in two, and their table as well. -/
theorem exists_rule_of_two_targets : ∃ a, compile {} groupSchema = .ok a ∧
    Make.read a.plan.makefile ≠ a.plan.statements ∧
    .rule ["out/validation/Research", "Group-csv-list-column-foreign-key.success.log"]
      ["Research", "Group.csv", "out/validation"] ∈ Make.read a.plan.makefile := by
  obtain ⟨text, ha⟩ := exists_compile (o := {}) (s := groupSchema) (by decide) rfl rfl rfl rfl
  have hrule : ∀ t ∈ groupPlan.tasks, ¬ Text.IsWord t.successLog.text ∧
      .rule ["out/validation/Research", "Group-csv-list-column-foreign-key.success.log"]
        ["Research", "Group.csv", "out/validation"] ∈ Make.read (t.ruleHead groupPlan) := by decide +kernel
  have htask : .ofChecks ⟨"out/validation"⟩ ⟨"Research Group.csv"⟩ _ ∈ groupPlan.tasks := List.mem_singleton_self _
  obtain ⟨hcut, hread⟩ := hrule _ htask
  exact ⟨_, ha, fun heq => hcut (CheckPlan.hasWords_of_read heq _ htask).successLog,
    CheckPlan.read_ruleHead_subset htask hread⟩

end SchemaTables
