import SchemaTables.Proofs.Files.Frame

/-!
What the tasks on whole files and directories write to. Making directories writes to no file.
-/

namespace SchemaTables.Files

set_option autoImplicit false

variable {allowed : Path → Prop} {p : Path}

theorem makeOne_writesOnly : (makeOne p).WritesOnly allowed := by
  refine ⟨trivial, fun r => ?_⟩
  cases r with
  | ok => trivial
  | error e =>
    refine ⟨trivial, fun r => ?_⟩
    rcases r with _ | _ | _ <;> trivial

theorem makeDirectoriesFrom_writesOnly {depth : Nat} : (makeDirectoriesFrom depth p).WritesOnly allowed := by
  induction depth generalizing p with
  | zero => exact .pure ()
  | succ depth ih =>
    unfold makeDirectoriesFrom
    refine .bind (Script.WritesOnly.bind makeOne_writesOnly fun _ => trivial) fun r => ?_
    split
    · split
      · exact .bind ih fun _ => makeOne_writesOnly
      · trivial
    · trivial

theorem makeDirectories_writesOnly : (makeDirectories p).WritesOnly allowed :=
  makeDirectoriesFrom_writesOnly

theorem makeParent_writesOnly : (makeParent p).WritesOnly allowed := by
  unfold makeParent
  split
  · exact makeDirectories_writesOnly
  · exact .pure ()

theorem writeText_writesOnly {text : String} (h : allowed p) : (writeText p text).WritesOnly allowed :=
  .bind (.request h) fun _ => .request h

theorem addLine_writesOnly {line : String} (h : allowed p) : (addLine p line).WritesOnly allowed :=
  .bind (.request h) fun _ => .request h

theorem removeIfThere_writesOnly (h : allowed p) : (removeIfThere p).WritesOnly allowed := by
  refine ⟨h, fun r => ?_⟩
  cases r with
  | ok => trivial
  | error e => cases e <;> trivial

end SchemaTables.Files
