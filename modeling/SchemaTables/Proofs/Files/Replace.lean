import SchemaTables.Proofs.Files.Content
import SchemaTables.Proofs.Files.Directory
import SchemaTables.Proofs.Files.Faults
import SchemaTables.Proofs.Files.Ways
import SchemaTables.Proofs.Path.Join

/-!
Files that are replaced as a whole. The new content is written to a sibling, which then takes the name of the
file; so whatever goes wrong, the file has its old content or all of the new one, and no other file than the
sibling has been touched. When all goes well, the sibling is gone.
-/

namespace SchemaTables

set_option autoImplicit false

namespace Store

variable {s s' : Store} {p tmp : Path} {l : Location} {n m : String} {written made : Location → Prop}

theorem parts_of_plain (h : (Component.name m).Plain) : parts ⟨m⟩ = [m] := by
  have hchars : (⟨m⟩ : Path).chars = m.toList := rfl
  have hne : m ≠ "" := h.1
  rw [parts, hchars, Text.splitAt_of_notMem h.2.2.2]
  simp [hne]

/-- A path leads to a place with the name of its file. -/
theorem getLast?_destination_of_fileName? (s : Store) (h : p.fileName? = some n) :
    (s.destination p).getLast? = some n := by
  obtain ⟨init, hcomponents, hn⟩ := Path.components_of_fileName? h
  have hmoves : p.components.filterMap Component.move? = init.filterMap Component.move? ++ [n] := by
    rw [hcomponents, List.filterMap_append]
    rfl
  rw [destination_eq_moves, hmoves, foldl_walk_concat _ hn.2.1 hn.2.2.1, List.getLast?_concat]

/-- Siblings lie in one directory, each under its own name. -/
theorem destination_withFileName (h : p.fileName? = some n) (hm : (Component.name m).Plain) :
    ∃ dir, s.destination p = dir ++ [n] ∧ s.destination (p.withFileName m) = dir ++ [m] := by
  obtain ⟨init, hcomponents, hn⟩ := Path.components_of_fileName? h
  have hparent := parent?_of_components hcomponents nofun
  have hwith : p.withFileName m = (Path.ofComponents init).join ⟨m⟩ := by rw [Path.withFileName, h, hparent]
  have hinit : (Path.ofComponents init).components = init := by
    rw [Path.components_parent? hparent, hcomponents, List.dropLast_concat]
  refine ⟨s.destination (Path.ofComponents init), ?_, ?_⟩
  · rw [destination_eq_moves, destination_eq_moves, hcomponents, hinit, start_parent? hparent,
      List.filterMap_append]
    exact foldl_walk_concat _ hn.2.1 hn.2.2.1
  · rw [hwith, destination_join s _ (Path.isAbsolute_of_plain hm), parts_of_plain hm]
    exact walk_name _ hm.2.1 hm.2.2.1

/-- The content of the file at a location. -/
def content? (s : Store) (l : Location) : Option Bytes :=
  match s.item? l with
  | some (.file content) => some content
  | _ => none

theorem content?_eq_some_iff {content : Bytes} : s.content? l = some content ↔ s.item? l = some (.file content) := by
  unfold content?
  split
  · rename_i found hfound
    rw [hfound]
    simp
  · rename_i hnone
    simpa using hnone content

theorem content?_congr (h : s'.item? l = s.item? l) : s'.content? l = s.content? l := by rw [content?, content?, h]

theorem content?_erase (hl : l ≠ []) : (s.erase l).content? l = none := by
  rw [content?, item?_erase, if_neg hl, if_pos rfl]

theorem item?_put_self {i : Item} (hl : l ≠ []) : (s.put l i).item? l = some i := by
  rw [item?_put, if_neg hl, if_pos rfl]

theorem ne_nil_of_file {content : Bytes} (h : s.item? l = some (.file content)) : l ≠ [] := by
  rintro rfl
  cases h

theorem Differs.content?_eq (h : s.Differs written made s') (hfree : ¬ written l) : s'.content? l = s.content? l := by
  rw [Option.ext_iff]
  intro content
  rw [content?_eq_some_iff, content?_eq_some_iff, h.file_iff hfree]

/-- A file at the end of a place is found there. -/
theorem locate_of_place {q : Place} {i : Item} (h : s.place p = .ok q) (hname : q.name.isSome)
    (hasks : q.asksDirectory = false) (hitem : s.itemAt q = .ok (some i)) : s.locate p = .ok (q.location, i) := by
  have hlocation := location_of_place h hname
  have hthere := item?_of_itemAt hitem
  obtain ⟨_, hcheck, h⟩ := Except.bind_eq_ok_iff.mp h
  obtain ⟨m, hm, h⟩ := Except.bind_eq_ok_iff.mp h
  split at h
  · rename_i hdir
    split at h
    · cases h
      cases hname
    · rename_i name hlast
      split at h
      · cases h
        cases hname
      · rename_i hplain
        rw [not_or] at hplain
        cases h
        have hshort : name.utf8ByteSize ≤ maxName := by
          rw [itemAt] at hitem
          split at hitem
          · cases hitem
          · rename_i hshort
            simpa using hshort
        have hparts : parts p = (parts p).dropLast ++ [name] := by
          rw [List.dropLast_append_getLast? name hlast]
        have hfollow : s.follow m name = .ok (m ++ [name]) := by
          refine follow_eq_ok_iff.mpr ⟨hdir, (walk_name m hplain.1 hplain.2).symm, fun _ _ => ⟨hshort, ?_⟩⟩
          rw [Place.location, Option.toList_some] at hthere
          rw [hthere]
          rfl
        refine locate_eq_ok_iff.mpr ⟨hcheck, ?_, hthere, fun _ => hasks⟩
        rw [hparts, List.foldlM_append]
        refine Except.bind_eq_ok_iff.mpr ⟨m, hm, ?_⟩
        rw [List.foldlM_cons]
        exact Except.bind_eq_ok_iff.mpr ⟨_, hfollow, rfl⟩
  · cases h
  · cases h

/-- A renamed file is all that changes, and it can be read under its new name. -/
theorem rename_keeps {source target : Path} (h : s.rename source target = .ok s') :
    s.Keeps (fun l => l = s.destination source ∨ l = s.destination target) s' := by
  obtain ⟨q, content, replaced, hq, hname, _, hreplaced, hnodir, hsource, rfl⟩ := rename_ok h
  have htarget := item?_of_itemAt hreplaced
  rw [location_of_place hq hname] at htarget
  have herase : s.Keeps (fun l => l = s.destination source ∨ l = s.destination target)
      (s.erase (s.destination source)) := .erase (by simp [hsource]) (Or.inl rfl)
  refine herase.trans (.put ?_)
  rw [item?_erase]
  split
  · rename_i hnil
    rw [hnil] at htarget
    exact absurd htarget.symm hnodir
  · split
    · exact Or.inl rfl
    · rw [htarget]
      exact Or.inr ⟨hnodir, Or.inr rfl⟩

theorem read_rename {source target : Path} {content : Bytes} (h : s.rename source target = .ok s')
    (hsource : s.item? (s.destination source) = some (.file content)) : s'.read target = .ok content := by
  have hkeeps := rename_keeps h
  obtain ⟨q, moved, replaced, hq, hname, hasks, hreplaced, _, hmoved, rfl⟩ := rename_ok h
  cases hsource.symm.trans hmoved
  have hlocation := location_of_place hq hname
  have hne : s.destination target ≠ [] := by
    obtain ⟨name, hsome⟩ := Option.isSome_iff_exists.mp hname
    rw [← hlocation, Place.location, hsome]
    simp
  have hitem : ((s.erase (s.destination source)).put (s.destination target) (.file content)).itemAt q =
      .ok (some (.file content)) := by
    rw [itemAt] at hreplaced ⊢
    split at hreplaced
    · cases hreplaced
    · rename_i hshort
      rw [if_neg hshort, hlocation, item?_put_self hne]
  have hplace := hkeeps.place hq
  rw [read_eq_ok_iff, ← location_of_place hplace hname]
  exact locate_of_place hplace hname hasks hitem

end Store

namespace Files

variable {s s' : Store} {p tmp : Path} {content : Bytes}

/-- The location of the sibling through which the file is replaced. -/
def IsTemporary (s : Store) (p : Path) (l : Location) : Prop := ∃ tmp, temporary? p = some tmp ∧ s.destination tmp = l

instance (s : Store) (p : Path) (l : Location) : Decidable (IsTemporary s p l) :=
  match h : temporary? p with
  | none => .isFalse fun ⟨_, htmp, _⟩ => by cases h.symm.trans htmp
  | some tmp => decidable_of_iff (s.destination tmp = l) (by simp [IsTemporary, h])

theorem isTemporary_congr (h : s'.here = s.here) {l : Location} : IsTemporary s' p l ↔ IsTemporary s p l := by
  simp only [IsTemporary, Store.destination_congr h]

/-- The sibling of a file has its name and `.tmp`. -/
theorem IsTemporary.getLast? {l : Location} {n : String} (h : IsTemporary s p l) (hn : p.fileName? = some n) :
    l.getLast? = some (n ++ ".tmp") := by
  obtain ⟨tmp, htmp, rfl⟩ := h
  obtain ⟨m, hm, rfl⟩ := Option.map_eq_some_iff.mp htmp
  cases hn.symm.trans hm
  obtain ⟨_, _, hplain⟩ := Path.components_of_fileName? hn
  have hplain' : (Component.name (n ++ ".tmp")).Plain := Component.plain_append hplain.2.2.2 (by decide) (by decide)
  obtain ⟨dir, _, hsibling⟩ := Store.destination_withFileName (s := s) hn hplain'
  rw [hsibling, List.getLast?_concat]

/-- A file is never its own sibling. -/
theorem not_isTemporary_self (s : Store) (p : Path) : ¬ IsTemporary s p (s.destination p) := by
  intro h
  obtain ⟨tmp, htmp, _⟩ := id h
  obtain ⟨n, hn, _⟩ := Option.map_eq_some_iff.mp htmp
  have hlast := h.getLast? hn
  rw [Store.getLast?_destination_of_fileName? s hn] at hlast
  have hlength := congrArg (fun t : String => t.toList.length) (Option.some.inj hlast)
  simp at hlength

end Files

namespace Task

variable {ε α : Type} {s s' : Store}

/-- A request with an answer has not gone wrong. -/
theorem ends_request_ok_iff {wrap : FileError → ε} {q : Request α} {a : α} :
    (Task.request wrap q).Ends s (.ok a) s' ↔ s.answer q = (.ok a, s') := by
  rw [ends_request_iff]
  constructor
  · rintro ⟨fault, hanswer, rfl⟩
    cases fault with
    | none =>
      rw [Except.mapError_eq_ok_iff] at hanswer
      exact Prod.ext hanswer rfl
    | some f =>
      cases q <;> cases hanswer
  · intro h
    refine ⟨none, ?_, ?_⟩
    · rw [Store.answerWith, h]
      rfl
    · rw [Store.answerWith, h]

end Task

namespace Files

variable {s s' : Store} {p tmp : Path} {content : Bytes}

/-- A file that is written without fail has the content. -/
theorem item?_of_write (h : (write p content).Ends s (.ok ()) s') :
    s'.item? (s.destination p) = some (.file content) := by
  rcases Task.ends_bind_iff.mp h with ⟨_, herror, _⟩ | ⟨_, m, hcreate, happend⟩
  · cases herror
  · rw [Task.ends_request_ok_iff] at hcreate happend
    have hopen : s.openFile (fun _ => []) p = .ok m := Store.change_eq_ok_iff.mp hcreate
    obtain ⟨before, hbefore, rfl⟩ := Store.append_ok (Store.change_eq_ok_iff.mp happend)
    have hfresh : ∀ {i}, s.item? (s.destination p) = i → i ≠ some .directory →
        m = s.put (s.destination p) (.file []) → before = [] ∧ m.here = s.here ∧ s.destination p ≠ [] := by
      rintro i hi hfile rfl
      have hne : s.destination p ≠ [] := by
        intro hnil
        rw [hnil] at hi
        exact hfile hi.symm
      have hhere : (s.put (s.destination p) (.file [])).here = s.here := rfl
      rw [Store.destination_congr hhere, Store.item?_put_self hne] at hbefore
      cases hbefore
      exact ⟨rfl, hhere, hne⟩
    obtain ⟨rfl, hhere, hne⟩ : before = [] ∧ m.here = s.here ∧ s.destination p ≠ [] := by
      rcases Store.openFile_ok hopen with ⟨hnone, hm⟩ | ⟨_, hold, hm⟩
      · exact hfresh hnone (by simp) hm
      · exact hfresh hold (by simp) hm
    rw [Store.destination_congr hhere, Store.item?_put_self hne, List.nil_append]

theorem write_touches {writes makes : Path → Prop} (h : writes p) : (write p content).Touches writes makes :=
  .bind (.request h) fun _ => .request h

theorem eq_of_ends_sync {r : Except FileError Unit} (h : (Task.request id (.sync p)).Ends s r s') : s' = s := by
  obtain ⟨fault, _, rfl⟩ := Task.ends_request_iff.mp h
  cases fault <;> rfl

theorem cases_of_ends_rename {source target : Path} {r : Except FileError Unit}
    (h : (Task.request id (.rename source target)).Ends s r s') :
    (s' = s ∧ ∃ e, r = .error e) ∨ r = .ok () ∧ s.rename source target = .ok s' := by
  cases r with
  | ok a => exact Or.inr ⟨rfl, Store.change_eq_ok_iff.mp (Task.ends_request_ok_iff.mp h)⟩
  | error e =>
    refine Or.inl ⟨?_, e, rfl⟩
    obtain ⟨fault, hanswer, rfl⟩ := Task.ends_request_iff.mp h
    cases fault with
    | some f => rfl
    | none =>
      simp only [Store.answerWith, Store.answer] at hanswer ⊢
      cases hrename : s.rename source target with
      | error e' => rfl
      | ok m =>
        rw [hrename] at hanswer
        cases hanswer

/-- How far a replacement may come: it makes directories, then writes to the sibling, and then gives the sibling,
which holds all of the content, the name of the file. Unless it comes so far it fails. -/
theorem replace_cases {r : Except FileError Nat} (h : (replace p content).Ends s r s') :
    ∃ m, s.Differs (fun _ => False) (fun _ => True) m ∧ ((m = s' ∧ ∃ e, r = .error e) ∨
      ∃ tmp n, temporary? p = some tmp ∧ m.Differs (fun l => l = m.destination tmp) (fun _ => False) n ∧
        ((n = s' ∧ ∃ e, r = .error e) ∨
          n.item? (n.destination tmp) = some (.file content) ∧ n.rename tmp p = .ok s')) := by
  have hmade : ∀ {r m}, (makeParent p).Ends s r m → s.Differs (fun _ => False) (fun _ => True) m := by
    intro r m hends
    have htouches : (makeParent p).Touches (fun _ => False) fun _ => True := makeParent_touches fun _ _ => trivial
    exact htouches.differs_of_ends hends (fun _ hno => hno.elim) fun _ _ => trivial
  rcases Task.ends_bind_iff.mp h with ⟨e, rfl, hparent⟩ | ⟨_, m, hparent, h⟩
  · exact ⟨s', hmade hparent, Or.inl ⟨rfl, e, rfl⟩⟩
  · refine ⟨m, hmade hparent, ?_⟩
    split at h
    · obtain ⟨rfl, rfl⟩ := Task.ends_throw_iff.mp h
      exact Or.inl ⟨rfl, _, rfl⟩
    · rename_i tmp htmp
      have hwritten : ∀ {r n}, (write tmp content).Ends m r n →
          m.Differs (fun l => l = m.destination tmp) (fun _ => False) n := by
        intro r n hends
        have htouches : (write tmp content).Touches (fun q => q = tmp) fun _ => False := write_touches rfl
        exact htouches.differs_of_ends hends (fun _ heq => congrArg m.destination heq) fun _ hno => hno
      right
      rcases Task.ends_bind_iff.mp h with ⟨e, rfl, hwrite⟩ | ⟨_, n, hwrite, h⟩
      · exact ⟨tmp, s', htmp, hwritten hwrite, Or.inl ⟨rfl, e, rfl⟩⟩
      · refine ⟨tmp, n, htmp, hwritten hwrite, ?_⟩
        have hcontent := item?_of_write hwrite
        rw [← Store.destination_congr (hwritten hwrite).here] at hcontent
        rcases Task.ends_bind_iff.mp h with ⟨e, rfl, hsync⟩ | ⟨_, n', hsync, h⟩
        · exact Or.inl ⟨(eq_of_ends_sync hsync).symm, e, rfl⟩
        · cases eq_of_ends_sync hsync
          rcases Task.ends_bind_iff.mp h with ⟨e, rfl, hrename⟩ | ⟨_, n', hrename, h⟩
          · rcases cases_of_ends_rename hrename with ⟨rfl, _⟩ | ⟨hok, _⟩
            · exact Or.inl ⟨rfl, e, rfl⟩
            · cases hok
          · obtain ⟨_, hn'⟩ := (cases_of_ends_rename hrename).resolve_left (by rintro ⟨_, e, herror⟩; cases herror)
            have hend : n' = s' := by
              split at h
              · rcases Task.ends_bind_iff.mp h with ⟨_, _, hdir⟩ | ⟨_, _, hdir, h⟩
                · exact (eq_of_ends_sync hdir).symm
                · cases eq_of_ends_sync hdir
                  exact (Task.ends_pure_iff.mp h).2
              · exact (Task.ends_pure_iff.mp h).2
            cases hend
            exact Or.inr ⟨hcontent, hn'⟩

section Replacing
variable {r : Except FileError Nat} {l : Location}

/-- However it ends, a replacement keeps all directories and all files but the one and its sibling. -/
theorem replace_keeps (h : (replace p content).Ends s r s') :
    s.Keeps (fun l => l = s.destination p ∨ IsTemporary s p l) s' := by
  obtain ⟨m, hmade, h⟩ := replace_cases h
  have hmade' : s.Keeps (fun l => l = s.destination p ∨ IsTemporary s p l) m :=
    (hmade.mono (fun _ hno => hno.elim) fun _ h => h).toKeeps
  rcases h with ⟨rfl, _⟩ | ⟨tmp, n, htmp, hwritten, h⟩
  · exact hmade'
  · have hplace : ∀ q, m.destination q = s.destination q := fun q => Store.destination_congr hmade.here q
    have hwritten' : m.Keeps (fun l => l = s.destination p ∨ IsTemporary s p l) n := by
      refine (hwritten.mono (fun l hl => Or.inr ⟨tmp, htmp, ?_⟩) fun _ h => h).toKeeps
      rw [hl, hplace]
    rcases h with ⟨rfl, _⟩ | ⟨_, hrename⟩
    · exact hmade'.trans hwritten'
    · have hplace' : ∀ q, n.destination q = s.destination q := fun q =>
        (Store.destination_congr hwritten.here q).trans (hplace q)
      have hrenamed : n.Keeps (fun l => l = s.destination p ∨ IsTemporary s p l) s' := by
        have hkeeps := Store.rename_keeps hrename
        rw [hplace', hplace'] at hkeeps
        refine ⟨hkeeps.here, fun hl hfree => hkeeps.item hl (hfree.imp_right fun hnot => ?_)⟩
        rintro (rfl | rfl)
        · exact hnot (Or.inr ⟨tmp, htmp, rfl⟩)
        · exact hnot (Or.inl rfl)
      exact (hmade'.trans hwritten').trans hrenamed

/-- However it ends, the file has its old content or all of the new one, and so do all others but the sibling
have their old content. -/
theorem content?_replace (h : (replace p content).Ends s r s') (hl : ¬ IsTemporary s p l) :
    s'.content? l = s.content? l ∨ s.destination p = l ∧ s'.content? l = some content := by
  obtain ⟨m, hmade, h⟩ := replace_cases h
  have hsame : m.content? l = s.content? l := hmade.content?_eq not_false
  rcases h with ⟨rfl, _⟩ | ⟨tmp, n, htmp, hwritten, h⟩
  · exact Or.inl hsame
  · have hne : l ≠ m.destination tmp := by
      rintro rfl
      exact hl ⟨tmp, htmp, (Store.destination_congr hmade.here tmp).symm⟩
    have hsame' : n.content? l = s.content? l := (hwritten.content?_eq hne).trans hsame
    rcases h with ⟨rfl, _⟩ | ⟨hcontent, hrename⟩
    · exact Or.inl hsame'
    · have hhere : n.here = s.here := hwritten.here.trans hmade.here
      obtain ⟨_, moved, _, _, _, _, _, _, hmoved, rfl⟩ := Store.rename_ok hrename
      cases hcontent.symm.trans hmoved
      rw [Store.destination_congr hhere p]
      by_cases hp : l = s.destination p
      · subst hp
        by_cases hnil : s.destination p = []
        · left
          rw [← hsame', hnil]
          rfl
        · right
          exact ⟨rfl, Store.content?_eq_some_iff.mpr (Store.item?_put_self hnil)⟩
      · left
        rw [← hsame']
        apply Store.content?_congr
        rw [Store.item?_put_of_ne hp, Store.item?_erase_of_ne]
        rwa [Store.destination_congr hwritten.here]

/-- When it ends well, the file can be read, and the sibling is gone. -/
theorem read_replace {size : Nat} (h : (replace p content).Ends s (.ok size) s') :
    s'.read p = .ok content ∧ (IsTemporary s p l → s'.content? l = none) := by
  obtain ⟨m, hmade, h⟩ := replace_cases h
  rcases h with ⟨_, _, herror⟩ | ⟨tmp, n, htmp, hwritten, ⟨_, _, herror⟩ | ⟨hcontent, hrename⟩⟩
  · cases herror
  · cases herror
  · refine ⟨Store.read_rename hrename hcontent, ?_⟩
    rintro ⟨tmp', htmp', rfl⟩
    cases htmp.symm.trans htmp'
    have hhere : n.here = s.here := hwritten.here.trans hmade.here
    have hne : s.destination tmp ≠ s.destination p := fun heq => not_isTemporary_self s p ⟨tmp, htmp, heq⟩
    have hfile := Store.ne_nil_of_file hcontent
    obtain ⟨_, _, _, _, _, _, _, _, _, rfl⟩ := Store.rename_ok hrename
    rw [Store.destination_congr hhere] at hfile ⊢
    rw [Store.destination_congr hhere, Store.content?_congr (Store.item?_put_of_ne hne), Store.content?_erase hfile]

end Replacing

end Files

end SchemaTables
