import SchemaTables.Proofs.Files.Footprint
import SchemaTables.Proofs.Files.Removal

/-!
Paths that lead to the same in two stores. Where the later store differs only by files that are not on
the way of a path and by new directories, the path finds the same file in both; and when no name on its
way is too long it fails in both for the same reason, since what is missing at its end is missing in a
directory that is new as it was missing with it.
-/

namespace SchemaTables

set_option autoImplicit false

namespace Store

variable {written made : Location → Prop} {s m : Store} {p : Path} {l : Location} {ps : List String}

/-- No name that the path is written with is too long. -/
def Short (p : Path) : Prop := ∀ part ∈ parts p, part.utf8ByteSize ≤ maxName

instance (p : Path) : Decidable (Short p) := inferInstanceAs (Decidable (∀ part ∈ parts p, _))

/-- A path that is not written to is read as before, if before what is new it found its way. -/
theorem Differs.read_iff (h : s.Differs written made m) (hs : s.Sound) (hp : s.Grounded p)
    (hfree : ¬ written (s.destination p)) {content : Bytes} : m.read p = .ok content ↔ s.read p = .ok content := by
  refine ⟨fun hread => ?_, fun hread => h.read hread hfree⟩
  rw [read_eq_ok_iff, destination_congr h.here] at hread
  obtain ⟨hcheck, hfollow, hitem, hasks⟩ := locate_eq_ok_iff.mp hread
  have hfile : s.item? (s.destination p) = some (.file content) := (h.file_iff hfree).mp hitem
  have hstart := start_congr h.here p
  rw [hstart] at hfollow
  obtain ⟨hend, hall⟩ := foldlM_follow_eq_ok_iff.mp hfollow
  have hdirectory : ∀ l, s.Passes p l → l ≠ s.destination p → s.item? l = some .directory :=
    fun l hl hne => hs.directory_of_passes hp (by simp [hfile]) hl hne
  rw [read_eq_ok_iff]
  refine locate_eq_ok_iff.mpr ⟨hcheck, foldlM_follow_eq_ok_iff.mpr ⟨hend, ?_⟩, hfile, hasks⟩
  intro qs part hbegins
  obtain ⟨hdir, hplain⟩ := hall qs part hbegins
  have hpasses : s.Passes p (qs.foldl walk (s.start p)) := ⟨qs, (List.prefix_append qs [part]).trans hbegins, rfl⟩
  refine ⟨hdirectory _ hpasses ?_, fun hdot hup => ⟨(hplain hdot hup).1, ?_⟩⟩
  · intro heq
    rw [heq, hitem] at hdir
    cases hdir
  · rw [← foldl_walk_concat _ hdot hup]
    by_cases heq : (qs ++ [part]).foldl walk (s.start p) = s.destination p
    · rw [heq, hfile]
      rfl
    · rw [hdirectory _ ⟨qs ++ [part], hbegins, rfl⟩ heq]
      rfl

theorem follow_of_none {part : String} (h : s.item? l = none) : s.follow l part = .error .notFound := by
  rw [follow, h]

theorem follow_of_file {part : String} {content : Bytes} (h : s.item? l = some (.file content)) :
    s.follow l part = .error .notADirectory := by
  rw [follow, h]

/-- A name that is not too long is followed where there is something. -/
theorem Sound.follow_eq (h : s.Sound) {part : String} (hdir : s.item? l = some .directory)
    (hshort : part.utf8ByteSize ≤ maxName) :
    s.follow l part = if (s.item? (walk l part)).isSome then .ok (walk l part) else .error .notFound := by
  unfold follow walk
  rw [hdir]
  by_cases hdot : part = "."
  · simp [hdot, hdir]
  · by_cases hup : part = ".."
    · simp [hup, h.dropLast hdir]
    · simp [hdot, hup, Nat.not_lt.mpr hshort]

section Failures
variable {β : Type} {f : Location → Option Item → Except FileError β}

/-- A way past directories to nothing ends where something is missing. -/
theorem Sound.follow_to_nothing (h : m.Sound) (hf : ∀ l, f l none = .error .notFound)
    (hway : ∀ ts, ts <+: ps → m.item? (ts.foldl walk l) = none ∨ m.item? (ts.foldl walk l) = some .directory)
    (hend : m.item? (ps.foldl walk l) = none) (hshort : ∀ part ∈ ps, part.utf8ByteSize ≤ maxName) :
    (ps.foldlM m.follow l >>= fun l => f l (m.item? l)) = .error .notFound := by
  induction ps generalizing l with
  | nil =>
    rw [List.foldl_nil] at hend
    rw [List.foldlM_nil, pure_bind, hend, hf]
  | cons part ps ih =>
    rw [List.forall_mem_cons] at hshort
    have hrest := ih (fun ts hts => hway (part :: ts) (by simpa using hts)) hend hshort.2
    rw [List.foldlM_cons]
    rcases hway [] List.nil_prefix with hnone | hdir
    · rw [List.foldl_nil] at hnone
      rw [follow_of_none hnone]
      rfl
    · rw [List.foldl_nil] at hdir
      rw [h.follow_eq hdir hshort.1]
      split
      · exact hrest
      · rfl

/-- A way that leaves through `..` only what was there ends alike in both stores: where it gets further in
the later one it gets past new directories only, and its end is not among them. -/
theorem Sound.follow_congr (h : s.Sound) (h' : m.Sound) (hf : ∀ l, f l none = .error .notFound)
    (hway : ∀ ts, ts <+: ps → m.item? (ts.foldl walk l) = s.item? (ts.foldl walk l) ∨
      s.item? (ts.foldl walk l) = none ∧ m.item? (ts.foldl walk l) = some .directory)
    (hback : ∀ ts, ts ++ [".."] <+: ps → s.item? (ts.foldl walk l) = some .directory)
    (hstart : m.item? l = s.item? l) (hend : m.item? (ps.foldl walk l) = s.item? (ps.foldl walk l))
    (hshort : ∀ part ∈ ps, part.utf8ByteSize ≤ maxName) :
    (ps.foldlM m.follow l >>= fun l => f l (m.item? l)) = (ps.foldlM s.follow l >>= fun l => f l (s.item? l)) := by
  induction ps generalizing l with
  | nil => rw [List.foldlM_nil, List.foldlM_nil, pure_bind, pure_bind, hstart]
  | cons part ps ih =>
    rw [List.foldlM_cons, List.foldlM_cons]
    have hshort' := (List.forall_mem_cons.mp hshort)
    have hway' : ∀ ts, ts <+: ps → _ := fun ts hts => hway (part :: ts) (by simpa using hts)
    have hback' : ∀ ts, ts ++ [".."] <+: ps → _ := fun ts hts => hback (part :: ts) (by simpa using hts)
    cases hitem : s.item? l with
    | none =>
      rw [follow_of_none hitem, follow_of_none (hstart.trans hitem)]
      rfl
    | some i =>
      cases i with
      | file content =>
        rw [follow_of_file hitem, follow_of_file (hstart.trans hitem)]
        rfl
      | directory =>
        rw [h.follow_eq hitem hshort'.1, h'.follow_eq (hstart.trans hitem) hshort'.1]
        rcases hway' [] List.nil_prefix with hsame | ⟨hmissing, hnew⟩
        · rw [List.foldl_cons, List.foldl_nil] at hsame
          rw [hsame]
          split
          · exact ih hway' hback' hsame hend hshort'.2
          · rfl
        · rw [List.foldl_cons, List.foldl_nil] at hmissing hnew
          rw [hmissing, hnew]
          -- what follows lies below what is missing
          have hbelow : ∀ ts, ts <+: ps → s.item? (ts.foldl walk (walk l part)) = none := by
            intro ts hts
            rcases prefix_foldl_walk_or ts (walk l part) with hbelow | ⟨qs, hqs, hleft⟩
            · cases hthere : s.item? (ts.foldl walk (walk l part)) with
              | none => rfl
              | some i =>
                by_cases heq : walk l part = ts.foldl walk (walk l part)
                · rw [← heq, hmissing] at hthere
                  cases hthere
                · have habove := h.above (by simp [hthere]) hbelow heq
                  rw [hmissing] at habove
                  cases habove
            · have hthere := hback' qs (hqs.trans hts)
              rw [List.foldl_cons, hleft, hmissing] at hthere
              cases hthere
          have hlost : (ps.foldlM m.follow (walk l part) >>= fun l => f l (m.item? l)) = .error .notFound := by
            refine h'.follow_to_nothing hf (fun ts hts => ?_) (hend.trans (hbelow ps (List.prefix_refl _))) hshort'.2
            exact (hway' ts hts).imp (fun hsame => hsame.trans (hbelow ts hts)) And.right
          simp only [Option.isSome_some, if_true, Option.isSome_none, Bool.false_eq_true, if_false]
          exact hlost

end Failures

/-- What a path is found to be by what is there at its end. -/
def foundAt (p : Path) (l : Location) : Option Item → Except FileError (Location × Item)
  | some (.file content) => if asksDirectory p then .error .notADirectory else .ok (l, .file content)
  | some .directory => .ok (l, .directory)
  | none => .error .notFound

/-- A path that nothing is written to or above leads to the same, and fails alike, unless its end is new. -/
theorem Differs.locate_eq (h : s.Differs written made m) (hs : s.Sound) (hm : m.Sound) (hp : s.Grounded p)
    (hshort : Short p) (hfree : ∀ l, l <+: s.destination p → ¬ written l)
    (hend : s.item? (s.destination p) = none → ¬ made (s.destination p)) : m.locate p = s.locate p := by
  have hstart := start_congr h.here p
  have hway : ∀ l, s.Passes p l → m.item? l = s.item? l ∨ s.item? l = none ∧ m.item? l = some .directory := by
    intro l hl
    rcases hp.passes hl with hbelow | hdir
    · exact (h.item_eq_or (hfree l hbelow)).imp_right fun hmade => ⟨hmade.1, hmade.2.1⟩
    · exact Or.inl ((h.item hdir (Or.inl rfl)).trans hdir.symm)
  have hsame : ∀ f : Location → Option Item → Except FileError (Location × Item), (∀ l, f l none = .error .notFound) →
      ((parts p).foldlM m.follow (s.start p) >>= fun l => f l (m.item? l)) =
        ((parts p).foldlM s.follow (s.start p) >>= fun l => f l (s.item? l)) := fun f hf =>
    hs.follow_congr hm hf (fun ts hts => hway _ ⟨ts, hts, rfl⟩) hp
      ((h.item (hs.start p) (Or.inl rfl)).trans (hs.start p).symm)
      (h.item_eq (hfree _ (List.prefix_refl _)) hend) hshort
  rw [locate, locate, hstart]
  cases checkPath p with
  | error e => rfl
  | ok =>
    exact hsame (foundAt p) fun _ => rfl

end Store

end SchemaTables
