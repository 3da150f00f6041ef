import SchemaTables.Proofs.Files.Room

/-!
Files that lie apart. A script that writes to certain files, and makes directories on certain ways only,
changes nothing for a path that ends neither above nor below one of these files, and not above the end of
one of these ways: the path is read, missed and refused as before.
-/

namespace SchemaTables

set_option autoImplicit false

namespace Store

variable {s m s' : Store} {p q : Path} {files ways files' ways' : List Path} {l : Location}

/-- The later store differs by the files at the ends of some paths and by directories on the ways of some. -/
def DiffersBy (files ways : List Path) (s s' : Store) : Prop :=
  s.Differs (fun l => ∃ p ∈ files, s.destination p = l) (fun l => ∃ p ∈ ways, s.Passes p l) s'

theorem passes_congr (h : m.here = s.here) : m.Passes p l ↔ s.Passes p l := by
  rw [Passes, Passes, start, start, h]

namespace DiffersBy

theorem refl (s : Store) : DiffersBy files ways s s := Differs.refl s

theorem mono (h : DiffersBy files ways s s') (hfiles : files ⊆ files') (hways : ways ⊆ ways') :
    DiffersBy files' ways' s s' :=
  Differs.mono h (fun _ ⟨p, hp, hl⟩ => ⟨p, hfiles hp, hl⟩) fun _ ⟨p, hp, hl⟩ => ⟨p, hways hp, hl⟩

theorem trans (h : DiffersBy files ways s m) (h' : DiffersBy files ways m s') : DiffersBy files ways s s' := by
  refine Differs.trans h (Differs.mono h' ?_ ?_)
  · rintro l ⟨p, hp, hl⟩
    exact ⟨p, hp, by rw [← hl, destination_congr h.here]⟩
  · rintro l ⟨p, hp, hl⟩
    exact ⟨p, hp, (passes_congr h.here).mp hl⟩

theorem read_iff (h : DiffersBy files ways s s') (hs : s.Sound) (hp : s.Grounded p)
    (hfree : ∀ q ∈ files, ¬ s.destination q <+: s.destination p) {content : Bytes} :
    s'.read p = .ok content ↔ s.read p = .ok content := by
  apply Differs.read_iff h hs hp
  rintro ⟨q, hq, heq⟩
  exact hfree q hq (heq ▸ List.prefix_refl _)

theorem grounded (h : DiffersBy files ways s s') (hp : s.Grounded p) : s'.Grounded p := by
  intro qs hqs
  have hstart := start_congr h.here p
  rw [hstart]
  exact h.item (hp qs hqs) (Or.inl rfl)

end DiffersBy

/-- Neither path ends where the other does, nor above or below that. -/
def Apart (s : Store) (p q : Path) : Prop :=
  ¬ s.destination p <+: s.destination q ∧ ¬ s.destination q <+: s.destination p

instance (s : Store) (p q : Path) : Decidable (s.Apart p q) := inferInstanceAs (Decidable (_ ∧ _))

theorem Apart.symm (h : s.Apart p q) : s.Apart q p := ⟨h.2, h.1⟩

theorem apart_congr (h : m.here = s.here) : m.Apart p q ↔ s.Apart p q := by
  rw [Apart, Apart, destination_congr h, destination_congr h]

/-- The path ends neither above nor below one of the files, and not above the end of one of the ways. -/
structure Spares (s : Store) (files ways : List Path) (p : Path) : Prop where
  grounded : s.Grounded p
  files : ∀ q ∈ files, ¬ s.destination q <+: s.destination p
  ways : ∀ q ∈ ways, s.Grounded q ∧ ¬ s.destination p <+: s.destination q

namespace Spares

theorem of_apart (hp : s.Grounded p) (h : ∀ q ∈ files, s.Grounded q ∧ s.Apart q p) : s.Spares files files p :=
  ⟨hp, fun q hq => (h q hq).2.1, fun q hq => ⟨(h q hq).1, (h q hq).2.2⟩⟩

theorem mono (h : s.Spares files ways p) (hfiles : files' ⊆ files) (hways : ways' ⊆ ways) :
    s.Spares files' ways' p :=
  ⟨h.grounded, fun q hq => h.files q (hfiles hq), fun q hq => h.ways q (hways hq)⟩

theorem not_written (h : s.Spares files ways p) : ¬ ∃ q ∈ files, s.destination q = s.destination p := by
  rintro ⟨q, hq, heq⟩
  exact h.files q hq (heq ▸ List.prefix_refl _)

theorem not_made (h : s.Spares files ways p) (hnone : s.item? (s.destination p) = none) :
    ¬ ∃ q ∈ ways, s.Passes q (s.destination p) := by
  rintro ⟨q, hq, hpasses⟩
  obtain ⟨hgrounded, hapart⟩ := h.ways q hq
  rcases hgrounded.passes hpasses with hbelow | hdir
  · exact hapart hbelow
  · rw [hnone] at hdir
    cases hdir

theorem differsBy (h : s.Spares files ways p) (hd : DiffersBy files' ways' s m) : m.Spares files ways p := by
  have hsame : ∀ q, m.destination q = s.destination q := destination_congr hd.here
  refine ⟨hd.grounded h.grounded, fun q hq => ?_, fun q hq => ⟨hd.grounded (h.ways q hq).1, ?_⟩⟩
  · rw [hsame, hsame]
    exact h.files q hq
  · rw [hsame, hsame]
    exact (h.ways q hq).2

end Spares

section Differences
variable (h : DiffersBy files ways s m) (hp : s.Spares files ways p)
include h hp

theorem DiffersBy.item_eq : m.item? (s.destination p) = s.item? (s.destination p) :=
  Differs.item_eq h hp.not_written hp.not_made

theorem DiffersBy.absent (habsent : s.Absent p) : m.Absent p := by
  refine habsent.imp_right fun hnone => ?_
  rw [destination_congr h.here, h.item_eq hp, hnone]

theorem DiffersBy.read {content : Bytes} (hread : s.read p = .ok content) : m.read p = .ok content :=
  Keeps.read h.toKeeps hread hp.not_written

theorem DiffersBy.locate_eq (hs : s.Sound) (hm : m.Sound) (hshort : Short p) : m.locate p = s.locate p :=
  Differs.locate_eq h hs hm hp.grounded hshort (fun _ hl ⟨q, hq, heq⟩ => hp.files q hq (heq ▸ hl)) hp.not_made

theorem DiffersBy.read_eq (hs : s.Sound) (hm : m.Sound) (hshort : Short p) : m.read p = s.read p := by
  rw [Store.read, Store.read, h.locate_eq hp hs hm hshort]

theorem DiffersBy.room_iff : m.Room p ↔ s.Room p := by
  have hitem := h.item_eq hp
  have hwritten : ∀ l, l <+: (s.destination p).dropLast → ¬ ∃ q ∈ files, s.destination q = l := by
    rintro l hl ⟨q, hq, rfl⟩
    exact hp.files q hq (hl.trans (List.dropLast_prefix _))
  constructor
  · intro hroom
    have habove := hroom.above
    have hfree := hroom.free
    rw [destination_congr h.here] at habove hfree
    refine ⟨hroom.check, hroom.short, hp.grounded, hroom.name, hroom.file, ?_, hitem ▸ hfree⟩
    intro l content hl hfile
    exact habove l content hl ((Differs.file_iff h (hwritten l hl)).mpr hfile)
  · intro hroom
    exact hroom.differs h hwritten (hitem ▸ hroom.free)

end Differences

theorem notWritten_of_apart (hfiles : ∀ q ∈ files, s.destination q = s.destination p ∨ s.Apart q p)
    (hne : s.destination p ≠ []) (l : Location) (hl : l <+: (s.destination p).dropLast) :
    ¬ ∃ q ∈ files, s.destination q = l := by
  rintro ⟨q, hq, rfl⟩
  rcases hfiles q hq with hsame | hapart
  · exact ne_of_prefix_dropLast hl hne hsame
  · exact hapart.1 (hl.trans (List.dropLast_prefix _))

/-- There is still room for a file when only files at its place or apart from it have been written. -/
theorem Room.differsBy (hp : s.Room p) (hd : s.DiffersBy files ways m)
    (hfiles : ∀ q ∈ files, s.destination q = s.destination p ∨ s.Apart q p)
    (hfree : m.item? (s.destination p) ≠ some .directory) : m.Room p :=
  hp.differs hd (notWritten_of_apart hfiles hp.destination_ne_nil) hfree

end Store

/-- A task that returns has changed no more than it may. -/
theorem Task.Touches.differsBy {ε α : Type} {t : Task ε α} {a : α} {s s' : Store} {files ways : List Path}
    (h : t.Touches (· ∈ files) fun q => ∃ p ∈ ways, q.OnWayOf p) (hrun : t.Returns s a s') :
    s.DiffersBy files ways s' :=
  h.differs hrun (fun p hp => ⟨p, hp, rfl⟩) fun q ⟨p, hp, hq⟩ => ⟨p, hp, hq s _ (s.passes_destination q)⟩

namespace Files

variable {s s' : Store} {p : Path} {text line : String}

theorem removeIfThere_differsBy (h : (removeIfThere p).Returns s () s') : s.DiffersBy [p] [p] s' :=
  (removeIfThere_touches List.mem_cons_self).differsBy h

theorem makeParent_differsBy (h : (makeParent p).Returns s () s') : s.DiffersBy [p] [p] s' :=
  (makeParent_touches fun _ hq => ⟨p, List.mem_cons_self, hq⟩).differsBy h

theorem writeText_differsBy (h : (writeText p text).Returns s () s') : s.DiffersBy [p] [p] s' :=
  (writeText_touches List.mem_cons_self).differsBy h

theorem addLine_differsBy (h : (addLine p line).Returns s () s') : s.DiffersBy [p] [p] s' :=
  (addLine_touches List.mem_cons_self).differsBy h

/-- Where there is room for a file there can be a directory for it. -/
theorem makeParent_room (hs : s.Sound) (hp : s.Room p) : ∃ m, (makeParent p).Returns s () m ∧ m.Room p ∧
    m.item? (m.destination p).dropLast = some .directory := by
  obtain ⟨m, hparent, hdir, hsame⟩ := makeParent_total hs hp
  have hd := makeParent_differsBy hparent
  refine ⟨m, hparent, ?_, ?_⟩
  · apply hp.differsBy hd
    · simp
    · rw [hsame]
      exact hp.free
  · rwa [Store.destination_congr hd.here]

end Files

end SchemaTables
