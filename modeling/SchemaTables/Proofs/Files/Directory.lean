import SchemaTables.Proofs.Files.Store
import SchemaTables.Proofs.Text.Search

/-!
A directory as the place where relative paths start. What a path leads to from there is what the path
joined to that of the directory leads to from outside.
-/

namespace SchemaTables

set_option autoImplicit false

variable {s : Store} {dir p : Path} {l : Location}

namespace Path

theorem isAbsolute_join (hdir : dir.text ≠ "") (hp : p.isAbsolute = false) :
    (dir.join p).isAbsolute = dir.isAbsolute := by
  have hne : dir.chars ≠ [] := by
    intro hnil
    exact hdir (String.toList_eq_nil_iff.mp hnil)
  obtain ⟨c, rest, hchars⟩ := List.exists_cons_of_ne_nil hne
  rw [Path.join, if_neg (by simp [hp])]
  split
  · simp only [isAbsolute, chars, String.toList_append] at hchars ⊢
    rw [hchars]
    rfl
  · simp only [isAbsolute, chars, String.toList_append] at hchars ⊢
    rw [hchars]
    rfl

theorem empty_join (p : Path) : (⟨""⟩ : Path).join p = p := by
  have hempty : (⟨""⟩ : Path).chars = [] := rfl
  unfold Path.join
  split
  · rfl
  · rw [if_pos (Or.inl hempty)]
    simp

/-- A path joined to another goes on where that one ends. -/
theorem chars_join (dir : Path) (hp : p.isAbsolute = false) : (dir.join p).chars = dir.chars ++ p.chars ∧
    (dir.chars = [] ∨ dir.chars.getLast? = some '/') ∨ (dir.join p).chars = dir.chars ++ '/' :: p.chars := by
  rw [Path.join, if_neg (by simp [hp])]
  split
  · rename_i hbase
    exact Or.inl ⟨String.toList_append, hbase⟩
  · right
    simp [chars]

end Path

namespace Store

/-- The same files, with relative paths that start at a location. -/
def startingAt (s : Store) (l : Location) : Store := { s with here := l }

theorem parts_join (hp : p.isAbsolute = false) : parts (dir.join p) = parts dir ++ parts p := by
  have hsplit : ∀ front : List Char, ((Text.splitAt '/' (front ++ '/' :: p.chars)).filter (!·.isEmpty)) =
      ((Text.splitAt '/' front).filter (!·.isEmpty)) ++ ((Text.splitAt '/' p.chars).filter (!·.isEmpty)) := by
    intro front
    rw [Text.splitAt_append_cons, List.filter_append]
  rcases Path.chars_join dir hp with ⟨hchars, hnil | hlast⟩ | hchars
  · rw [parts, hchars, hnil, List.nil_append, parts, hnil]
    rfl
  · have hdir : dir.chars = dir.chars.dropLast ++ ['/'] := (List.dropLast_append_getLast? _ hlast).symm
    have hends : ((Text.splitAt '/' dir.chars).filter (!·.isEmpty)) =
        ((Text.splitAt '/' dir.chars.dropLast).filter (!·.isEmpty)) := by
      rw [hdir, Text.splitAt_append_cons, List.filter_append]
      simp [Text.splitAt]
    rw [parts, hchars, hdir, List.append_assoc, List.singleton_append, hsplit, List.map_append, parts, hends]
    rfl
  · rw [parts, hchars, hsplit, List.map_append]
    rfl

theorem start_join (s : Store) (dir : Path) (hp : p.isAbsolute = false) : s.start (dir.join p) = s.start dir := by
  by_cases hdir : dir.text = ""
  · have hempty : dir = ⟨""⟩ := congrArg Path.mk hdir
    rw [hempty, Path.empty_join, start, start, hp]
    rfl
  · rw [start, start, Path.isAbsolute_join hdir hp]

/-- A path joined to another leads on from where that one leads. -/
theorem destination_join (s : Store) (dir : Path) (hp : p.isAbsolute = false) :
    s.destination (dir.join p) = (parts p).foldl walk (s.destination dir) := by
  rw [destination, parts_join hp, start_join s dir hp, List.foldl_append, destination]

theorem asksDirectory_join (hp : p.text ≠ "") : asksDirectory (dir.join p) = asksDirectory p := by
  have hne : p.chars ≠ [] := by
    intro hnil
    exact hp (String.toList_eq_nil_iff.mp hnil)
  by_cases habs : p.isAbsolute
  · rw [Path.join, if_pos habs]
  · rw [Bool.not_eq_true] at habs
    unfold asksDirectory
    rcases Path.chars_join dir habs with ⟨hchars, _⟩ | hchars
    · rw [hchars, List.getLast?_append_of_ne_nil _ hne]
    · rw [hchars, List.getLast?_append_of_ne_nil _ (List.cons_ne_nil _ _), List.getLast?_cons_of_ne_nil hne]

theorem checkPath_join (hdir : checkPath dir = .ok ()) (hp : p.text ≠ "")
    (hshort : (dir.join p).text.utf8ByteSize ≤ maxPath) : checkPath (dir.join p) = checkPath p := by
  have hnull : '\x00' ∉ dir.chars := by
    intro hmem
    rw [checkPath, if_pos (List.contains_iff_mem.mpr hmem)] at hdir
    cases hdir
  by_cases habs : p.isAbsolute
  · rw [Path.join, if_pos habs]
  · rw [Bool.not_eq_true] at habs
    have hle : p.text.utf8ByteSize ≤ (dir.join p).text.utf8ByteSize := by
      rw [Path.join, if_neg (by simp [habs])]
      split <;> simp only [String.utf8ByteSize_append] <;> omega
    have hcontains : (dir.join p).chars.contains '\x00' = p.chars.contains '\x00' := by
      rcases Path.chars_join dir habs with ⟨hchars, _⟩ | hchars <;> simp [hchars, hnull]
    have hne : (dir.join p).text ≠ "" := by
      intro hnil
      rw [hnil] at hle
      exact hp (String.utf8ByteSize_eq_zero_iff.mp (Nat.le_zero.mp hle))
    rw [checkPath, checkPath, hcontains]
    simp [hne, hp, Nat.not_lt.mpr hshort, Nat.not_lt.mpr (Nat.le_trans hle hshort)]

/-- A file is read by its path from a directory as it is by the joined path from outside. -/
theorem read_join (hdir : s.locate dir = .ok (l, .directory)) (hp : p.text ≠ "")
    (hshort : (dir.join p).text.utf8ByteSize ≤ maxPath) :
    s.read (dir.join p) = (s.startingAt l).read p := by
  obtain ⟨hcheck, hfollow, _, _⟩ := locate_eq_ok_iff.mp hdir
  have hlocate : s.locate (dir.join p) = (s.startingAt l).locate p := by
    have hends : (parts (dir.join p)).foldlM s.follow (s.start (dir.join p)) =
        (parts p).foldlM (s.startingAt l).follow ((s.startingAt l).start p) := by
      by_cases habs : p.isAbsolute
      · rw [Path.join, if_pos habs, start, start, if_pos habs, if_pos habs]
        rfl
      · rw [Bool.not_eq_true] at habs
        have hne : dir.text ≠ "" := by
          intro hnil
          rw [checkPath] at hcheck
          simp [Path.chars, hnil] at hcheck
        rw [parts_join habs, List.foldlM_append, start, Path.isAbsolute_join hne habs]
        change (parts dir).foldlM s.follow (s.start dir) >>= _ = _
        rw [hfollow, start, habs]
        rfl
    rw [locate, locate, checkPath_join hcheck hp hshort, hends, asksDirectory_join hp]
    rfl
  rw [read, read, hlocate]

end Store

end SchemaTables
