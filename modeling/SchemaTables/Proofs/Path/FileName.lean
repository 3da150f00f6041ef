import SchemaTables.Plan.Build
import SchemaTables.Layout
import SchemaTables.Proofs.Files.Store
import SchemaTables.Proofs.Text.Search

/-!
File names of paths. A path that is written with a name at its end leads to a place of this name, whatever
directory it is joined to. Tables of classes end in `.csv` and logs in `.log`, so that no table is a log.
-/

namespace SchemaTables

set_option autoImplicit false

variable {p q : Path} {name : String} {s : Store}

namespace Path

/-- The name stands at the end of the path, alone or after a slash. -/
def EndsWith (p : Path) (name : String) : Prop :=
  p.chars = name.toList ∨ ∃ front, p.chars = front ++ '/' :: name.toList

theorem EndsWith.join (h : q.EndsWith name) (base : Path) : (base.join q).EndsWith name := by
  unfold Path.join
  split
  · exact h
  · split
    · rename_i hbase
      have hchars : (⟨base.text ++ q.text⟩ : Path).chars = base.chars ++ q.chars := String.toList_append
      rcases h with h | ⟨front, h⟩
      · rcases hbase with hnil | hlast
        · exact Or.inl (by rw [hchars, hnil, h, List.nil_append])
        · refine Or.inr ⟨base.chars.dropLast, ?_⟩
          rw [hchars, h, ← List.singleton_append, ← List.append_assoc,
            List.dropLast_append_getLast? _ hlast]
      · exact Or.inr ⟨base.chars ++ front, by rw [hchars, h, List.append_assoc]⟩
    · have hchars : (⟨base.text ++ "/" ++ q.text⟩ : Path).chars = base.chars ++ '/' :: q.chars := by
        simp [chars]
      rcases h with h | ⟨front, h⟩
      · exact Or.inr ⟨base.chars, by rw [hchars, h]⟩
      · exact Or.inr ⟨base.chars ++ '/' :: front, by rw [hchars, h]; simp⟩

/-- Between slashes there is no slash. -/
theorem slash_notMem_of_name (h : .name name ∈ p.components) : '/' ∉ name.toList := by
  have hpiece : ∀ {piece : List Char}, piece ∈ Text.splitAt '/' p.chars →
      Component.ofPiece? piece = some (.name name) → '/' ∉ name.toList := by
    intro piece hmem hname
    unfold Component.ofPiece? at hname
    split at hname
    · cases hname
    · split at hname
      · cases hname
      · cases hname
        rw [String.toList_ofList]
        exact Text.notMem_of_mem_splitAt hmem
  unfold components at h
  split at h
  · cases h
  · rename_i first rest hsplit
    rw [hsplit] at hpiece
    have hbody : .name name ∈ rest.filterMap Component.ofPiece? → '/' ∉ name.toList := by
      intro hmem
      obtain ⟨piece, hrest, hname⟩ := List.mem_filterMap.mp hmem
      exact hpiece (List.mem_cons_of_mem first hrest) hname
    simp only at h
    split at h
    · rcases List.mem_cons.mp h with heq | h
      · cases heq
      · exact hbody h
    · split at h
      · rcases List.mem_cons.mp h with heq | h
        · cases heq
        · exact hbody h
      · rcases List.mem_append.mp h with h | h
        · exact hpiece List.mem_cons_self (Option.mem_toList.mp h)
        · exact hbody h

theorem splitExtension_subset (name : String) : (splitExtension name).1.toList ⊆ name.toList := by
  unfold splitExtension
  split
  · rename_i ext stem hcut
    split
    · exact List.Subset.refl _
    · intro c hc
      rw [String.toList_ofList, List.mem_reverse] at hc
      rw [← List.mem_reverse, Text.eq_of_cutAt hcut]
      exact List.mem_append_right _ (List.mem_cons_of_mem _ hc)
  · exact List.Subset.refl _

end Path

namespace Store

theorem parts_of_endsWith (h : p.EndsWith name) (hne : name ≠ "") (hslash : '/' ∉ name.toList) :
    ∃ front, parts p = front ++ [name] := by
  have hlast : ((Text.splitAt '/' name.toList).filter (!·.isEmpty)).map String.ofList = [name] := by
    rw [Text.splitAt_of_notMem hslash]
    simp [hne]
  unfold parts
  rcases h with h | ⟨front, h⟩
  · exact ⟨[], by rw [h, hlast, List.nil_append]⟩
  · rw [h, Text.splitAt_append_cons, List.filter_append, List.map_append, hlast]
    exact ⟨_, rfl⟩

/-- A path leads to a place with the name that stands at its end. -/
theorem getLast?_destination (h : p.EndsWith name) (hne : name ≠ "") (hslash : '/' ∉ name.toList)
    (hdot : name ≠ ".") (hup : name ≠ "..") : (s.destination p).getLast? = some name := by
  obtain ⟨front, hparts⟩ := parts_of_endsWith h hne hslash
  rw [destination, hparts, foldl_walk_concat _ hdot hup]
  exact List.getLast?_concat

end Store

theorem slash_notMem_tableStem (table : Path) : '/' ∉ (tableStem table).toList := by
  unfold tableStem Path.fileStem? Path.fileName?
  split
  · rename_i name hlast
    intro hslash
    exact Path.slash_notMem_of_name (List.mem_of_getLast? hlast) (Path.splitExtension_subset name hslash)
  · simp

theorem Options.chars_csvPath (cls : String) : (csvPath cls).chars = cls.toList ++ ['.', 'c', 's', 'v'] :=
  String.toList_append

theorem Options.components_csvPath {cls : String} (hslash : '/' ∉ cls.toList) :
    (csvPath cls).components = [.name (cls ++ ".csv")] := by
  have hplain : '/' ∉ (csvPath cls).chars := by simp [chars_csvPath, hslash]
  have hmem : 'v' ∈ (csvPath cls).chars := by simp [chars_csvPath]
  have hrelative : (csvPath cls).isAbsolute = false := by
    rw [Path.isAbsolute, beq_eq_false_iff_ne]
    exact fun hhead => hplain (List.mem_of_head? hhead)
  have hnil : (csvPath cls).chars ≠ [] := List.ne_nil_of_mem hmem
  have hdot : (csvPath cls).chars ≠ ['.'] := fun h => by simp [h] at hmem
  have hup : (csvPath cls).chars ≠ ['.', '.'] := fun h => by simp [h] at hmem
  have hpiece : Component.ofPiece? (csvPath cls).chars = some (.name (cls ++ ".csv")) := by
    rw [Component.ofPiece?, if_neg (not_or.mpr ⟨hnil, hdot⟩), if_neg hup, Path.chars, String.ofList_toList]
    rfl
  unfold Path.components
  rw [Text.splitAt_of_notMem hplain]
  simp [hrelative, hdot, hpiece]

theorem Options.eq_of_csvPath_same {c d : String} (hc : '/' ∉ c.toList) (hd : '/' ∉ d.toList)
    (h : (csvPath c).Same (csvPath d)) : c = d := by
  rw [Path.Same, components_csvPath hc, components_csvPath hd] at h
  have hnames : c ++ ".csv" = d ++ ".csv" := by simpa using h
  have hchars := congrArg String.toList hnames
  rw [String.toList_append, String.toList_append] at hchars
  exact String.toList_inj.mp (List.append_cancel_right hchars)

/-- No table of a class lies where a log lies. -/
theorem destination_csvPath_ne_logPath {cls ending : String} (hcls : '/' ∉ cls.toList)
    (hending : '/' ∉ ending.toList) (hlast : ending.toList.getLast? = some 'g') (s : Store)
    (dataDir validationDir table : Path) :
    s.destination (dataDir.join (Options.csvPath cls)) ≠
      s.destination (dataDir.join (logPath validationDir table ending)) := by
  intro heq
  have hname : ∀ (front ending : String) (c : Char), ending.toList.getLast? = some c → c ≠ '.' →
      (front ++ ending).toList.getLast? = some c ∧ front ++ ending ≠ "" ∧ front ++ ending ≠ "." ∧
        front ++ ending ≠ ".." := by
    intro front ending c hc hne
    have hlast : (front ++ ending).toList.getLast? = some c := by
      rw [String.toList_append, List.getLast?_append, hc, Option.some_or]
    refine ⟨hlast, ?_, ?_, ?_⟩
    · intro h
      simp [h] at hlast
    · intro h
      simp [h, Ne.symm hne] at hlast
    · intro h
      simp [h, Ne.symm hne] at hlast
  have htable : (dataDir.join (Options.csvPath cls)).EndsWith (cls ++ ".csv") :=
    Path.EndsWith.join (Or.inl rfl) dataDir
  have hlog : (dataDir.join (logPath validationDir table ending)).EndsWith
      (tableStem table ++ "-csv-list-column-foreign-key" ++ ending) :=
    (Path.EndsWith.join (Or.inl rfl) validationDir).join dataDir
  obtain ⟨htlast, htne, htdot, htup⟩ := hname cls ".csv" 'v' rfl (by decide)
  obtain ⟨hllast, hlne, hldot, hlup⟩ :=
    hname (tableStem table ++ "-csv-list-column-foreign-key") ending 'g' hlast (by decide)
  have htend := Store.getLast?_destination (s := s) htable htne (by simp [hcls]) htdot htup
  have hlend := Store.getLast?_destination (s := s) hlog hlne
    (by simp [slash_notMem_tableStem, hending]) hldot hlup
  rw [heq, hlend] at htend
  rw [← Option.some.inj htend, hllast] at htlast
  cases htlast

end SchemaTables
