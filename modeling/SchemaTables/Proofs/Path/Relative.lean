import SchemaTables.Proofs.Path.Normal

/-!
Relative addresses lead back to what they address. From a directory that lies inside, the parent steps of an address
go up to the common start, and what follows it is the rest of the target.
-/

namespace SchemaTables.Path

set_option autoImplicit false

variable {p dir target : Path} {parts names : List String} {k : Nat}

section Steps

theorem Normal.take (h : Normal parts) (k : Nat) : Normal (parts.take k) := by
  obtain ⟨n, names, rfl, hnames⟩ := h
  rw [List.take_append, List.take_replicate]
  exact ⟨_, _, rfl, fun t ht => hnames t (List.mem_of_mem_take ht)⟩

/-- Going on from the start of a normal form with its rest leads to all of it. -/
theorem Normal.foldl_drop (h : Normal parts) (k : Nat) :
    ((parts.drop k).map ofPart).foldl normalStep (parts.take k).reverse = parts.reverse := by
  rw [← (h.take k).foldl_normalStep, ← List.foldl_append, ← List.map_append, List.take_append_drop, h.foldl_normalStep]

/-- Parent steps take back names. -/
theorem foldl_parents_names (hnames : ".." ∉ names) (hk : k ≤ names.length) :
    (List.replicate k Component.parent).foldl normalStep names = names.drop k := by
  induction k generalizing names with
  | zero => rfl
  | succ k ih =>
    cases names with
    | nil => simp at hk
    | cons last rest =>
      rw [List.mem_cons, not_or] at hnames
      rw [List.replicate_succ, List.foldl_cons, normalStep, if_neg (Ne.symm hnames.1)]
      exact ih hnames.2 (Nat.le_of_succ_le_succ hk)

end Steps

section Common

theorem commonLength_le (as bs : List String) : commonLength as bs ≤ as.length := by
  induction as generalizing bs with
  | nil => simp [commonLength]
  | cons a as ih =>
    cases bs with
    | nil => simp [commonLength]
    | cons b bs =>
      have hle := ih bs
      unfold commonLength
      split
      · rw [List.length_cons]
        omega
      · omega

theorem take_commonLength (as bs : List String) : as.take (commonLength as bs) = bs.take (commonLength as bs) := by
  induction as generalizing bs with
  | nil => simp [commonLength]
  | cons a as ih =>
    cases bs with
    | nil => simp [commonLength]
    | cons b bs =>
      unfold commonLength
      split
      · rename_i heq
        rw [List.take_succ_cons, List.take_succ_cons, ih bs, heq]
      · rfl

end Common

theorem foldl_lead (s : List Char) (parts : List String) : (lead s).foldl normalStep parts = parts := by
  unfold lead
  split_ifs <;> rfl

/-- What a relative path adds to the normal form of a directory. -/
theorem normalParts_join (hp : p.isAbsolute = false) (dir : Path) :
    (dir.join p).normalParts = (p.components.foldl normalStep dir.normalParts.reverse).reverse := by
  by_cases hempty : dir.text = ""
  · have heq : dir = ⟨""⟩ := congrArg Path.mk hempty
    rw [heq, empty_join]
    rfl
  · rw [normalParts, components_join hempty hp, List.foldl_append, components_eq p, List.foldl_append, foldl_lead,
      normalParts, List.reverse_reverse]

/-- Inside the root a directory is a chain of names. -/
theorem plain_of_escapesRoot (h : dir.escapesRoot = false) : ∀ t ∈ dir.normalParts, (Component.name t).Plain := by
  rw [escapesRoot, Bool.or_eq_false_iff, beq_eq_false_iff_ne] at h
  obtain ⟨n, names, hparts, hnames⟩ := normal_normalParts dir
  rw [hparts] at h ⊢
  cases n with
  | zero => exact hnames
  | succ n => exact absurd rfl h.2

/-- The address of a target, followed from the directory, ends at the target. -/
theorem normalParts_join_relativeUrl (h : dir.escapesRoot = false) (target : Path) :
    (dir.join ⟨dir.relativeUrl target⟩).normalParts = target.normalParts := by
  have hnames := plain_of_escapesRoot h
  have htarget := normal_normalParts target
  unfold relativeUrl
  generalize hhere : dir.normalParts = here at hnames
  generalize target.normalParts = there at htarget
  simp only
  have hle := commonLength_le here there
  have hcommon := take_commonLength here there
  generalize commonLength here there = common at hle hcommon
  have hplain : ∀ t ∈ List.replicate (here.length - common) ".." ++ there.drop common, (ofPart t).Plain := by
    intro t ht
    rcases List.mem_append.mp ht with ht | ht
    · rw [List.eq_of_mem_replicate ht]
      trivial
    · exact htarget.plain_ofPart (List.mem_of_mem_drop ht)
  have hparents : (List.replicate (here.length - common) "..").map ofPart =
      List.replicate (here.length - common) Component.parent := List.map_replicate
  have hup : ".." ∉ here.reverse := fun hmem => (hnames ".." (List.mem_reverse.mp hmem)).2.2.1 rfl
  have hlength : here.length - common ≤ here.reverse.length := by
    rw [List.length_reverse]
    omega
  -- the parent steps leave the common start, from which the rest of the target goes on
  have hstart : here.reverse.drop (here.length - common) = (there.take common).reverse := by
    rw [← hcommon, List.drop_reverse]
    congr 2
    omega
  rw [normalParts_join (isAbsolute_joinWith hplain), hhere, components_joinWith hplain, List.map_append, hparents,
    List.foldl_append, foldl_parents_names hup hlength, hstart, htarget.foldl_drop, List.reverse_reverse]

/-- Addresses lead back to their targets, so targets that have one address are the same place. -/
theorem relativeUrl_leads_back (h : dir.escapesRoot = false) (target : Path) :
    (dir.join ⟨dir.relativeUrl target⟩).normalParts = target.normalParts ∧
    ∀ target', dir.relativeUrl target = dir.relativeUrl target' ↔ target.normalParts = target'.normalParts := by
  refine ⟨normalParts_join_relativeUrl h target, fun target' => ?_⟩
  constructor
  · intro heq
    rw [← normalParts_join_relativeUrl h target, heq, normalParts_join_relativeUrl h target']
  · intro heq
    rw [relativeUrl, relativeUrl, heq]

/-- A target above the root, seen from a directory that is reached by a detour. -/
theorem relativeUrl_leads_back_shared :
    (⟨"docs/../remote/./v1"⟩ : Path).relativeUrl ⟨"a/../../shared//agents.csv"⟩ = "../../../shared/agents.csv" ∧
    ((⟨"docs/../remote/./v1"⟩ : Path).join ⟨"../../../shared/agents.csv"⟩).normalParts =
      ["..", "shared", "agents.csv"] := by
  have hinside : (⟨"docs/../remote/./v1"⟩ : Path).escapesRoot = false := by decide
  obtain ⟨hback, _⟩ := relativeUrl_leads_back hinside ⟨"a/../../shared//agents.csv"⟩
  exact ⟨by decide, hback⟩

end SchemaTables.Path
