import SchemaTables.Json.Parser
import SchemaTables.Proofs.Ordered

/-!
The integers of documents. A document value holds an integer only between the least one with a sign and the
greatest one without; the reader of documents keeps to these bounds, whatever digits it is given. Every such
integer has a binary number nearest to it.
-/

namespace SchemaTables

set_option autoImplicit false

/-- A document value can hold the number. -/
def Number.Fits : Number → Prop
  | .int n => minInt ≤ n ∧ n ≤ maxInt
  | .float _ => True

namespace Binary64

theorem floorLog2_le (num den : Nat) : floorLog2 num den ≤ (num.log2 : Int) - den.log2 := by
  unfold floorLog2
  dsimp only
  split <;> omega

theorem exists_nearest {num : Nat} (h : num.log2 ≤ 1000) : ∃ m, nearest num 1 = some m := by
  unfold nearest
  split
  · exact ⟨_, rfl⟩
  · have hle : max (floorLog2 num 1 - (precision - 1 : Nat)) minExponent + 1 ≤ maxExponent := by
      have hlog := floorLog2_le num 1
      have hone : Nat.log2 1 = 0 := by decide
      simp only [precision, minExponent, maxExponent]
      omega
    dsimp only
    split_ifs with hfull hfit
    · exact ⟨_, rfl⟩
    · exact ⟨_, rfl⟩
    · exact absurd (Int.le_of_lt (Int.lt_of_add_one_le hle)) hfit

theorem exists_ofInt {n : Int} (h : (Number.int n).Fits) : ∃ x, ofInt n = some x := by
  have hlog : n.natAbs.log2 ≤ 1000 := by
    by_cases hzero : n.natAbs = 0
    · simp [hzero]
    · have hlt : n.natAbs.log2 < 64 := by
        rw [Nat.log2_lt hzero]
        simp only [Number.Fits, Number.minInt, Number.maxInt] at h
        omega
      omega
  obtain ⟨m, hm⟩ := exists_nearest hlog
  exact ⟨_, by rw [ofInt, ofQuotient, hm, Option.map_some]⟩

end Binary64

namespace Json

/-- All numbers in the value are such that a document value can hold them. -/
inductive Fits : Json → Prop
  | null : Fits null
  | bool (b : Bool) : Fits (bool b)
  | num {n : Number} (h : n.Fits) : Fits (num n)
  | str (s : String) : Fits (str s)
  | arr {items : List Json} (h : ∀ v ∈ items, Fits v) : Fits (arr items)
  | obj {fields : List (String × Json)} (h : ∀ f ∈ fields, Fits f.2) : Fits (obj fields)

theorem Fits.lookup {fields : List (String × Json)} {name : String} {v : Json} (h : (Json.obj fields).Fits)
    (hv : fields.lookup name = some v) : v.Fits := by
  obtain ⟨l, m, rfl, _⟩ := List.lookup_eq_some_iff.mp hv
  cases h with
  | obj h => exact h (name, v) (by simp)

theorem Fits.sortedObj {fields : List (String × Json)} (h : ∀ f ∈ fields, Fits f.2) : (sortedObj fields).Fits := by
  refine Fits.obj ?_
  intro f hf
  obtain ⟨g, hg, heq⟩ := Ordered.mem_ofPairs hf
  rw [← heq]
  exact h g hg

section Numbers

theorem le_of_pushDigit? {significand digit n : Nat} (h : pushDigit? significand digit = some n) :
    n ≤ maxSignificand := by
  rw [pushDigit?, Option.ite_none_right_eq_some] at h
  obtain ⟨hle, heq⟩ := h
  rw [← Option.some.inj heq]
  exact hle

-- The comparison with the greatest significand must not be computed with.
attribute [local irreducible] pushDigit?

theorem wholeDigits_cons (significand : Nat) (c : Char) (s : List Char) :
    wholeDigits significand (c :: s) =
      match pushDigit? significand (digitValue c) with
      | some n => wholeDigits n s
      | none => (significand, s.length + 1) :=
  rfl

theorem wholeDigits_le {significand : Nat} (h : significand ≤ maxSignificand) (s : List Char) :
    (wholeDigits significand s).1 ≤ maxSignificand := by
  induction s generalizing significand with
  | nil => exact h
  | cons c s ih =>
    rw [wholeDigits_cons]
    split
    · exact ih (le_of_pushDigit? ‹_›)
    · exact h

theorem fits_of_map_float {x : Option Binary64} {f : Binary64 → Binary64} {n : Number}
    (h : x.map (fun y => Number.float (f y)) = some n) : n.Fits := by
  obtain ⟨y, _, rfl⟩ := Option.map_eq_some_iff.mp h
  trivial

/-- A number that is written as an integer and does not fit is read as a binary number. -/
theorem fits_value {t : NumberText} {n : Number} (h : t.value = some n) : n.Fits := by
  have hle : (wholeDigits 0 t.whole).1 ≤ maxSignificand := wholeDigits_le (Nat.zero_le _) t.whole
  unfold NumberText.value at h
  obtain ⟨significand, dropped⟩ := wholeDigits 0 t.whole
  dsimp only [maxSignificand] at h hle
  split at h
  · split_ifs at h with hdropped hnegative hlarge
    · exact fits_of_map_float h
    · cases h
      simp only [Nat.pow_eq, not_or] at hlarge
      simp only [Number.Fits, Number.minInt, Number.maxInt]
      omega
    · cases h
      simp only [Number.Fits, Number.minInt, Number.maxInt]
      omega
    · exact fits_of_map_float h
  · exact fits_of_map_float h

end Numbers

section Values
variable {value : List Char → Option (Json × List Char)}

/-- Whatever is read holds fitting numbers only. -/
def ReadsFitting (value : List Char → Option (Json × List Char)) : Prop :=
  ∀ s v rest, value s = some (v, rest) → v.Fits

theorem fits_itemsFrom (h : ReadsFitting value) {fuel : Nat} {acc items : List Json} {s rest : List Char}
    (hacc : ∀ v ∈ acc, v.Fits) (hread : itemsFrom value fuel acc s = some (items, rest)) :
    ∀ v ∈ items, v.Fits := by
  induction fuel generalizing acc s with
  | zero => cases hread
  | succ fuel ih =>
    rw [itemsFrom] at hread
    obtain ⟨⟨v, s'⟩, hv, hrest⟩ := Option.bind_eq_some_iff.mp hread
    have hcons : ∀ w ∈ v :: acc, w.Fits := List.forall_mem_cons.mpr ⟨h s v s' hv, hacc⟩
    dsimp only at hrest
    split at hrest
    · exact ih hcons hrest
    · cases hrest
      simpa only [List.mem_reverse] using hcons
    · cases hrest

theorem fits_fieldsFrom (h : ReadsFitting value) {fuel : Nat} {acc fields : List (String × Json)}
    {s rest : List Char} (hacc : ∀ f ∈ acc, f.2.Fits)
    (hread : fieldsFrom value fuel acc s = some (fields, rest)) : ∀ f ∈ fields, f.2.Fits := by
  induction fuel generalizing acc s with
  | zero => cases hread
  | succ fuel ih =>
    rw [fieldsFrom] at hread
    obtain ⟨⟨k, s'⟩, _, hread⟩ := Option.bind_eq_some_iff.mp hread
    dsimp only at hread
    split at hread
    · obtain ⟨⟨v, t⟩, hv, hrest⟩ := Option.bind_eq_some_iff.mp hread
      have hcons : ∀ f ∈ (k, v) :: acc, f.2.Fits := List.forall_mem_cons.mpr ⟨h _ v t hv, hacc⟩
      dsimp only at hrest
      split at hrest
      · exact ih hcons hrest
      · cases hrest
        simpa only [List.mem_reverse] using hcons
      · cases hrest
    · cases hread

/-- The induction is on how deep the value may be nested. -/
theorem readsFitting_value (depth : Nat) : ReadsFitting (value? depth) := by
  induction depth with
  | zero =>
    intro s v rest h
    cases h
  | succ depth ih =>
    intro s v rest h
    rw [value?] at h
    split at h
    · cases h
      exact .null
    · cases h
      exact .bool true
    · cases h
      exact .bool false
    · obtain ⟨⟨t, _⟩, _, heq⟩ := Option.map_eq_some_iff.mp h
      cases heq
      exact .str t
    · split at h
      · cases h
      · split at h
        · cases h
          exact .arr (by simp)
        · obtain ⟨⟨items, _⟩, hitems, heq⟩ := Option.map_eq_some_iff.mp h
          cases heq
          exact .arr (fits_itemsFrom ih (by simp) hitems)
    · split at h
      · cases h
      · split at h
        · cases h
          exact .obj (by simp)
        · obtain ⟨⟨fields, _⟩, hfields, heq⟩ := Option.map_eq_some_iff.mp h
          cases heq
          exact Fits.sortedObj (fits_fieldsFrom ih (by simp) hfields)
    · obtain ⟨⟨n, _⟩, hn, heq⟩ := Option.map_eq_some_iff.mp h
      cases heq
      obtain ⟨⟨t, _⟩, _, hvalue⟩ := Option.bind_eq_some_iff.mp hn
      obtain ⟨m, hm, heq⟩ := Option.bind_eq_some_iff.mp hvalue
      cases heq
      exact .num (fits_value hm)

theorem fits_of_parse {text : String} {v : Json} (h : parse text = some v) : v.Fits := by
  unfold parse at h
  split at h
  · rename_i w s hw
    split at h
    · cases h
      exact readsFitting_value maxDepth _ _ _ hw
    · cases h
  · cases h

end Values

end Json

end SchemaTables
