import SchemaTables.Text.Utf8

/-!
The bytes of a text. A character is written as one to four bytes that are told from its number; what is
written is read back, no byte of a longer form is taken for a character of its own, and texts are ordered
as their bytes are.
-/

namespace SchemaTables.Text.Utf8

set_option autoImplicit false

theorem width?_eq (a : UInt8) : width? a =
    if a.toNat < 0x80 then some 1
    else if 0xC2 ≤ a.toNat ∧ a.toNat < 0xE0 then some 2
    else if 0xE0 ≤ a.toNat ∧ a.toNat < 0xF0 then some 3
    else if 0xF0 ≤ a.toNat ∧ a.toNat < 0xF5 then some 4
    else none := rfl

theorem isContinuation_iff {b : UInt8} : isContinuation b = true ↔ 0x80 ≤ b.toNat ∧ b.toNat < 0xC0 := by
  rw [isContinuation, Bool.and_eq_true, decide_eq_true_iff, decide_eq_true_iff]
  rfl

/-- After most first bytes any continuation may follow; after four of them the range is smaller. -/
theorem isSecond_iff {a b : UInt8} : isSecond a b = true ↔ 0x80 ≤ b.toNat ∧ b.toNat < 0xC0 ∧
    (a.toNat = 0xE0 → 0xA0 ≤ b.toNat) ∧ (a.toNat = 0xED → b.toNat < 0xA0) ∧
    (a.toNat = 0xF0 → 0x90 ≤ b.toNat) ∧ (a.toNat = 0xF4 → b.toNat < 0x90) := by
  unfold isSecond secondBounds
  simp only [← UInt8.toNat_inj, Bool.and_eq_true, decide_eq_true_iff, UInt8.le_iff_toNat_le]
  repeat' split
  all_goals
    simp_all
    omega

theorem width?_eq_some_iff {a : UInt8} {n : Nat} : width? a = some n ↔
    n = 1 ∧ a.toNat < 0x80 ∨ n = 2 ∧ 0xC2 ≤ a.toNat ∧ a.toNat < 0xE0 ∨ n = 3 ∧ 0xE0 ≤ a.toNat ∧ a.toNat < 0xF0 ∨
      n = 4 ∧ 0xF0 ≤ a.toNat ∧ a.toNat < 0xF5 := by
  rw [width?_eq]
  repeat' split
  all_goals
    simp only [Option.some.injEq, reduceCtorEq, false_iff]
    omega

/-- The bytes of the character with a number. -/
inductive Written (n : Nat) : Bytes → Prop where
  | one {a : UInt8} : n < 0x80 → a.toNat = n → Written n [a]
  | two {a b : UInt8} : 0x80 ≤ n → n < 0x800 → a.toNat = 0xC0 + n / 64 → b.toNat = 0x80 + n % 64 →
      Written n [a, b]
  | three {a b c : UInt8} : 0x800 ≤ n → n < 0x10000 → ¬ (0xD800 ≤ n ∧ n < 0xE000) →
      a.toNat = 0xE0 + n / 4096 → b.toNat = 0x80 + n / 64 % 64 → c.toNat = 0x80 + n % 64 →
      Written n [a, b, c]
  | four {a b c d : UInt8} : 0x10000 ≤ n → n < 0x110000 → a.toNat = 0xF0 + n / 262144 →
      b.toNat = 0x80 + n / 4096 % 64 → c.toNat = 0x80 + n / 64 % 64 → d.toNat = 0x80 + n % 64 →
      Written n [a, b, c, d]

theorem written_utf8EncodeChar (c : Char) : Written c.toNat (String.utf8EncodeChar c) := by
  have hvalid : c.toNat < 0xD800 ∨ 0xDFFF < c.toNat ∧ c.toNat < 0x110000 := c.valid
  have hbyte : ∀ {k : Nat}, k < 256 → (UInt8.ofNat k).toNat = k := fun h => by
    rw [UInt8.toNat_ofNat', Nat.mod_eq_of_lt h]
  have hval : c.val.toNat = c.toNat := rfl
  unfold String.utf8EncodeChar
  simp only [hval]
  split
  · exact .one (by omega) (hbyte (by omega))
  · split
    · exact .two (by omega) (by omega) (by rw [hbyte] <;> omega) (by rw [hbyte] <;> omega)
    · split
      · exact .three (by omega) (by omega) (by omega) (by rw [hbyte] <;> omega) (by rw [hbyte] <;> omega)
          (by rw [hbyte] <;> omega)
      · exact .four (by omega) (by omega) (by rw [hbyte] <;> omega) (by rw [hbyte] <;> omega)
          (by rw [hbyte] <;> omega) (by rw [hbyte] <;> omega)

namespace Written

variable {m n : Nat} {bs bs' : Bytes} {b : UInt8}

/-- A byte below 128 stands for a character of its own. -/
theorem eq_or_le (h : Written n bs) (hb : b ∈ bs) : b.toNat = n ∧ bs = [b] ∨ 0x80 ≤ b.toNat := by
  cases h with
  | one hn ha =>
    rw [List.mem_singleton] at hb
    rw [hb]
    exact Or.inl ⟨ha, rfl⟩
  | two => simp only [List.mem_cons, List.not_mem_nil, or_false] at hb; rcases hb with rfl | rfl <;> omega
  | three => simp only [List.mem_cons, List.not_mem_nil, or_false] at hb; rcases hb with rfl | rfl | rfl <;> omega
  | four =>
    simp only [List.mem_cons, List.not_mem_nil, or_false] at hb
    rcases hb with rfl | rfl | rfl | rfl <;> omega

/-- Of two characters the one with the smaller number has the smaller bytes, whatever follows. -/
theorem append_lt_append (h : Written m bs) (h' : Written n bs') (hlt : m < n) (s t : Bytes) :
    bs ++ s < bs' ++ t := by
  cases h <;> cases h' <;>
    simp only [List.cons_append, List.nil_append, List.cons_lt_cons_iff, UInt8.lt_iff_toNat_lt,
      ← UInt8.toNat_inj] <;> omega

/-- A number is written in one way. -/
theorem unique (h : Written n bs) (h' : Written n bs') : bs = bs' := by
  cases h <;> cases h' <;> simp only [List.cons.injEq, ← UInt8.toNat_inj, and_true] <;> omega

/-- What is written for a character is read as this character. -/
theorem charAt?_append {c : Char} (h : Written c.toNat bs) (rest : Bytes) :
    charAt? (bs ++ rest) = some (c, bs.length) := by
  have hc : ∀ k, k = c.toNat → Char.ofNat k = c := fun k hk => by rw [hk, Char.ofNat_toNat]
  cases h with
  | @one a hn ha =>
    have hwidth : width? a = some 1 := width?_eq_some_iff.mpr (by omega)
    simp only [List.cons_append, charAt?, hwidth]
    rw [hc _ ha]
    rfl
  | @two a b hn hn' ha hb =>
    have hwidth : width? a = some 2 := width?_eq_some_iff.mpr (by omega)
    have hsecond : isSecond a b = true := isSecond_iff.mpr (by omega)
    simp only [List.cons_append, charAt?, hwidth, hsecond, if_true]
    rw [hc _ (by unfold addBits; omega)]
    rfl
  | @three a b d hn hn' hsurrogate ha hb hd =>
    have hwidth : width? a = some 3 := width?_eq_some_iff.mpr (by omega)
    have hsecond : isSecond a b = true := isSecond_iff.mpr (by omega)
    have hthird : isContinuation d = true := isContinuation_iff.mpr (by omega)
    simp only [List.cons_append, charAt?, hwidth, hsecond, hthird, Bool.and_self, if_true]
    rw [hc _ (by unfold addBits; omega)]
    rfl
  | @four a b d e hn hn' ha hb hd he =>
    have hwidth : width? a = some 4 := width?_eq_some_iff.mpr (by omega)
    have hsecond : isSecond a b = true := isSecond_iff.mpr (by omega)
    have hthird : isContinuation d = true := isContinuation_iff.mpr (by omega)
    have hfourth : isContinuation e = true := isContinuation_iff.mpr (by omega)
    simp only [List.cons_append, charAt?, hwidth, hsecond, hthird, hfourth, Bool.and_self, if_true]
    rw [hc _ (by unfold addBits; omega)]
    rfl

end Written

/-- What is read as a character are the bytes of one. -/
theorem written_of_charAt? {bytes : Bytes} {c : Char} {n : Nat} (h : charAt? bytes = some (c, n)) :
    ∃ front rest, bytes = front ++ rest ∧ n = front.length ∧ Written c.toNat front := by
  have hnumber : ∀ {k : Nat}, k < 0xD800 ∨ 0xDFFF < k ∧ k < 0x110000 → (Char.ofNat k).toNat = k := by
    intro k hk
    rw [Char.ofNat, dif_pos hk]
    rfl
  unfold charAt? at h
  split at h
  · cases h
  rename_i a _
  split at h
  · rename_i hwidth
    have ha := width?_eq_some_iff.mp hwidth
    cases h
    have hk := hnumber (k := a.toNat) (by omega)
    exact ⟨[a], _, rfl, rfl, .one (by omega) hk.symm⟩
  · rename_i b rest hwidth
    split at h
    · rename_i hsecond
      have ha := width?_eq_some_iff.mp hwidth
      have hb := isSecond_iff.mp hsecond
      cases h
      have hk := hnumber (k := addBits (a.toNat % 32) b) (by unfold addBits; omega)
      unfold addBits at hk ⊢
      exact ⟨[a, b], rest, rfl, rfl, .two (by omega) (by omega) (by omega) (by omega)⟩
    · cases h
  · rename_i b d rest hwidth
    split at h
    · rename_i hand
      rw [Bool.and_eq_true] at hand
      have ha := width?_eq_some_iff.mp hwidth
      have hb := isSecond_iff.mp hand.1
      have hd := isContinuation_iff.mp hand.2
      cases h
      have hk := hnumber (k := addBits (addBits (a.toNat % 16) b) d) (by unfold addBits; omega)
      unfold addBits at hk ⊢
      exact ⟨[a, b, d], rest, rfl, rfl, .three (by omega) (by omega) (by omega) (by omega) (by omega) (by omega)⟩
    · cases h
  · rename_i b d e rest hwidth
    split at h
    · rename_i hand
      rw [Bool.and_eq_true, Bool.and_eq_true] at hand
      have ha := width?_eq_some_iff.mp hwidth
      have hb := isSecond_iff.mp hand.1.1
      have hd := isContinuation_iff.mp hand.1.2
      have he := isContinuation_iff.mp hand.2
      cases h
      have hk := hnumber (k := addBits (addBits (addBits (a.toNat % 8) b) d) e) (by unfold addBits; omega)
      unfold addBits at hk ⊢
      exact ⟨[a, b, d, e], rest, rfl, rfl, .four (by omega) (by omega) (by omega) (by omega) (by omega) (by omega)⟩
    · cases h
  · cases h

/-- What is read as a character is what is written for it. -/
theorem exists_of_charAt? {bytes : Bytes} {c : Char} {n : Nat} (h : charAt? bytes = some (c, n)) :
    ∃ rest, bytes = String.utf8EncodeChar c ++ rest ∧ n = (String.utf8EncodeChar c).length := by
  obtain ⟨front, rest, rfl, rfl, hfront⟩ := written_of_charAt? h
  obtain rfl := hfront.unique (written_utf8EncodeChar c)
  exact ⟨rest, rfl, rfl⟩

variable {a b : String} {byte : UInt8}

theorem encode_append (a b : String) : encode (a ++ b) = encode a ++ encode b := by
  rw [encode, String.toList_append, List.flatMap_append]
  rfl

theorem decodeFrom_append (skipped s : Bytes) : decodeFrom skipped.length (skipped ++ s) = decodeFrom 0 s := by
  induction skipped with
  | nil => rfl
  | cons b skipped ih => exact ih

theorem decodeFrom_flatMap (cs : List Char) : decodeFrom 0 (cs.flatMap String.utf8EncodeChar) = (cs, []) := by
  induction cs with
  | nil => rfl
  | cons c cs ih =>
    rw [List.flatMap_cons]
    have hchar := (written_utf8EncodeChar c).charAt?_append (cs.flatMap String.utf8EncodeChar)
    cases hbytes : String.utf8EncodeChar c with
    | nil => exact absurd hbytes String.utf8EncodeChar_ne_nil
    | cons first skipped =>
      rw [hbytes, List.cons_append] at hchar
      rw [List.cons_append, decodeFrom, hchar]
      simp only [List.length_cons, Nat.add_sub_cancel]
      rw [decodeFrom_append, ih]

theorem eq_of_decodeFrom {bytes : Bytes} {cs : List Char} (h : decodeFrom 0 bytes = (cs, [])) :
    bytes = cs.flatMap String.utf8EncodeChar := by
  induction cs generalizing bytes with
  | nil =>
    cases bytes with
    | nil => rfl
    | cons a s =>
      rw [decodeFrom] at h
      split at h <;> cases h
  | cons c cs ih =>
    cases bytes with
    | nil => cases h
    | cons a s =>
      cases hchar : charAt? (a :: s) with
      | none =>
        rw [decodeFrom, hchar] at h
        cases h
      | some found =>
        obtain ⟨d, n⟩ := found
        obtain ⟨rest, hrest, rfl⟩ := exists_of_charAt? hchar
        rw [decodeFrom, hchar] at h
        cases hbytes : String.utf8EncodeChar d with
        | nil => exact absurd hbytes String.utf8EncodeChar_ne_nil
        | cons first skipped =>
          rw [hbytes, List.cons_append] at hrest
          obtain ⟨rfl, rfl⟩ := List.cons.inj hrest
          simp only [hbytes, List.length_cons, Nat.add_sub_cancel, decodeFrom_append] at h
          obtain ⟨hcs, hleft⟩ := Prod.mk.inj h
          obtain ⟨rfl, rfl⟩ := List.cons.inj hcs
          rw [List.flatMap_cons, hbytes, List.cons_append, ← ih (Prod.ext rfl hleft)]

/-- A text that is written is read back. -/
theorem decode_encode (s : String) : decode (encode s) = .ok s := by
  rw [decode, encode, decodeFrom_flatMap]
  simp

/-- Bytes are read as a text when they are the bytes of this text. -/
theorem decode_eq_ok_iff {bytes : Bytes} {s : String} : decode bytes = .ok s ↔ bytes = encode s := by
  constructor
  · intro h
    unfold decode at h
    simp only at h
    split at h
    · rename_i hempty
      cases h
      rw [encode, String.toList_ofList]
      exact eq_of_decodeFrom (Prod.ext rfl (List.isEmpty_iff.mp hempty))
    · cases h
  · rintro rfl
    exact decode_encode s

theorem encode_eq_nil_iff : encode a = [] ↔ a = "" := by
  constructor
  · intro h
    have hread := decode_encode a
    rw [h] at hread
    exact (Except.ok.inj hread).symm
  · rintro rfl
    rfl

/-- A byte below 128 in a text is one of its characters. -/
theorem exists_char_of_mem_encode (h : byte ∈ encode a) (hsmall : byte.toNat < 0x80) :
    ∃ c ∈ a.toList, c.toNat = byte.toNat := by
  obtain ⟨c, hc, hbyte⟩ := List.mem_flatMap.mp h
  rcases (written_utf8EncodeChar c).eq_or_le hbyte with ⟨hnumber, _⟩ | hlarge
  · exact ⟨c, hc, hnumber.symm⟩
  · omega

theorem flatMap_lt_flatMap {cs ds : List Char} (h : cs < ds) :
    cs.flatMap String.utf8EncodeChar < ds.flatMap String.utf8EncodeChar := by
  induction h with
  | @nil d ds =>
    rw [List.flatMap_nil, List.flatMap_cons]
    cases hbytes : String.utf8EncodeChar d with
    | nil => exact absurd hbytes String.utf8EncodeChar_ne_nil
    | cons first rest => exact List.nil_lt_cons _ _
  | @rel c cs d ds hlt =>
    rw [List.flatMap_cons, List.flatMap_cons]
    exact (written_utf8EncodeChar c).append_lt_append (written_utf8EncodeChar d) hlt _ _
  | cons _ ih =>
    rw [List.flatMap_cons, List.flatMap_cons]
    exact List.append_left_lt ih

/-- Texts in order have their bytes in order. -/
theorem encode_lt_encode (h : compare a b = .lt) : encode a < encode b := by
  have hlt : a < b := compareOfLessAndEq_eq_lt.mp h
  exact flatMap_lt_flatMap hlt

end SchemaTables.Text.Utf8
