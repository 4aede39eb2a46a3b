import FqClient.Responses

namespace FqClient

/-! Decoding what was encoded in UTF-8. -/

theorem decodeReplace_cons (pending : Option Pending) (byte : UInt8) (rest : Bytes) :
    decodeReplace pending (byte :: rest) =
      (feedByte pending byte).1 ++ decodeReplace (feedByte pending byte).2 rest := by
  cases pending <;> rfl

theorem toNat_byte {n : ℕ} (h : n < 256) : (UInt8.ofNat n).toNat = n := by
  rw [UInt8.toNat_ofNat', Nat.mod_eq_of_lt h]

theorem le_byte {n : ℕ} {low : UInt8} (hn : n < 256) (h : low.toNat ≤ n) : low ≤ UInt8.ofNat n := by
  rw [UInt8.le_iff_toNat_le, toNat_byte hn]
  exact h

theorem byte_le {n : ℕ} {high : UInt8} (hn : n < 256) (h : n ≤ high.toNat) :
    UInt8.ofNat n ≤ high := by
  rw [UInt8.le_iff_toNat_le, toNat_byte hn]
  exact h

theorem not_byte_lt {n : ℕ} {low : UInt8} (hn : n < 256) (h : low.toNat ≤ n) :
    ¬ UInt8.ofNat n < low := by
  rw [UInt8.lt_iff_toNat_lt, toNat_byte hn]
  omega

theorem byte_lt {n : ℕ} {high : UInt8} (hn : n < 256) (h : n < high.toNat) :
    UInt8.ofNat n < high := by
  rw [UInt8.lt_iff_toNat_lt, toNat_byte hn]
  exact h

theorem byte_ne {n : ℕ} {b : UInt8} (hn : n < 256) (h : n ≠ b.toNat) : UInt8.ofNat n ≠ b := by
  intro heq
  rw [← heq, toNat_byte hn] at h
  exact h rfl

/-- A byte that continues a sequence which needs more than it. -/
theorem feedByte_more {code needed n : ℕ} {low high : UInt8} (hn : n < 64)
    (hlow : low.toNat ≤ n + 128) (hhigh : n + 128 ≤ high.toNat) (hneeded : needed ≠ 1) :
    feedByte (some ⟨code, needed, low, high⟩) (UInt8.ofNat (n + 128)) =
      ([], some ⟨64 * code + n, needed - 1, 0x80, 0xBF⟩) := by
  have hbyte : n + 128 < 256 := by omega
  have hshift : shiftIn code (UInt8.ofNat (n + 128)) = 64 * code + n := by
    unfold shiftIn
    rw [toNat_byte hbyte]
    omega
  dsimp only [feedByte]
  rw [if_pos ⟨le_byte hbyte hlow, byte_le hbyte hhigh⟩, if_neg hneeded, hshift]

/-- The byte that completes a sequence. -/
theorem feedByte_last {code n : ℕ} (hn : n < 64) :
    feedByte (some ⟨code, 1, 0x80, 0xBF⟩) (UInt8.ofNat (n + 128)) =
      ([Char.ofNat (64 * code + n)], none) := by
  have hbyte : n + 128 < 256 := by omega
  have hlow : (0x80 : UInt8).toNat ≤ n + 128 := by
    change 128 ≤ n + 128
    omega
  have hhigh : n + 128 ≤ (0xBF : UInt8).toNat := by
    change n + 128 ≤ 191
    omega
  have hshift : shiftIn code (UInt8.ofNat (n + 128)) = 64 * code + n := by
    unfold shiftIn
    rw [toNat_byte hbyte]
    omega
  dsimp only [feedByte]
  rw [if_pos ⟨le_byte hbyte hlow, byte_le hbyte hhigh⟩, if_pos rfl, hshift]

/-- The first byte of a sequence. -/
theorem leadByte_eq {n tail : ℕ} {low high : UInt8} (hn : n < 256) (hlead : 128 ≤ n)
    (hrange : secondRange (UInt8.ofNat n) = some (low, high))
    (htail : tailLength (UInt8.ofNat n) = tail) :
    feedByte none (UInt8.ofNat n) = ([], some ⟨n % 2 ^ (6 - tail), tail, low, high⟩) := by
  have hnot : ¬ UInt8.ofNat n < 0x80 := not_byte_lt hn hlead
  change leadByte (UInt8.ofNat n) = _
  unfold leadByte
  rw [if_neg hnot, hrange, htail, toNat_byte hn]

section Ranges
variable {n : ℕ}

theorem tailLength_two (hn : n < 0xE0) : tailLength (UInt8.ofNat n) = 1 := by
  have hlt : UInt8.ofNat n < 0xE0 := byte_lt (by omega) hn
  exact if_pos hlt

theorem tailLength_three (h : 0xE0 ≤ n) (hn : n < 0xF0) : tailLength (UInt8.ofNat n) = 2 := by
  have hnot : ¬ UInt8.ofNat n < 0xE0 := not_byte_lt (by omega) h
  have hlt : UInt8.ofNat n < 0xF0 := byte_lt (by omega) hn
  unfold tailLength
  rw [if_neg hnot, if_pos hlt]

theorem tailLength_four (h : 0xF0 ≤ n) (hn : n < 256) : tailLength (UInt8.ofNat n) = 3 := by
  have hnot : ¬ UInt8.ofNat n < 0xE0 := not_byte_lt hn (by change 0xE0 ≤ n; omega)
  have hnot' : ¬ UInt8.ofNat n < 0xF0 := not_byte_lt hn h
  unfold tailLength
  rw [if_neg hnot, if_neg hnot']

theorem secondRange_two (h : 0xC2 ≤ n) (hn : n ≤ 0xDF) :
    secondRange (UInt8.ofNat n) = some (0x80, 0xBF) := by
  have hlow : (0xC2 : UInt8) ≤ UInt8.ofNat n := le_byte (by omega) h
  have hhigh : UInt8.ofNat n ≤ 0xDF := byte_le (by omega) hn
  exact if_pos ⟨hlow, hhigh⟩

/-- The range of the second of three bytes. -/
theorem secondRange_three (h : 0xE0 ≤ n) (hn : n ≤ 0xEF) : secondRange (UInt8.ofNat n) =
    some (if n = 0xE0 then 0xA0 else 0x80, if n = 0xED then 0x9F else 0xBF) := by
  have hbyte : n < 256 := by omega
  have htwo : ¬ (0xC2 ≤ UInt8.ofNat n ∧ UInt8.ofNat n ≤ 0xDF) := by
    intro hrange
    have hle := UInt8.le_iff_toNat_le.mp hrange.2
    rw [toNat_byte hbyte] at hle
    change n ≤ 0xDF at hle
    omega
  unfold secondRange
  rw [if_neg htwo]
  by_cases hfirst : n = 0xE0
  · rw [hfirst]
    rfl
  · have hne : UInt8.ofNat n ≠ 0xE0 := byte_ne hbyte hfirst
    rw [if_neg hne]
    by_cases hsurrogate : n = 0xED
    · rw [hsurrogate]
      rfl
    · have hne' : UInt8.ofNat n ≠ 0xED := byte_ne hbyte hsurrogate
      have hlow : (0xE1 : UInt8) ≤ UInt8.ofNat n := le_byte hbyte (by change 0xE1 ≤ n; omega)
      have hhigh : UInt8.ofNat n ≤ 0xEF := byte_le hbyte hn
      rw [if_neg hne', if_pos ⟨hlow, hhigh⟩, if_neg hfirst, if_neg hsurrogate]

/-- The range of the second of four bytes. -/
theorem secondRange_four (h : 0xF0 ≤ n) (hn : n ≤ 0xF4) : secondRange (UInt8.ofNat n) =
    some (if n = 0xF0 then 0x90 else 0x80, if n = 0xF4 then 0x8F else 0xBF) := by
  have hcases : n = 0xF0 ∨ n = 0xF1 ∨ n = 0xF2 ∨ n = 0xF3 ∨ n = 0xF4 := by omega
  rcases hcases with rfl | rfl | rfl | rfl | rfl <;> rfl

end Ranges

/-- Decoding a character that was encoded gives it back. -/
theorem decodeReplace_encoded (c : Char) (rest : Bytes) :
    decodeReplace none (String.utf8EncodeChar c ++ rest) = c :: decodeReplace none rest := by
  have hback : Char.ofNat c.val.toNat = c := Char.ofNat_toNat c
  have hvalid : c.val.toNat < 0xD800 ∨ 0xDFFF < c.val.toNat ∧ c.val.toNat < 0x110000 := c.valid
  unfold String.utf8EncodeChar
  generalize hv : c.val.toNat = v at hback hvalid ⊢
  dsimp only
  split
  · rename_i hone
    have hbyte : v < 256 := by omega
    have hlt : UInt8.ofNat v < 0x80 := byte_lt hbyte (by change v < 128; omega)
    rw [List.singleton_append, decodeReplace_cons]
    change (leadByte _).1 ++ decodeReplace (leadByte _).2 rest = _
    unfold leadByte
    rw [if_pos hlt, toNat_byte hbyte, hback]
    rfl
  · rename_i hone
    split
    · rename_i htwo
      have hlead : 0xC2 ≤ v / 64 % 32 + 0xC0 ∧ v / 64 % 32 + 0xC0 ≤ 0xDF := by omega
      have hcode : 64 * ((v / 64 % 32 + 0xC0) % 2 ^ (6 - 1)) + v % 64 = v := by omega
      simp only [List.cons_append, List.nil_append]
      rw [decodeReplace_cons, leadByte_eq (by omega) (by omega) (secondRange_two hlead.1 hlead.2)
        (tailLength_two (by omega)), List.nil_append, decodeReplace_cons,
        feedByte_last (by omega), hcode, hback]
      rfl
    · rename_i htwo
      split
      · rename_i hthree
        have hlead : 0xE0 ≤ v / 4096 % 16 + 0xE0 ∧ v / 4096 % 16 + 0xE0 ≤ 0xEF := by omega
        have hcode : 64 * (64 * ((v / 4096 % 16 + 0xE0) % 2 ^ (6 - 2)) + v / 64 % 64) + v % 64 = v := by
          omega
        -- the narrow ranges exclude overlong forms and surrogates, which are no characters
        have hlow : (if v / 4096 % 16 + 0xE0 = 0xE0 then (0xA0 : UInt8) else 0x80).toNat ≤
            v / 64 % 64 + 128 := by
          split
          · change 0xA0 ≤ v / 64 % 64 + 128
            omega
          · change 0x80 ≤ v / 64 % 64 + 128
            omega
        have hhigh : v / 64 % 64 + 128 ≤
            (if v / 4096 % 16 + 0xE0 = 0xED then (0x9F : UInt8) else 0xBF).toNat := by
          split
          · change v / 64 % 64 + 128 ≤ 0x9F
            omega
          · change v / 64 % 64 + 128 ≤ 0xBF
            omega
        simp only [List.cons_append, List.nil_append]
        rw [decodeReplace_cons, leadByte_eq (by omega) (by omega) (secondRange_three hlead.1 hlead.2)
          (tailLength_three (by omega) (by omega)), List.nil_append, decodeReplace_cons,
          feedByte_more (by omega) hlow hhigh (by decide), List.nil_append, decodeReplace_cons,
          feedByte_last (by omega), hcode, hback]
        rfl
      · rename_i hthree
        have hlead : 0xF0 ≤ v / 262144 % 8 + 0xF0 ∧ v / 262144 % 8 + 0xF0 ≤ 0xF4 := by omega
        have hcode : 64 * (64 * (64 * ((v / 262144 % 8 + 0xF0) % 2 ^ (6 - 3)) + v / 4096 % 64) +
            v / 64 % 64) + v % 64 = v := by omega
        have hlow : (if v / 262144 % 8 + 0xF0 = 0xF0 then (0x90 : UInt8) else 0x80).toNat ≤
            v / 4096 % 64 + 128 := by
          split
          · change 0x90 ≤ v / 4096 % 64 + 128
            omega
          · change 0x80 ≤ v / 4096 % 64 + 128
            omega
        have hhigh : v / 4096 % 64 + 128 ≤
            (if v / 262144 % 8 + 0xF0 = 0xF4 then (0x8F : UInt8) else 0xBF).toNat := by
          split
          · change v / 4096 % 64 + 128 ≤ 0x8F
            omega
          · change v / 4096 % 64 + 128 ≤ 0xBF
            omega
        have hmid : (0x80 : UInt8).toNat ≤ v / 64 % 64 + 128 ∧
            v / 64 % 64 + 128 ≤ (0xBF : UInt8).toNat := by
          change 0x80 ≤ v / 64 % 64 + 128 ∧ v / 64 % 64 + 128 ≤ 0xBF
          omega
        simp only [List.cons_append, List.nil_append]
        rw [decodeReplace_cons, leadByte_eq (by omega) (by omega) (secondRange_four hlead.1 hlead.2)
          (tailLength_four (by omega) (by omega)), List.nil_append, decodeReplace_cons,
          feedByte_more (by omega) hlow hhigh (by decide), List.nil_append, decodeReplace_cons,
          feedByte_more (by omega) hmid.1 hmid.2 (by decide), List.nil_append, decodeReplace_cons,
          feedByte_last (by omega), hcode, hback]
        rfl

/-- A text field is read back as it was written. -/
theorem text_encodeUtf8 (s : Str) : text (encodeUtf8 s) = s := by
  unfold text encodeUtf8
  induction s with
  | nil => rfl
  | cons c s ih => rw [List.flatMap_cons, decodeReplace_encoded, ih]

end FqClient
