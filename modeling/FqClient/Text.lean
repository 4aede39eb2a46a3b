import FqClient.Errors

namespace FqClient

/-- `str.encode("utf-8")`. -/
def encodeUtf8 (s : Str) : Bytes := s.flatMap String.utf8EncodeChar

/-- The limit on the digits of a decimal conversion, `sys.get_int_max_str_digits()`. -/
def intMaxStrDigits : ℕ := 4300

/-- The decimal digits of an integer, with its sign. -/
def decimal : ℤ → Str
  | .ofNat n => Nat.toDigits 10 n
  | .negSucc n => '-' :: Nat.toDigits 10 (n + 1)

/-- The code points of the decimal zeros of Unicode 14.0. The nine other digits follow each. -/
def decimalZeros : List ℕ :=
  [0x30, 0x660, 0x6f0, 0x7c0, 0x966, 0x9e6, 0xa66, 0xae6, 0xb66, 0xbe6, 0xc66, 0xce6, 0xd66, 0xde6,
    0xe50, 0xed0, 0xf20, 0x1040, 0x1090, 0x17e0, 0x1810, 0x1946, 0x19d0, 0x1a80, 0x1a90, 0x1b50,
    0x1bb0, 0x1c40, 0x1c50, 0xa620, 0xa8d0, 0xa900, 0xa9d0, 0xa9f0, 0xaa50, 0xabf0, 0xff10, 0x104a0,
    0x10d30, 0x11066, 0x110f0, 0x11136, 0x111d0, 0x112f0, 0x11450, 0x114d0, 0x11650, 0x116c0,
    0x11730, 0x118e0, 0x11950, 0x11c50, 0x11d50, 0x11da0, 0x16a60, 0x16ac0, 0x16b50, 0x1d7ce,
    0x1d7d8, 0x1d7e2, 0x1d7ec, 0x1d7f6, 0x1e140, 0x1e2f0, 0x1e950, 0x1fbf0]

/-- The ranges of the characters that are digits without being decimal, the superscripts among
them. -/
def otherDigits : List (ℕ × ℕ) :=
  [(0xb2, 0xb3), (0xb9, 0xb9), (0x1369, 0x1371), (0x19da, 0x19da), (0x2070, 0x2070),
    (0x2074, 0x2079), (0x2080, 0x2089), (0x2460, 0x2468), (0x2474, 0x247c), (0x2488, 0x2490),
    (0x24ea, 0x24ea), (0x24f5, 0x24fd), (0x24ff, 0x24ff), (0x2776, 0x277e), (0x2780, 0x2788),
    (0x278a, 0x2792), (0x10a40, 0x10a43), (0x10e60, 0x10e68), (0x11052, 0x1105a),
    (0x1f100, 0x1f10a)]

def decimalValue (c : Char) : Option ℕ :=
  (decimalZeros.find? fun z => z ≤ c.toNat ∧ c.toNat < z + 10).map (c.toNat - ·)

/-- `str.isdigit()`. -/
def isDigit (s : Str) : Bool :=
  !s.isEmpty && s.all fun c => (decimalValue c).isSome ||
    otherDigits.any fun range => range.1 ≤ c.toNat ∧ c.toNat ≤ range.2

/-- `int(text)` of a text that `isdigit()`: it takes decimal characters only, and not too many. -/
def strToInt (s : Str) : Except Exc ℕ :=
  if intMaxStrDigits < s.length then .error .valueError
  else
    match s.mapM decimalValue with
    | some values => .ok (values.foldl (fun sum value => 10 * sum + value) 0)
    | none => .error .valueError

/-- `str(value)`, which raises when the digits are too many. -/
def intToStr (value : ℤ) : Except Exc Str :=
  if (Nat.toDigits 10 value.natAbs).length ≤ intMaxStrDigits then .ok (decimal value)
  else .error .valueError

/-- `raise` of an exception whose message holds an integer: the message is formatted first. -/
def raiseAbout {α : Type} (value : ℤ) (e : Exc) : Except Exc α := do
  let _ ← intToStr value
  throw e

theorem encodeUtf8_injective : Function.Injective encodeUtf8 := by
  intro s t h
  have hb : s.utf8Encode = t.utf8Encode := by
    simp only [List.utf8Encode]
    exact congrArg List.toByteArray h
  have hs : String.ofList s = String.ofList t := String.toByteArray_inj.mp (by simpa using hb)
  exact String.ofList_injective hs

theorem toDigits_injective : Function.Injective (Nat.toDigits 10) := by
  intro m n h
  rw [← @Nat.ofDigitChars_ten_toDigits m, h, Nat.ofDigitChars_ten_toDigits]

theorem not_mem_toDigits {c : Char} (hc : c.isDigit = false) (n : ℕ) : c ∉ Nat.toDigits 10 n := by
  intro h
  have hd := Nat.isDigit_of_mem_toDigits (by decide) (by decide) h
  rw [hc] at hd
  exact absurd hd (by decide)

theorem decimal_injective : Function.Injective decimal := by
  intro m n h
  cases m with
  | ofNat m =>
    cases n with
    | ofNat n => exact congrArg Int.ofNat (toDigits_injective h)
    | negSucc n =>
      have hd : Nat.toDigits 10 m = '-' :: Nat.toDigits 10 (n + 1) := h
      exact absurd (hd ▸ List.mem_cons_self) (not_mem_toDigits (by decide) m)
  | negSucc m =>
    cases n with
    | ofNat n =>
      have hd : '-' :: Nat.toDigits 10 (m + 1) = Nat.toDigits 10 n := h
      exact absurd (hd ▸ List.mem_cons_self) (not_mem_toDigits (by decide) n)
    | negSucc n =>
      have hd : m + 1 = n + 1 := toDigits_injective (List.cons.inj h).2
      exact congrArg Int.negSucc (Nat.succ.inj hd)

theorem space_not_mem_decimal (n : ℤ) : ' ' ∉ decimal n := by
  cases n with
  | ofNat n => exact not_mem_toDigits (by decide) n
  | negSucc n =>
    intro h
    rcases List.mem_cons.mp h with h | h
    · exact absurd h (by decide)
    · exact not_mem_toDigits (by decide) (n + 1) h

theorem decimal_of_intToStr {value : ℤ} {s : Str} (h : intToStr value = .ok s) :
    s = decimal value := by
  unfold intToStr at h
  split at h
  · exact (Except.ok.inj h).symm
  · cases h

theorem intToStr_of_lt {n : ℕ} (h : n < 10 ^ intMaxStrDigits) :
    intToStr n = .ok (Nat.toDigits 10 n) := by
  have hl : (Nat.toDigits 10 n).length ≤ intMaxStrDigits :=
    (Nat.length_toDigits_le_iff (by decide) (by decide)).mpr h
  exact if_pos hl

theorem intToStr_of_le {value : ℤ} (h : 10 ^ intMaxStrDigits ≤ value.natAbs) :
    intToStr value = .error .valueError := by
  have hl : ¬ (Nat.toDigits 10 value.natAbs).length ≤ intMaxStrDigits := fun hl =>
    not_lt.mpr h ((Nat.length_toDigits_le_iff (by decide) (by decide)).mp hl)
  exact if_neg hl

section RaiseAbout
variable {α : Type} {value : ℤ} (e : Exc)

theorem raiseAbout_of_lt (h : value.natAbs < 10 ^ intMaxStrDigits) :
    (raiseAbout value e : Except Exc α) = .error e := by
  have hl : (Nat.toDigits 10 value.natAbs).length ≤ intMaxStrDigits :=
    (Nat.length_toDigits_le_iff (by decide) (by decide)).mpr h
  unfold raiseAbout intToStr
  rw [if_pos hl]
  rfl

theorem raiseAbout_of_le (h : 10 ^ intMaxStrDigits ≤ value.natAbs) :
    (raiseAbout value e : Except Exc α) = .error .valueError := by
  unfold raiseAbout
  rw [intToStr_of_le h]
  rfl

theorem raiseAbout_bind {β : Type} (f : α →
      Except Exc β) : raiseAbout value e >>= f = raiseAbout value e := by
  rcases lt_or_ge value.natAbs (10 ^ intMaxStrDigits) with h | h
  · rw [raiseAbout_of_lt e h, raiseAbout_of_lt e h]
    rfl
  · rw [raiseAbout_of_le e h, raiseAbout_of_le e h]
    rfl

end RaiseAbout

theorem decimalValue_of_isDigit {c : Char} (h : c.isDigit = true) :
    decimalValue c = some (c.toNat - 48) := by
  have hr : 0x30 ≤ c.toNat ∧ c.toNat < 0x30 + 10 := by
    simp only [Char.isDigit, Bool.and_eq_true, decide_eq_true_eq, ge_iff_le,
      UInt32.le_iff_toNat_le] at h
    exact ⟨h.1, Nat.lt_succ_of_le h.2⟩
  unfold decimalValue decimalZeros
  rw [List.find?_cons_of_pos (by simpa using hr)]
  rfl

theorem isDigit_toDigits (n : ℕ) : isDigit (Nat.toDigits 10 n) = true := by
  have hne : (Nat.toDigits 10 n).isEmpty = false := by
    rw [List.isEmpty_eq_false_iff]
    exact Nat.toDigits_ne_nil
  unfold isDigit
  rw [hne, Bool.not_false, Bool.true_and, List.all_eq_true]
  intro c hc
  rw [decimalValue_of_isDigit (Nat.isDigit_of_mem_toDigits (by decide) (by decide) hc)]
  rfl

theorem mapM_decimalValue {s : Str} (h : ∀ c ∈ s, c.isDigit = true) :
    s.mapM decimalValue = some (s.map fun c => c.toNat - 48) := by
  induction s with
  | nil => rfl
  | cons c s ih =>
    rw [List.mapM_cons, decimalValue_of_isDigit (h c List.mem_cons_self),
      ih fun d hd => h d (List.mem_cons_of_mem _ hd)]
    rfl

/-- Reading back what was printed. -/
theorem strToInt_toDigits {n : ℕ} (h : n < 10 ^ intMaxStrDigits) :
    strToInt (Nat.toDigits 10 n) = .ok n := by
  have hl : ¬ intMaxStrDigits < (Nat.toDigits 10 n).length :=
    not_lt.mpr ((Nat.length_toDigits_le_iff (by decide) (by decide)).mpr h)
  unfold strToInt
  rw [if_neg hl, mapM_decimalValue fun c hc =>
    Nat.isDigit_of_mem_toDigits (by decide) (by decide) hc]
  simp only [List.foldl_map]
  exact congrArg Except.ok Nat.ofDigitChars_ten_toDigits

end FqClient
