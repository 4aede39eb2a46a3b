import FqClient.Sharding
import Mathlib.Data.Nat.Bitwise

namespace FqClient.Hashing

/-! ## Folds that are reduced at every step -/

section Reduced
variable {α : Type} {m : ℕ} {step : ℕ → α → ℕ}

/-- Reducing before a step does not show once the step is reduced. -/
def Congruent (m : ℕ) (step : ℕ → α → ℕ) : Prop := ∀ n a, step (n % m) a % m = step n a % m

/-- Reducing at every step is reducing once at the end. -/
theorem foldl_reduced (h : Congruent m step) (l : List α) (n : ℕ) :
    l.foldl (fun n a => step n a % m) (n % m) = l.foldl step n % m := by
  induction l generalizing n with
  | nil => simp
  | cons a l ih =>
    simp only [List.foldl_cons]
    rw [h n a]
    exact ih (step n a)

theorem foldl_reduced_lt (hm : 0 < m) (l : List α) {n : ℕ} (hn : n < m) :
    l.foldl (fun n a => step n a % m) n < m := by
  induction l generalizing n with
  | nil => simpa using hn
  | cons a l ih => simpa using ih (Nat.mod_lt (step n a) hm)

/-- The low bits of `xor` with less than a power of two, times a constant, depend on the low bits. -/
theorem congruent_xor_mul {w : ℕ} (prime : ℕ) {value : α → ℕ} (hvalue : ∀ a, value a < 2 ^ w) :
    Congruent (2 ^ w) fun n a => (n ^^^ value a) * prime := by
  intro n a
  have hxor : (n ^^^ value a) % 2 ^ w = n % 2 ^ w ^^^ value a := by
    rw [Nat.xor_mod_two_pow, Nat.mod_eq_of_lt (hvalue a)]
  calc (n % 2 ^ w ^^^ value a) * prime % 2 ^ w
      = (n ^^^ value a) % 2 ^ w * prime % 2 ^ w := by rw [hxor]
    _ = (n ^^^ value a) * prime % 2 ^ w := by simp [Nat.mul_mod]

end Reduced

/-! ## The default sharding function -/

/-- The loop of `fnv1a_shard`. -/
def maskedDigest (bytes : Bytes) : ℕ :=
  bytes.foldl (fun digest byte => ((digest ^^^ byte.toNat) * fnvPrime) &&& uint32Mask) fnvOffsetBasis

/-- FNV-1a before it is cut to 32 bits. -/
def unboundedDigest (bytes : Bytes) : ℕ :=
  bytes.foldl (fun digest byte => (digest ^^^ byte.toNat) * fnvPrime) fnvOffsetBasis

theorem fnv1aShard_eq (key : Str) (shardCount : ℕ) :
    fnv1aShard key shardCount = (maskedDigest (encodeUtf8 key) % shardCount : ℕ) := rfl

theorem maskedDigest_eq (bytes : Bytes) :
    maskedDigest bytes = bytes.foldl
      (fun digest byte => (digest ^^^ byte.toNat) * fnvPrime % 2 ^ 32) fnvOffsetBasis := by
  unfold maskedDigest
  congr
  funext digest byte
  exact Nat.and_two_pow_sub_one_eq_mod _ 32

theorem maskedDigest_reduced (bytes : Bytes) : maskedDigest bytes = unboundedDigest bytes % 2 ^ 32 := by
  have hbyte : ∀ byte : UInt8, byte.toNat < 2 ^ 32 := fun byte => by
    have := byte.toNat_lt
    omega
  have h := foldl_reduced (congruent_xor_mul fnvPrime hbyte) bytes fnvOffsetBasis
  rw [maskedDigest_eq]
  exact h

theorem maskedDigest_lt (bytes : Bytes) : maskedDigest bytes < 2 ^ 32 := by
  rw [maskedDigest_eq]
  exact foldl_reduced_lt (by decide) bytes (by decide)

/-- The masked loop stays below `2 ^ 32` and computes FNV-1a, whose index is always in range. -/
theorem fnv1a_reduces_once :
    (∀ bytes, maskedDigest bytes = unboundedDigest bytes % 2 ^ 32 ∧
      ∀ read, read <+: bytes → maskedDigest read < 2 ^ 32) ∧
    ∀ key shardCount, 0 < shardCount →
      fnv1aShard key shardCount = (unboundedDigest (encodeUtf8 key) % 2 ^ 32 % shardCount : ℕ) ∧
      resolveShard key shardCount fnv1aShard =
        .ok (unboundedDigest (encodeUtf8 key) % 2 ^ 32 % shardCount) := by
  have hindex : ∀ key shardCount, fnv1aShard key shardCount =
      (unboundedDigest (encodeUtf8 key) % 2 ^ 32 % shardCount : ℕ) := by
    intro key shardCount
    rw [fnv1aShard_eq, maskedDigest_reduced]
  constructor
  · exact fun bytes => ⟨maskedDigest_reduced bytes, fun read _ => maskedDigest_lt read⟩
  · intro key shardCount hpos
    have hlt := Nat.mod_lt (unboundedDigest (encodeUtf8 key) % 2 ^ 32) hpos
    refine ⟨hindex key shardCount, ?_⟩
    rw [resolveShard_ok (by rw [hindex]; omega), hindex, Int.toNat_natCast]

theorem fnv1a_of_a : fnv1aShard ['a'] 3 = (unboundedDigest (encodeUtf8 ['a']) % 2 ^ 32 % 3 : ℕ) ∧
    resolveShard ['a'] 3 fnv1aShard = .ok (unboundedDigest (encodeUtf8 ['a']) % 2 ^ 32 % 3) :=
  fnv1a_reduces_once.2 ['a'] 3 (by decide)

/-- The reference value of FNV-1a for `"a"`. -/
example : maskedDigest (encodeUtf8 ['a']) = 0xE40C292C := by decide +kernel

end FqClient.Hashing
