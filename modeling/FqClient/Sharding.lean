import FqClient.Text
import FqClient.Scatter

namespace FqClient

/-- A sharding function takes a key and the number of shards. -/
abbrev ShardingFunc := Str → ℕ → ℤ

def shardCursorSeparator : Char := ':'

def fnvOffsetBasis : ℕ := 0x811C9DC5

def fnvPrime : ℕ := 0x01000193

def uint32Mask : ℕ := 0xFFFFFFFF

/-- FNV-1a over the UTF-8 bytes of the key. -/
def fnv1aShard : ShardingFunc := fun key shardCount =>
  let digest := (encodeUtf8 key).foldl
    (fun digest byte => ((digest ^^^ byte.toNat) * fnvPrime) &&& uint32Mask) fnvOffsetBasis
  (digest % shardCount : ℕ)

def resolveShard (key : Str) (shardCount : ℕ) (shardingFunc : ShardingFunc) : Except Exc ℕ :=
  let index := shardingFunc key shardCount
  if index < 0 ∨ (shardCount : ℤ) ≤ index then raiseAbout index (.shardIndexError index shardCount)
  else .ok index.toNat

/-- Groups the keys by shard, each with its position; the groups stand in the order of their first
keys, as in a `dict`. -/
def groupByShard (keys : List CappingKey) (resolve : Str → Except Exc ℕ) :
    Except Exc (List (ℕ × List (ℕ × CappingKey))) :=
  keys.zipIdx.foldlM (fun grouped (key, position) => do
    return Scatter.add grouped (← resolve key.key) (position, key)) []

/-- `cursor.partition(":")`; `none` stands for a missing separator. -/
def partitionCursor (cursor : Str) : Option (Str × Str) :=
  match cursor.dropWhile (· ≠ shardCursorSeparator) with
  | [] => none
  | _ :: rest => some (cursor.takeWhile (· ≠ shardCursorSeparator), rest)

def parseShardCursor (cursor : Str) (shardCount : ℕ) : Except Exc (ℕ × Str) :=
  if cursor = [] ∨ cursor = scanCursorInitial then .ok (0, scanCursorInitial)
  else
    match partitionCursor cursor with
    | none => .error (.corruptedResponse (.malformedShardCursor cursor))
    | some (shard, shardCursor) =>
      if shardCursor = [] ∨ ¬ isDigit shard then
        .error (.corruptedResponse (.malformedShardCursor cursor))
      else do
        let index ← strToInt shard
        if shardCount ≤ index then
          .error (.corruptedResponse (.shardCursorOutOfRange index shardCount))
        else .ok (index, shardCursor)

def makeShardCursor (shardIndex : ℕ) (shardCursor : Str) (shardCount : ℕ) : Except Exc Str :=
  if shardCount ≤ shardIndex then .ok scanCursorInitial
  else do return (← intToStr shardIndex) ++ shardCursorSeparator :: shardCursor

/-! ## Routing -/

theorem resolveShard_ok {key : Str} {shardCount : ℕ} {f : ShardingFunc}
    (h : 0 ≤ f key shardCount ∧ f key shardCount < shardCount) :
    resolveShard key shardCount f = .ok (f key shardCount).toNat := by
  unfold resolveShard
  exact if_neg (by omega)

theorem resolveShard_error {key : Str} {shardCount : ℕ} {f : ShardingFunc}
    (h : ¬ (0 ≤ f key shardCount ∧ f key shardCount < shardCount)) : resolveShard key shardCount f =
      raiseAbout (f key shardCount) (.shardIndexError (f key shardCount) shardCount) := by
  unfold resolveShard
  exact if_pos (by omega)

/-- When every key has a shard, the groups are the parts of the keys, tagged with positions. -/
theorem groupByShard_ok {keys : List CappingKey} {resolve : Str → Except Exc ℕ} {shardOf : Str → ℕ}
    (h : ∀ key ∈ keys, resolve key.key = .ok (shardOf key.key)) :
    groupByShard keys resolve =
      .ok (Scatter.group (keys.zipIdx.map fun kp => (shardOf kp.1.key, kp.2, kp.1))) := by
  have hfold : ∀ (items : List (CappingKey × ℕ)) (grouped : List (ℕ × List (ℕ × CappingKey))),
      (∀ kp ∈ items, resolve kp.1.key = .ok (shardOf kp.1.key)) →
      items.foldlM (fun grouped (key, position) => do
        return Scatter.add grouped (← resolve key.key) (position, key)) grouped =
      (.ok ((items.map fun kp => (shardOf kp.1.key, kp.2, kp.1)).foldl
        (fun groups i => Scatter.add groups i.1 i.2) grouped) : Except Exc _) := by
    intro items
    induction items with
    | nil => intro grouped _; rfl
    | cons kp items ih =>
      intro grouped hi
      obtain ⟨key, position⟩ := kp
      have hkey : resolve key.key = .ok (shardOf key.key) := hi _ List.mem_cons_self
      simp only [List.foldlM_cons, hkey]
      exact ih _ fun kp' hkp' => hi kp' (List.mem_cons_of_mem _ hkp')
  exact hfold keys.zipIdx [] fun kp hkp => h kp.1 (List.fst_mem_of_mem_zipIdx hkp)

/-! ## Cursors -/

theorem separator_not_mem_toDigits (n : ℕ) : shardCursorSeparator ∉ Nat.toDigits 10 n :=
  not_mem_toDigits (by decide) n

theorem partitionCursor_append {shard rest : Str} (h : shardCursorSeparator ∉ shard) :
    partitionCursor (shard ++ shardCursorSeparator :: rest) = some (shard, rest) := by
  have hall : ∀ c ∈ shard, decide (c ≠ shardCursorSeparator) = true := by
    intro c hc
    exact decide_eq_true fun e => h (e ▸ hc)
  unfold partitionCursor
  rw [List.dropWhile_append_of_pos hall, List.takeWhile_append_of_pos hall]
  simp

/-- A cursor is made of the digits of its shard. -/
theorem digits_of_makeShardCursor {shardIndex shardCount : ℕ} {shardCursor cursor : Str}
    (hindex : shardIndex < shardCount) (h : makeShardCursor shardIndex shardCursor
      shardCount = .ok cursor) :
    shardIndex < 10 ^ intMaxStrDigits ∧
      cursor = Nat.toDigits 10 shardIndex ++ shardCursorSeparator :: shardCursor := by
  unfold makeShardCursor at h
  rw [if_neg (not_le.mpr hindex)] at h
  by_cases hlt : shardIndex < 10 ^ intMaxStrDigits
  · rw [intToStr_of_lt hlt] at h
    exact ⟨hlt, (Except.ok.inj h).symm⟩
  · have hraises : intToStr shardIndex = .error .valueError := intToStr_of_le (not_lt.mp hlt)
    rw [hraises] at h
    cases h

theorem parseShardCursor_digits {shardIndex shardCount : ℕ} {shardCursor : Str}
    (hindex : shardIndex < shardCount) (hlt : shardIndex < 10 ^ intMaxStrDigits)
    (hcursor : shardCursor ≠ []) :
    parseShardCursor (Nat.toDigits 10 shardIndex ++ shardCursorSeparator :: shardCursor) shardCount =
      .ok (shardIndex, shardCursor) := by
  have hinitial : ¬ (Nat.toDigits 10 shardIndex ++ shardCursorSeparator :: shardCursor = [] ∨
      Nat.toDigits 10 shardIndex ++ shardCursorSeparator :: shardCursor = scanCursorInitial) := by
    rintro (h | h)
    · simp at h
    · have hmem : shardCursorSeparator ∈ scanCursorInitial := h ▸ List.mem_append_right _
        List.mem_cons_self
      exact absurd hmem (by decide)
  unfold parseShardCursor
  rw [if_neg hinitial, partitionCursor_append (separator_not_mem_toDigits _)]
  simp only [hcursor, isDigit_toDigits, not_true_eq_false, or_self, if_false, strToInt_toDigits hlt]
  exact if_neg (not_le.mpr hindex)

/-- A made cursor holds the separator, so it is neither `''` nor `'0'`. -/
theorem makeShardCursor_ne {shardIndex shardCount : ℕ} {shardCursor cursor : Str}
    (hindex : shardIndex < shardCount) (h : makeShardCursor shardIndex shardCursor
      shardCount = .ok cursor) :
    cursor ≠ [] ∧ cursor ≠ scanCursorInitial := by
  have hsep : shardCursorSeparator ∈ cursor := by
    rw [(digits_of_makeShardCursor hindex h).2]
    exact List.mem_append_right _ List.mem_cons_self
  constructor
  · intro e
    rw [e] at hsep
    exact absurd hsep List.not_mem_nil
  · intro e
    rw [e] at hsep
    exact absurd hsep (by decide)

/-- A made cursor is never `'0'`, and reads back as what it was made of. -/
theorem parseShardCursor_make {shardIndex shardCount : ℕ} {shardCursor cursor : Str}
    (hindex : shardIndex < shardCount) (hcursor : shardCursor ≠ [])
    (h : makeShardCursor shardIndex shardCursor shardCount = .ok cursor) :
    cursor ≠ scanCursorInitial ∧ parseShardCursor cursor shardCount = .ok
      (shardIndex, shardCursor) := by
  obtain ⟨hlt, hmade⟩ := digits_of_makeShardCursor hindex h
  refine ⟨(makeShardCursor_ne hindex h).2, ?_⟩
  rw [hmade]
  exact parseShardCursor_digits hindex hlt hcursor

theorem makeShardCursor_ok {shardCount : ℕ} (shardIndex : ℕ) (shardCursor : Str)
    (hcount : shardCount ≤ 10 ^ intMaxStrDigits) :
    ∃ cursor, makeShardCursor shardIndex shardCursor shardCount = .ok cursor := by
  unfold makeShardCursor
  split
  · exact ⟨_, rfl⟩
  · rename_i h
    rw [intToStr_of_lt (lt_of_lt_of_le (not_le.mp h) hcount)]
    exact ⟨_, rfl⟩

end FqClient
