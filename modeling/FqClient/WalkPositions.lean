import FqClient.Effects.Runs
import FqClient.ShardCursors

namespace FqClient.WalkPositions

open Effects

/-! ## Positions -/

/-- The position right after a page of shard `page.1` that ended with the cursor `page.2`. -/
def afterPage (page : ℕ × Str) : ℕ × Str :=
  if page.2 = scanCursorInitial then (page.1 + 1, scanCursorInitial) else page

/-- The position of a walk, given the last page it fetched. -/
def positionOf (start : ℕ × Str) : Option (ℕ × Str) → ℕ × Str
  | none => start
  | some page => afterPage page

/-- A returned cursor denotes a position: `'0'` the end of the walk, another one what it reads as. -/
def Denotes (shardCount : ℕ) (cursor : Str) (position : ℕ × Str) : Prop :=
  if shardCount ≤ position.1 then cursor = scanCursorInitial
  else cursor ≠ scanCursorInitial ∧ parseShardCursor cursor shardCount = .ok position

theorem denotes_end {shardCount : ℕ} {position : ℕ × Str} (h : shardCount ≤ position.1) :
    Denotes shardCount scanCursorInitial position := by
  simp [Denotes, h]

theorem parseShardCursor_empty {shardCount i : ℕ} {cursor : Str} (hi : i < shardCount)
    (h : makeShardCursor i [] shardCount = .ok cursor) (position : ℕ × Str) :
    parseShardCursor cursor shardCount ≠ .ok position := by
  obtain ⟨_, hmade⟩ := digits_of_makeShardCursor hi h
  unfold parseShardCursor
  rw [hmade, if_neg ShardCursors.not_initial, partitionCursor_append (separator_not_mem_toDigits _)]
  simp

/-- A made cursor denotes what it was made of, and that only when the cursor of the shard is not empty. -/
theorem denotes_made {shardCount i : ℕ} {c d cursor : Str} (hi : i < shardCount)
    (h : makeShardCursor i c shardCount = .ok cursor) :
    Denotes shardCount cursor (i, d) ↔ c ≠ [] ∧ c = d := by
  unfold Denotes
  rw [if_neg (not_le.mpr hi)]
  by_cases hc : c = []
  · rw [hc] at h
    simp [parseShardCursor_empty hi h, hc]
  · obtain ⟨hne, hparse⟩ := parseShardCursor_make hi hc h
    simp [hne, hparse, hc]

theorem lt_of_parseShardCursor {cursor : Str} {shardCount : ℕ} {position : ℕ × Str}
    (hpos : 0 < shardCount)
    (h : parseShardCursor cursor shardCount = .ok position) : position.1 < shardCount := by
  unfold parseShardCursor at h
  by_cases hinitial : cursor = [] ∨ cursor = scanCursorInitial
  · rw [if_pos hinitial] at h
    rw [← Except.ok.inj h]
    exact hpos
  · rw [if_neg hinitial] at h
    cases hsplit : partitionCursor cursor with
    | none => simp [hsplit] at h
    | some parts =>
      simp only [hsplit] at h
      by_cases hbad : parts.2 = [] ∨ ¬ isDigit parts.1 = true
      · rw [if_pos hbad] at h
        cases h
      · rw [if_neg hbad] at h
        cases hindex : strToInt parts.1 with
        | error e =>
          rw [hindex] at h
          cases h
        | ok index =>
          rw [hindex] at h
          change (if shardCount ≤ index then _ else _) = _ at h
          by_cases hrange : shardCount ≤ index
          · simp [hrange] at h
          · rw [if_neg hrange] at h
            rw [← Except.ok.inj h]
            exact not_le.mp hrange

/-! ## Walks over shards that answer anything -/

/-- The last page that was fetched. -/
abbrev Fetched := Option (ℕ × Str)

def Fetched.note (s : Fetched) (index : ℕ) : Except Exc ScanResult → Fetched
  | .ok page => some (index, page.cursor)
  | .error _ => s

/-- Shards that answer any page, or raise. -/
def paging : World Shards Fetched where
  permits _ _ := True
  step s
    | .scan index _ _ _ | .pscan index _ _ _ _ => fun answer s' => s' = s.note index answer
    | _ => fun _ s' => s' = s

/-- The condition: the count is positive or the walk starts at the start of a shard, and no page ends
with an empty cursor. -/
def Sound (count : ℤ) (start : ℕ × Str) (s : Fetched) : Prop :=
  (0 < count ∨ start.2 = scanCursorInitial) ∧ ∀ page, s = some page → page.2 ≠ []

/-- What a walk returns denotes the position after its last page exactly under the condition. -/
def Returns (shardCount : ℕ) (count : ℤ) (start : ℕ × Str) (r : Except Exc ScanResult)
    (s : Fetched) : Prop :=
  (∀ result, r = .ok result → Denotes shardCount result.cursor (positionOf start s)) ↔
    Sound count start s

/-- The walk at the head of its loop. -/
structure AtHead (count : ℤ) (start : ℕ × Str) (index : ℕ) (shardCursor : Str) (keys : List ScanKey)
    (s : Fetched) : Prop where
  position : positionOf start s = (index, shardCursor)
  fresh : s = none → keys = []
  later : s ≠ none → shardCursor = scanCursorInitial ∧ 0 < count ∧ ∀ page, s = some page → page.2 ≠ []

section Walk
variable (client : ShardedClient) {count : ℤ} {start : ℕ × Str} {s : Fetched}

theorem wpm_fetch (kind : ScanKind) (timeout : Timeout) (index : ℕ) (cursor : Str) (remaining : ℤ)
    {Q : Except Exc ScanResult → Unit → Fetched → Prop}
    (h : ∀ answer, Q answer () (s.note index answer)) :
    wpm paging (kind.op timeout index cursor remaining) Q () s := by
  cases kind with
  | scan => exact ⟨trivial, fun answer s' hs' => by rw [show s' = _ from hs']; exact h answer⟩
  | pscan pfx => exact ⟨trivial, fun answer s' hs' => by rw [show s' = _ from hs']; exact h answer⟩

/-- A walk that returns this cursor. -/
theorem returns_ok {cursor : Str} {keys : List ScanKey}
    (h : Denotes client.shardCount cursor (positionOf start s) ↔ Sound count start s) :
    Returns client.shardCount count start (.ok ⟨cursor, keys⟩) s := by
  unfold Returns
  rw [← h]
  simp

/-- A walk is left at the position after its last page, exactly under the condition. -/
theorem wpm_walk (kind : ScanKind) (timeout : Timeout) {cursor : Str}
    (haccepted : parseShardCursor cursor client.shardCount = .ok start) :
    wpm paging (client.page kind count cursor timeout)
      (fun r _ s' => Returns client.shardCount count start r s') () none := by
  have hstart := lt_of_parseShardCursor client.pos haccepted
  rw [page_eq_walk, ShardedClient.walk, wpm_bind, wpm_ofExcept, haccepted]
  refine wpm_walkShards (H := AtHead count start) client ?_ ?_ ?_ _ (by omega)
    ⟨rfl, fun _ => rfl, fun h => absurd rfl h⟩
  · intro shardCursor keys s hs
    -- the walk is past the last shard, so it has fetched a page
    have hne : s ≠ none := by
      intro e
      have hposition := hs.position
      rw [e] at hposition
      rw [show start = (client.shardCount, shardCursor) from hposition] at hstart
      omega
    obtain ⟨_, hcount, hpages⟩ := hs.later hne
    apply returns_ok
    rw [hs.position]
    exact iff_of_true (denotes_end le_rfl) ⟨Or.inl hcount, hpages⟩
  · intro index shardCursor keys s cursor hindex hlength hs hmade
    apply returns_ok
    rw [hs.position, denotes_made hindex hmade]
    cases s with
    | none =>
      have hcount : ¬ 0 < count := by
        have hkeys := hs.fresh rfl
        simpa [hkeys] using hlength
      rw [show start = (index, shardCursor) from hs.position]
      constructor
      · exact fun hcursor => ⟨Or.inr hcursor.2.symm, fun _ hpage => by cases hpage⟩
      · exact fun hsound => ⟨List.cons_ne_nil _ _, (hsound.1.resolve_left hcount).symm⟩
    | some page =>
      obtain ⟨hcursor, hcount, hpages⟩ := hs.later (by simp)
      rw [hcursor]
      exact iff_of_true ⟨List.cons_ne_nil _ _, rfl⟩ ⟨Or.inl hcount, hpages⟩
  · intro index shardCursor keys s hindex hmore hs
    have hcount : 0 < count := by omega
    apply wpm_fetch
    intro answer
    cases answer with
    | error e =>
      unfold Returns Sound
      simp only [reduceCtorEq, false_imp_iff, implies_true, true_iff]
      refine ⟨Or.inl hcount, fun page hpage => ?_⟩
      exact (hs.later (by rw [show s = some page from hpage]; simp)).2.2 page hpage
    | ok page =>
      constructor
      · intro hcursor
        refine ⟨?_, fun e => (by cases e), fun _ => ⟨rfl, hcount, fun fetched hfetched => ?_⟩⟩
        · simp [Fetched.note, positionOf, afterPage, hcursor]
        · rw [← Option.some.inj hfetched, hcursor]
          exact List.cons_ne_nil _ _
      · intro hcursor cursor hmade
        have hposition : positionOf start (s.note index (.ok page)) = (index, page.cursor) := by
          simp [Fetched.note, positionOf, afterPage, hcursor]
        apply returns_ok
        rw [hposition, denotes_made hindex hmade]
        simp [Sound, Fetched.note, hcount]

/-- The cursor that a page of a sharded scan returns denotes the position right after the last page it
fetched, or the one it was given when it fetched none, exactly when the count is positive or the cursor
points at the start of a shard, and no shard ends a page with an empty cursor. -/
theorem walk_position_iff (kind : ScanKind) (cursor : Str) (count : ℤ) (timeout : Timeout)
    (haccepted : parseShardCursor cursor client.shardCount = .ok start)
    {r : Except Exc ScanResult × Unit}
    {s' : Fetched} (hrun : Reaches paging (client.page kind count cursor timeout (), none)
      (.pure r, s')) :
    (∀ result, r.1 = .ok result → Denotes client.shardCount result.cursor (positionOf start s')) ↔
      (0 < count ∨ start.2 = scanCursorInitial) ∧ ∀ page, s' = some page → page.2 ≠ [] := by
  have hpage : wpm paging (client.page kind count cursor timeout)
      (fun r _ s' => Returns client.shardCount count start r s') () none := wpm_walk client
        kind timeout haccepted
  have hreturns := wp_result hpage hrun
  exact hreturns

end Walk

/-- Shards without keys. -/
def emptyPages (s : Fetched) : (op : ShardOp) → Except Exc op.Result × Fetched
  | .scan index _ _ _ => (.ok ⟨scanCursorInitial, []⟩, some (index, scanCursorInitial))
  | .pscan index _ _ _ _ => (.ok ⟨scanCursorInitial, []⟩, some (index, scanCursorInitial))
  | _ => (.error .poolClosed, s)

theorem paging_emptyPages (s : Fetched) (op : Shards.Op) :
    paging.step s op (emptyPages s op).1 (emptyPages s op).2 := by
  cases op <;> rfl

theorem reaches_moved : Reaches paging (ShardedClient.twoShards.page .scan 0 "1:abc".toList .default (), none)
    (.pure (.ok ⟨"1:0".toList, []⟩, ()), none) :=
  reaches_run paging_emptyPages (by decide +kernel)

theorem moved_position_iff :
    (∀ result, (.ok ⟨"1:0".toList, []⟩ : Except Exc ScanResult) = .ok result →
      Denotes 2 result.cursor (1, "abc".toList)) ↔
      ((0 : ℤ) < 0 ∨ "abc".toList = scanCursorInitial) ∧ ∀ page, (none : Fetched) = some page → page.2 ≠ [] :=
  walk_position_iff ShardedClient.twoShards .scan "1:abc".toList 0 .default
    (show parseShardCursor "1:abc".toList 2 = .ok (1, "abc".toList) by decide +kernel) reaches_moved

/-- A count of zero moves the cursor `1:abc` back to the start of its shard. -/
theorem zero_count_moves_back : ¬ ∀ r s', Reaches paging
    (ShardedClient.twoShards.page .scan 0 "1:abc".toList .default (), none) (.pure r, s') →
    ∀ result, r.1 = .ok result → Denotes 2 result.cursor (positionOf (1, "abc".toList) s') := by
  intro h
  have hdenotes := h _ _ reaches_moved _ rfl
  have hno : ¬ Denotes 2 "1:0".toList (1, "abc".toList) := by
    rw [denotes_made (c := scanCursorInitial) (by decide) (by decide +kernel)]
    decide
  exact hno hdenotes

end FqClient.WalkPositions
