import FqClient.Effects.Timeouts
import FqClient.ShardedDeletes
import FqClient.ShardedScan

namespace FqClient.ShardedTimeouts

open Effects ShardedDeletes

/-! ## The calls that go to several shards -/

inductive ShardedCall
  | mdelete (keys : List CappingKey)
  | page (kind : ScanKind) (count : ℤ) (cursor : Str)
  | flushdb
  | truncate
  | inspect (section' : InspectSection)

namespace ShardedCall

@[reducible] def Result : ShardedCall → Type
  | .mdelete _ => List Bool
  | .page _ _ _ => ScanResult
  | .flushdb | .truncate => Bool
  | .inspect _ => List InspectReport

def run (client : ShardedClient) (timeout : Timeout) : (call : ShardedCall) → ShardTask call.Result
  | .mdelete keys => client.mdelete keys timeout
  | .page kind count cursor => client.page kind count cursor timeout
  | .flushdb => client.flushdb timeout
  | .truncate => client.truncate timeout
  | .inspect section' => client.inspect section' timeout

/-- The call goes to one shard at most: its keys have one shard, or an index out of range; its page has no
shard after the one it starts at, or a count that is not positive, or a cursor that is not accepted. -/
def OneShard (client : ShardedClient) : ShardedCall → Prop
  | .mdelete keys => (∃ key ∈ keys, ¬ InRange client key) ∨ (shardsOf client keys).length ≤ 1
  | .page _ count cursor => ∀ position, parseShardCursor cursor client.shardCount = .ok position →
      count ≤ 0 ∨ client.shardCount ≤ position.1 + 1
  | .flushdb | .truncate | .inspect _ => client.shardCount ≤ 1

end ShardedCall

/-- The timeout that a shard's client is passed. -/
def timeoutOf : ShardOp → Timeout
  | .keyed _ _ timeout | .mdelete _ _ timeout | .scan _ _ _ timeout | .pscan _ _ _ _ timeout
  | .flushdb _ timeout | .truncate _ timeout | .inspect _ _ timeout => timeout

/-- A timeout in seconds, where the clients of the shards were constructed with their own. -/
def seconds (own : Option ℚ) : Timeout → Option ℚ
  | .default => own
  | .unlimited => none
  | .seconds value => some value

/-- Every call to a shard lasts at most the timeout it is passed. -/
def timed (own : Option ℚ) : World Shards ℚ := lasting fun op => seconds own (timeoutOf op)

instance (op : Shards.Op) : Nonempty (Shards.Ans op) := ⟨(.error .poolClosed : Except Exc _)⟩

/-! ## Every shard is passed the timeout of the call -/

section Passes
variable {client : ShardedClient} {timeout : Timeout}

def Passes (timeout : Timeout) {α : Type} (m : ShardTask α) : Prop :=
  m.Only (fun op => timeoutOf op = timeout) fun _ => True

theorem passes_callShard {op : ShardOp} (h : timeoutOf op = timeout) : Passes timeout (callShard op) :=
  fun _ => ⟨h, fun _ _ _ _ _ => trivial⟩

theorem passes_ofExcept {α : Type} (r : Except Exc α) :
    Passes timeout (Method.ofExcept r : ShardTask α) :=
  .ofExcept fun _ _ => trivial

theorem passes_eachShard {α : Type} {call : ℕ → ShardTask α}
    (hcall : ∀ index, Passes timeout (call index))
    (shards : List ℕ) : Passes timeout (ShardedClient.eachShard call shards) := by
  induction shards with
  | nil => exact .pure _
  | cons index shards ih => exact .bind (hcall index) fun _ => .bind ih fun _ => .pure _

theorem passes_mdeleteGroups (groups : List (ℕ × List (ℕ × CappingKey))) (results : List Bool) :
    Passes timeout (ShardedClient.mdeleteGroups timeout groups results) := by
  induction groups generalizing results with
  | nil => exact .pure _
  | cons group groups ih =>
    apply Method.Only.bind (passes_callShard rfl)
    exact fun _ => .ite (.throw trivial) (ih _)

theorem passes_walkShards (kind : ScanKind) (count : ℤ) (left index : ℕ) (shardCursor : Str)
    (keys : List ScanKey) : Passes timeout (client.walkShards count
      (fun index shardCursor remaining => kind.op timeout index shardCursor remaining) left index
      shardCursor keys) := by
  have hleave : ∀ {index : ℕ} {shardCursor : Str} {keys : List ScanKey}, Passes timeout (do
      return (⟨← Method.ofExcept (makeShardCursor index shardCursor client.shardCount), keys⟩ :
        ScanResult)) :=
    .bind (passes_ofExcept _) fun _ => .pure _
  induction left generalizing index shardCursor keys with
  | zero => exact hleave
  | succ left ih =>
    apply Method.Only.ite
    · apply Method.Only.bind
      · cases kind <;> exact passes_callShard rfl
      · exact fun _ => .ite hleave (ih _ _ _)
    · exact hleave

theorem passes_run (call : ShardedCall) : Passes timeout (call.run client timeout) := by
  cases call with
  | mdelete keys => exact .bind (passes_ofExcept _) fun _ => passes_mdeleteGroups _ _
  | page kind count cursor =>
    change Passes timeout (client.page kind count cursor timeout)
    rw [page_eq_walk]
    exact .bind (passes_ofExcept _) fun _ => passes_walkShards _ _ _ _ _ _
  | flushdb =>
    refine .bind (passes_eachShard ?_ _) fun _ => .pure _
    exact fun index => (passes_callShard rfl : Passes timeout (callShard (.flushdb index timeout)))
  | truncate =>
    refine .bind (passes_eachShard ?_ _) fun _ => .pure _
    exact fun index => (passes_callShard rfl : Passes timeout (callShard (.truncate index timeout)))
  | inspect section' =>
    apply passes_eachShard
    exact fun index => (passes_callShard rfl : Passes timeout
      (callShard (.inspect index section' timeout)))

end Passes

/-! ## How many shards a call goes to -/

section Spends
variable {client : ShardedClient} {timeout : Timeout} {α β : Type} {count : ℕ}

/-- The task calls at most so many shards. -/
def Spends (count : ℕ) (m : ShardTask α) : Prop := wpm spending m (fun _ _ _ => True) () count

theorem spends_pure (a : α) : Spends count (pure a : ShardTask α) := trivial

theorem spends_ofExcept (r : Except Exc α) : Spends count (Method.ofExcept r : ShardTask α) := by
  cases r <;> exact trivial

theorem spends_bind_of {m : ShardTask α} {f : α → ShardTask β} (hf : ∀ a count, Spends count (f a)) :
    Spends count (m >>= f) ↔ Spends count m := by
  unfold Spends
  rw [wpm_bind]
  constructor
  · exact fun h => wpm_mono h fun _ _ _ _ => trivial
  · intro h
    apply wpm_mono h
    intro r _ left _
    cases r with
    | ok a => exact hf a left
    | error e => trivial

/-- A task that calls one shard, and may get any answer. -/
structure OneCall (m : ShardTask α) : Prop where
  spends : ∀ {β : Type} {count : ℕ} (f : α → ShardTask β),
    Spends (count + 1) (m >>= f) ↔ ∀ a, Spends count (f a)
  needs : ∀ {β : Type} (f : α → ShardTask β), ¬ Spends 0 (m >>= f)

theorem oneCall_callShard (op : ShardOp) : OneCall (callShard op) where
  spends f := by
    constructor
    · exact fun h a => h.2 (.ok a) _ rfl
    · intro h
      refine ⟨Nat.succ_pos _, fun answer left hleft => ?_⟩
      rw [Nat.succ.inj hleft]
      cases answer with
      | ok a => exact h a
      | error e => trivial
  needs f h := absurd h.1 (Nat.lt_irrefl 0)

theorem oneCall_kindOp (kind : ScanKind) (index : ℕ) (cursor : Str) (remaining : ℤ) :
    OneCall (kind.op timeout index cursor remaining) := by
  cases kind
  · exact oneCall_callShard _
  · exact oneCall_callShard _

theorem spends_eachShard [Nonempty α] {call : ℕ → ShardTask α} (hcall : ∀ index, OneCall (call index))
    (shards : List ℕ) : Spends count (ShardedClient.eachShard call shards) ↔ shards.length ≤ count := by
  induction shards generalizing count with
  | nil => exact iff_of_true trivial (Nat.zero_le count)
  | cons index shards ih =>
    unfold ShardedClient.eachShard
    cases count with
    | zero => exact iff_of_false ((hcall index).needs _) (by simp)
    | succ count =>
      rw [(hcall index).spends]
      have hrest : ∀ a, Spends count (do
          return a :: (← ShardedClient.eachShard call shards)) ↔ shards.length ≤ count := by
        intro a
        rw [spends_bind_of fun _ _ => spends_pure _, ih]
      simp only [hrest, forall_const, List.length_cons, Nat.add_le_add_iff_right]

theorem spends_mdeleteGroups (groups : List (ℕ × List (ℕ × CappingKey))) (results : List Bool) :
    Spends count (ShardedClient.mdeleteGroups timeout groups results) ↔ groups.length ≤ count := by
  induction groups generalizing count results with
  | nil => exact iff_of_true trivial (Nat.zero_le count)
  | cons group groups ih =>
    unfold ShardedClient.mdeleteGroups
    cases count with
    | zero => exact iff_of_false ((oneCall_callShard _).needs _) (by simp)
    | succ count =>
      rw [(oneCall_callShard _).spends, List.length_cons, Nat.add_le_add_iff_right]
      constructor
      · intro h
        have hanswered := h (List.replicate group.2.length true)
        rw [if_neg (by simp), ih] at hanswered
        exact hanswered
      · intro h shardResults
        by_cases hlength : shardResults.length ≠ group.2.length
        · rw [if_pos hlength]
          trivial
        · rw [if_neg hlength, ih]
          exact h

theorem spends_leave {index : ℕ} {shardCursor : Str} {keys : List ScanKey} : Spends count (do
    return (⟨← Method.ofExcept (makeShardCursor index shardCursor client.shardCount), keys⟩ :
      ScanResult)) := by
  rw [spends_bind_of fun _ _ => spends_pure _]
  exact spends_ofExcept _

/-- A walk with a count to fill asks every shard that is left when their pages are empty. -/
theorem spends_walkShards (kind : ScanKind) (wanted : ℤ) (left index : ℕ) (shardCursor : Str)
    (keys : List ScanKey) : Spends count (client.walkShards wanted
      (fun index shardCursor remaining => kind.op timeout index shardCursor remaining) left index
      shardCursor keys) ↔ wanted ≤ keys.length ∨ left ≤ count := by
  induction left generalizing count index shardCursor keys with
  | zero => exact iff_of_true spends_leave (Or.inr (Nat.zero_le count))
  | succ left ih =>
    unfold ShardedClient.walkShards
    by_cases hmore : (keys.length : ℤ) < wanted
    · rw [if_pos hmore]
      cases count with
      | zero => exact iff_of_false ((oneCall_kindOp kind _ _ _).needs _) (by omega)
      | succ count =>
        rw [(oneCall_kindOp kind _ _ _).spends]
        constructor
        · intro h
          -- an empty page leaves the whole count to the shards behind it
          have hempty := h ⟨scanCursorInitial, []⟩
          rw [if_neg (by simp), ih] at hempty
          simp only [List.append_nil] at hempty
          omega
        · intro h page
          by_cases hcursor : page.cursor ≠ scanCursorInitial
          · rw [if_pos hcursor]
            exact spends_leave
          · rw [if_neg hcursor, ih]
            right
            omega
    · rw [if_neg hmore]
      exact iff_of_true spends_leave (Or.inl (not_lt.mp hmore))

theorem spends_run (timeout : Timeout) (call : ShardedCall) :
    Spends 1 (call.run client timeout) ↔ call.OneShard client := by
  have hshards : ∀ {α : Type} [Nonempty α] {each : ℕ → ShardTask α}, (∀ index, OneCall (each index)) →
      (Spends 1 (ShardedClient.eachShard each (List.range client.shardCount)) ↔
        client.shardCount ≤ 1) := by
    intro α _ each heach
    rw [spends_eachShard heach, List.length_range]
  cases call with
  | mdelete keys =>
    change Spends 1 (Method.ofExcept (groupByShard keys client.indexOf) >>= _) ↔ _ ∨ _
    by_cases hrange : ∀ key ∈ keys, InRange client key
    · rw [groups_of_inRange hrange]
      change Spends 1 (ShardedClient.mdeleteGroups timeout _ _) ↔ _
      rw [spends_mdeleteGroups, List.length_map]
      have hgood : ¬ ∃ key ∈ keys, ¬ InRange client key := by simpa using hrange
      simp [hgood]
    -- a key without a shard raises before anything is sent
    · have hbad : ∃ key ∈ keys, ¬ InRange client key := by simpa using hrange
      obtain ⟨e, herror⟩ := groupByShard_fails hbad
      rw [herror]
      exact iff_of_true trivial (Or.inl hbad)
  | page kind wanted cursor =>
    change Spends 1 (client.page kind wanted cursor timeout) ↔ ∀ position, _
    rw [page_eq_walk]
    unfold ShardedClient.walk
    cases hparse : parseShardCursor cursor client.shardCount with
    | error e => exact iff_of_true trivial fun _ h => by cases h
    | ok position =>
      change Spends 1 (client.walkShards _ _ _ _ _ _) ↔ _
      rw [spends_walkShards]
      simp only [Except.ok.injEq, List.length_nil, Nat.cast_zero, forall_eq']
      omega
  | flushdb =>
    change Spends 1 (ShardedClient.flushdb client timeout) ↔ _
    unfold ShardedClient.flushdb
    rw [spends_bind_of fun _ _ => spends_pure _]
    exact hshards fun index => oneCall_callShard _
  | truncate =>
    change Spends 1 (ShardedClient.truncate client timeout) ↔ _
    unfold ShardedClient.truncate
    rw [spends_bind_of fun _ _ => spends_pure _]
    exact hshards fun index => oneCall_callShard _
  | inspect section' =>
    have : Nonempty InspectReport := ⟨Inspect.report []⟩
    exact hshards fun index => oneCall_callShard (.inspect index section' timeout)

end Spends

/-- A sharded call with a finite timeout ends within it, however long the calls to its shards last within
the timeout they are passed, exactly when that is not negative, and is zero or the call goes to one shard
at most. -/
theorem sharded_call_within_timeout_iff (client : ShardedClient) (call : ShardedCall) (own : Option ℚ)
    (timeout : Timeout) {T : ℚ} (hfinite : seconds own timeout = some T) (start : ℚ) :
    (∀ r now, Reaches (timed own) (call.run client timeout (), start) (.pure r, now) →
      now ≤ start + T) ↔
      0 ≤ T ∧ (T = 0 ∨ call.OneShard client) := by
  have hpasses : wp (anything fun op => seconds own (timeoutOf op) = some T)
    (call.run client timeout ())
      (fun _ _ => True) () := by
    apply wp_anything_mono (P := fun op => timeoutOf op = timeout)
    · intro op hop
      rw [hop, hfinite]
    · exact wp_mono (passes_run call ()) fun _ _ _ => trivial
  rw [← spends_run timeout]
  exact ends_within_iff (total_of_anything hpasses) hpasses start

theorem flushed_within_timeout_iff :
    (∀ r now, Reaches (timed none) (ShardedCall.flushdb.run ShardedClient.twoShards (.seconds 1) (), 0)
      (.pure r, now) →
      now ≤ 0 + 1) ↔ (0 : ℚ) ≤ 1 ∧ ((1 : ℚ) = 0 ∨
        ShardedCall.flushdb.OneShard ShardedClient.twoShards) :=
  sharded_call_within_timeout_iff ShardedClient.twoShards .flushdb none (.seconds 1) rfl 0

/-- Two shards are flushed one after the other, and the call with one second lasts two. -/
theorem slow_shards_outlast_timeout : ¬ ∀ (client : ShardedClient) (call : ShardedCall)
    (own : Option ℚ) (timeout : Timeout) (T : ℚ), seconds own timeout = some T → 0 ≤ T → ∀ start r now,
    Reaches (timed own) (call.run client timeout (), start) (.pure r, now) → now ≤ start + T := by
  intro h
  have hslow : ∀ now index, (timed none).step now (ShardOp.flushdb index (.seconds 1))
      (.ok true) (now + 1) := by
    intro now index
    exact lasts_step zero_le_one rfl now
  have hrun : Reaches (timed none) (ShardedCall.flushdb.run ShardedClient.twoShards (.seconds 1) (), 0)
      (.pure (.ok true, ()), 0 + 1 + 1) :=
    .head (.call (hslow 0 0)) (.head (.call (hslow (0 + 1) 1)) .refl)
  have := h ShardedClient.twoShards .flushdb none (.seconds 1) 1 rfl zero_le_one 0 _ _ hrun
  norm_num at this

end FqClient.ShardedTimeouts
