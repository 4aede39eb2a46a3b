import FqClient.Effects.Method
import FqClient.Inspect
import FqClient.Reconnect
import FqClient.Sharding

namespace FqClient

open Effects

/-- The calls that one shard answers alone, picked by a counter key, a limiter key or a quota
name. -/
inductive KeyCall
  | incr (key : CappingKey)
  | incrby (key : CappingKey) (value : ℤ)
  | get (key : CappingKey)
  | watch (key : CappingKey)
  | delete (key : CappingKey)
  | rlimitFixedWindow (key : LimitKey) (limit : ℤ)
  | rlimitSlidingWindow (key : LimitKey) (limit : ℤ)
  | rlimitTokenBucket (key : LimitKey) (capacity refillAmount : ℤ)
  | quotaSet (name : Str) (limit : ℤ)
  | quotaSetN (name : Str) (limit clients : ℤ)
  | quotaAcquire (name : Str) (amount : ℤ) (clientId : Str) (ttl : Option ℤ)
  | quotaAcquireN (name clientId : Str) (ttl : Option ℤ)
  | quotaAcquireLease (name : Str) (limit amount : ℤ) (clientId : Str) (ttl : Option ℤ)
  | quotaRelease (name clientId : Str)
  | quotaDelete (name : Str)
  | quotaInfo (name : Str)
  deriving DecidableEq

namespace KeyCall

@[reducible] def Result : KeyCall → Type
  | .incr _ | .incrby _ _ | .get _ | .watch _ => ℕ
  | .delete _ | .quotaSet _ _ | .quotaSetN _ _ _ | .quotaRelease _ _ | .quotaDelete _ => Bool
  | .rlimitFixedWindow _ _ | .rlimitSlidingWindow _ _ | .rlimitTokenBucket _ _ _ => RateLimitResult
  | .quotaAcquire _ _ _ _ | .quotaAcquireN _ _ _ | .quotaAcquireLease _ _ _ _ _ =>
    QuotaAcquireResult
  | .quotaInfo _ => QuotaInfo

/-- The string that picks the shard. -/
def routingKey : KeyCall → Str
  | .incr key | .incrby key _ | .get key | .watch key | .delete key => key.key
  | .rlimitFixedWindow key _ | .rlimitSlidingWindow key _ | .rlimitTokenBucket key _ _ => key.key
  | .quotaSet name _ | .quotaSetN name _ _ | .quotaAcquire name _ _ _ | .quotaAcquireN name _ _
  | .quotaAcquireLease name _ _ _ _ | .quotaRelease name _ | .quotaDelete name
  | .quotaInfo name => name

end KeyCall

/-- The calls that the sharded client makes to the client of one shard. -/
inductive ShardOp
  | keyed (index : ℕ) (call : KeyCall) (timeout : Timeout)
  | mdelete (index : ℕ) (keys : List CappingKey) (timeout : Timeout)
  | scan (index : ℕ) (count : ℤ) (cursor : Str) (timeout : Timeout)
  | pscan (index : ℕ) (pfx : Str) (count : ℤ) (cursor : Str) (timeout : Timeout)
  | flushdb (index : ℕ) (timeout : Timeout)
  | truncate (index : ℕ) (timeout : Timeout)
  | inspect (index : ℕ) (section' : InspectSection) (timeout : Timeout)
  deriving DecidableEq

namespace ShardOp

@[reducible] def Result : ShardOp → Type
  | .keyed _ call _ => call.Result
  | .mdelete _ _ _ => List Bool
  | .scan _ _ _ _ | .pscan _ _ _ _ _ => ScanResult
  | .flushdb _ _ | .truncate _ _ => Bool
  | .inspect _ _ _ => InspectReport

end ShardOp

/-- The clients of the shards. -/
def Shards : Interface where
  Op := ShardOp
  Ans op := Except Exc op.Result

/-- What a sharded call does: calls to the shards, and a result or an exception. -/
abbrev ShardTask (α : Type) := Method Shards Unit Exc α

/-- Calls a shard's client and lets its exception through. -/
def callShard (op : ShardOp) : ShardTask op.Result := fun self =>
  .call op fun answer => .pure (answer, self)

/-- The routing state of `ShardedClient` and of `AsyncShardedClient`, whose methods below are the
same up to `await`. -/
structure ShardedClient where
  shardCount : ℕ
  shardingFunc : ShardingFunc
  pos : 0 < shardCount
  le_maxsize : shardCount ≤ sysMaxsize

namespace ShardedClient

/-- A client of two shards, for scripts. -/
def twoShards : ShardedClient := ⟨2, fnv1aShard, Nat.two_pos, two_le_maxsize⟩

variable (client : ShardedClient)

def indexOf (key : Str) : Except Exc ℕ := resolveShard key client.shardCount client.shardingFunc

/-- Every keyed method: the shard of the key answers. -/
def byKey (call : KeyCall) (timeout : Timeout) : ShardTask call.Result := do
  let index ← Method.ofExcept (client.indexOf call.routingKey)
  callShard (.keyed index call timeout)

def incr (key : CappingKey) (timeout : Timeout) : ShardTask ℕ :=
  client.byKey (.incr key) timeout

def incrby (key : CappingKey) (value : ℤ) (timeout : Timeout) : ShardTask ℕ :=
  client.byKey (.incrby key value) timeout

def get (key : CappingKey) (timeout : Timeout) : ShardTask ℕ :=
  client.byKey (.get key) timeout

def watch (key : CappingKey) (timeout : Timeout) : ShardTask ℕ :=
  client.byKey (.watch key) timeout

def delete (key : CappingKey) (timeout : Timeout) : ShardTask Bool :=
  client.byKey (.delete key) timeout

def rlimitFixedWindow (key : LimitKey) (limit : ℤ) (timeout : Timeout) :
    ShardTask RateLimitResult :=
  client.byKey (.rlimitFixedWindow key limit) timeout

def rlimitSlidingWindow (key : LimitKey) (limit : ℤ) (timeout : Timeout) :
    ShardTask RateLimitResult :=
  client.byKey (.rlimitSlidingWindow key limit) timeout

def rlimitTokenBucket (key : LimitKey) (capacity refillAmount : ℤ) (timeout : Timeout) :
    ShardTask RateLimitResult :=
  client.byKey (.rlimitTokenBucket key capacity refillAmount) timeout

def quotaSet (name : Str) (limit : ℤ) (timeout : Timeout) : ShardTask Bool :=
  client.byKey (.quotaSet name limit) timeout

def quotaSetN (name : Str) (limit clients : ℤ) (timeout : Timeout) : ShardTask Bool :=
  client.byKey (.quotaSetN name limit clients) timeout

def quotaAcquire (name : Str) (amount : ℤ) (clientId : Str) (ttl : Option ℤ) (timeout : Timeout) :
    ShardTask QuotaAcquireResult :=
  client.byKey (.quotaAcquire name amount clientId ttl) timeout

def quotaAcquireN (name clientId : Str) (ttl : Option ℤ) (timeout : Timeout) :
    ShardTask QuotaAcquireResult :=
  client.byKey (.quotaAcquireN name clientId ttl) timeout

def quotaAcquireLease (name : Str) (limit amount : ℤ) (clientId : Str) (ttl : Option ℤ)
    (timeout : Timeout) : ShardTask QuotaAcquireResult :=
  client.byKey (.quotaAcquireLease name limit amount clientId ttl) timeout

def quotaRelease (name clientId : Str) (timeout : Timeout) : ShardTask Bool :=
  client.byKey (.quotaRelease name clientId) timeout

def quotaDelete (name : Str) (timeout : Timeout) : ShardTask Bool :=
  client.byKey (.quotaDelete name) timeout

def quotaInfo (name : Str) (timeout : Timeout) : ShardTask QuotaInfo :=
  client.byKey (.quotaInfo name) timeout

/-- The loop of `mdelete` over the groups. -/
def mdeleteGroups (timeout : Timeout) :
    List (ℕ × List (ℕ × CappingKey)) → List Bool → ShardTask (List Bool)
  | [], results => return results
  | (index, indexedKeys) :: groups, results => do
    let shardResults ← callShard (.mdelete index (indexedKeys.map (·.2)) timeout)
    if shardResults.length ≠ indexedKeys.length then
      throw .valueError
    else
      mdeleteGroups timeout groups
        (Scatter.place ((indexedKeys.map (·.1)).zip shardResults) results)

def mdelete (keys : List CappingKey) (timeout : Timeout) : ShardTask (List Bool) := do
  let groups ← Method.ofExcept (groupByShard keys client.indexOf)
  mdeleteGroups timeout groups (List.replicate keys.length false)

/-- The `while` loop of `_walk`, `left` shards before the last one is past. -/
def walkShards (count : ℤ) (scanShard : ℕ → Str → ℤ → ShardTask ScanResult) :
    (left : ℕ) → (index : ℕ) → (shardCursor : Str) → (keys : List ScanKey) → ShardTask ScanResult
  | 0, index, _, keys => do
    return ⟨← Method.ofExcept (makeShardCursor index scanCursorInitial client.shardCount), keys⟩
  | left + 1, index, shardCursor, keys =>
    if (keys.length : ℤ) < count then do
      let page ← scanShard index shardCursor (count - keys.length)
      let keys := keys ++ page.keys
      if page.cursor ≠ scanCursorInitial then
        return ⟨← Method.ofExcept (makeShardCursor index page.cursor client.shardCount), keys⟩
      else
        walkShards count scanShard left (index + 1) scanCursorInitial keys
    else do
      return ⟨← Method.ofExcept (makeShardCursor index scanCursorInitial client.shardCount), keys⟩

def walk (cursor : Str) (count : ℤ) (scanShard : ℕ → Str → ℤ → ShardTask ScanResult) :
    ShardTask ScanResult := do
  let (index, shardCursor) ← Method.ofExcept (parseShardCursor cursor client.shardCount)
  client.walkShards count scanShard (client.shardCount - index) index shardCursor []

def scan (count : ℤ) (cursor : Str) (timeout : Timeout) : ShardTask ScanResult :=
  client.walk cursor count fun index shardCursor remaining =>
    callShard (.scan index remaining shardCursor timeout)

def pscan (pfx : Str) (count : ℤ) (cursor : Str) (timeout : Timeout) : ShardTask ScanResult :=
  client.walk cursor count fun index shardCursor remaining =>
    callShard (.pscan index pfx remaining shardCursor timeout)

/-- `[call(shard) for shard in shards]`. -/
def eachShard {α : Type} (call : ℕ → ShardTask α) : List ℕ → ShardTask (List α)
  | [] => return []
  | index :: shards => do
    let answer ← call index
    return answer :: (← eachShard call shards)

def flushdb (timeout : Timeout) : ShardTask Bool := do
  let results ← eachShard (fun index => callShard (.flushdb index timeout))
    (List.range client.shardCount)
  return results.all id

def truncate (timeout : Timeout) : ShardTask Bool := do
  let results ← eachShard (fun index => callShard (.truncate index timeout))
    (List.range client.shardCount)
  return results.all id

def inspect (section' : InspectSection) (timeout : Timeout) : ShardTask (List InspectReport) :=
  eachShard (fun index => callShard (.inspect index section' timeout)) (List.range client.shardCount)

end ShardedClient

end FqClient
