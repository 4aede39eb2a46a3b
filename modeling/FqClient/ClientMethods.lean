import FqClient.DeletedKeys
import FqClient.ShardedClient

namespace FqClient

open Effects

/-! ## The public methods of a client -/

namespace Transport

variable (t : Transport) (config : ClientConfig) (rounds : ℕ)

/-- Encodes the command, then has it executed and its response parsed. -/
def method {α : Type} (command : Except Exc Command) (parse : Bytes → Except Exc α)
    (timeout : Timeout) : ClientM α := do
  let command ← Method.ofExcept command
  t.execute config rounds command parse timeout

def incr (key : CappingKey) (timeout : Timeout) : ClientM ℕ :=
  t.method config rounds (Commands.incr key) (parseValue ·) timeout

def incrby (key : CappingKey) (value : ℤ) (timeout : Timeout) : ClientM ℕ :=
  t.method config rounds (Commands.incrby key value) (parseValue ·) timeout

def get (key : CappingKey) (timeout : Timeout) : ClientM ℕ :=
  t.method config rounds (Commands.get key) (parseValue ·) timeout

def watch (key : CappingKey) (timeout : Timeout) : ClientM ℕ :=
  t.method config rounds (Commands.watch key) (parseValue ·) timeout

def delete (key : CappingKey) (timeout : Timeout) : ClientM Bool :=
  t.method config rounds (Commands.delete key) (parseBool ·) timeout

def rlimitFixedWindow (key : LimitKey) (limit : ℤ) (timeout : Timeout) : ClientM RateLimitResult :=
  t.method config rounds (Commands.rlimitFixedWindow key limit) (parseRateLimit ·) timeout

def rlimitSlidingWindow (key : LimitKey) (limit : ℤ) (timeout : Timeout) :
    ClientM RateLimitResult :=
  t.method config rounds (Commands.rlimitSlidingWindow key limit) (parseRateLimit ·) timeout

def rlimitTokenBucket (key : LimitKey) (capacity refillAmount : ℤ) (timeout : Timeout) :
    ClientM RateLimitResult :=
  t.method config rounds (Commands.rlimitTokenBucket key capacity refillAmount) (parseRateLimit ·)
    timeout

def quotaSet (name : Str) (limit : ℤ) (timeout : Timeout) : ClientM Bool :=
  t.method config rounds (Commands.quotaSet name limit) (parseBool ·) timeout

def quotaSetN (name : Str) (limit clients : ℤ) (timeout : Timeout) : ClientM Bool :=
  t.method config rounds (Commands.quotaSetN name limit clients) (parseBool ·) timeout

def quotaAcquire (name : Str) (amount : ℤ) (clientId : Str) (ttl : Option ℤ) (timeout : Timeout) :
    ClientM QuotaAcquireResult :=
  t.method config rounds (Commands.quotaAcquire name amount clientId ttl) (parseQuotaAcquire ·)
    timeout

def quotaAcquireN (name clientId : Str) (ttl : Option ℤ) (timeout : Timeout) :
    ClientM QuotaAcquireResult :=
  t.method config rounds (Commands.quotaAcquireN name clientId ttl) (parseQuotaAcquire ·) timeout

def quotaAcquireLease (name : Str) (limit amount : ℤ) (clientId : Str) (ttl : Option ℤ)
    (timeout : Timeout) : ClientM QuotaAcquireResult :=
  t.method config rounds (Commands.quotaAcquireLease name limit amount clientId ttl)
    (parseQuotaAcquire ·) timeout

def quotaRelease (name clientId : Str) (timeout : Timeout) : ClientM Bool :=
  t.method config rounds (Commands.quotaRelease name clientId) (parseBool ·) timeout

def quotaDelete (name : Str) (timeout : Timeout) : ClientM Bool :=
  t.method config rounds (Commands.quotaDelete name) (parseBool ·) timeout

def quotaInfo (name : Str) (timeout : Timeout) : ClientM QuotaInfo :=
  t.method config rounds (Commands.quotaInfo name) (parseQuotaInfo ·) timeout

def scan (count : ℤ) (cursor : Str) (timeout : Timeout) : ClientM ScanResult :=
  t.method config rounds (Commands.scan count cursor) (parseScan ·) timeout

def pscan (pfx : Str) (count : ℤ) (cursor : Str) (timeout : Timeout) : ClientM ScanResult :=
  t.method config rounds (Commands.pscan pfx count cursor) (parseScan ·) timeout

def flushdb (timeout : Timeout) : ClientM Bool :=
  t.method config rounds Commands.flushdb (parseBool ·) timeout

def truncate (timeout : Timeout) : ClientM Bool :=
  t.method config rounds Commands.truncate (parseBool ·) timeout

/-- The one call whose response spans frames. -/
def inspect (loads : Bytes → Except LoadFault Json) (section' : InspectSection)
    (timeout : Timeout) : ClientM InspectReport := do
  let deadline ← config.deadline timeout
  let payload ← t.withConnection config.settings deadline (do
    let command ← Method.ofExcept (Commands.inspect section')
    t.withRetry config.reconnect command deadline (t.sendChunked rounds) rounds 0)
  Method.ofExcept (parseInspect loads payload)

end Transport

/-! ## The calls that one frame answers -/

inductive ClientCall
  | keyed (call : KeyCall)
  | mdelete (keys : List CappingKey)
  | scan (count : ℤ) (cursor : Str)
  | pscan (pfx : Str) (count : ℤ) (cursor : Str)
  | flushdb
  | truncate
  deriving DecidableEq

@[reducible] def ClientCall.Result : ClientCall → Type
  | .keyed call => call.Result
  | .mdelete _ => List Bool
  | .scan _ _ | .pscan _ _ _ => ScanResult
  | .flushdb | .truncate => Bool

def KeyCall.decEqResult : (call : KeyCall) → DecidableEq call.Result
  | .incr _ | .incrby _ _ | .get _ | .watch _ => inferInstanceAs (DecidableEq ℕ)
  | .delete _ | .quotaSet _ _ | .quotaSetN _ _ _ | .quotaRelease _ _ | .quotaDelete _ =>
    inferInstanceAs (DecidableEq Bool)
  | .rlimitFixedWindow _ _ | .rlimitSlidingWindow _ _ | .rlimitTokenBucket _ _ _ =>
    inferInstanceAs (DecidableEq RateLimitResult)
  | .quotaAcquire _ _ _ _ | .quotaAcquireN _ _ _ | .quotaAcquireLease _ _ _ _ _ =>
    inferInstanceAs (DecidableEq QuotaAcquireResult)
  | .quotaInfo _ => inferInstanceAs (DecidableEq QuotaInfo)

def ClientCall.decEqResult : (call : ClientCall) → DecidableEq call.Result
  | .keyed call => call.decEqResult
  | .mdelete _ => inferInstanceAs (DecidableEq (List Bool))
  | .scan _ _ | .pscan _ _ _ => inferInstanceAs (DecidableEq ScanResult)
  | .flushdb | .truncate => inferInstanceAs (DecidableEq Bool)

instance : DecidableEq ((call : ClientCall) × call.Result) :=
  @Sigma.instDecidableEqSigma _ _ _ ClientCall.decEqResult

/-- The call of an encoder that a method makes. -/
def KeyCall.encoded : KeyCall → Call
  | .incr key => ⟨.incr, key⟩
  | .incrby key value => ⟨.incrby, key, value⟩
  | .get key => ⟨.get, key⟩
  | .watch key => ⟨.watch, key⟩
  | .delete key => ⟨.delete, key⟩
  | .rlimitFixedWindow key limit => ⟨.rlimitFixedWindow, key, limit⟩
  | .rlimitSlidingWindow key limit => ⟨.rlimitSlidingWindow, key, limit⟩
  | .rlimitTokenBucket key capacity refillAmount => ⟨.rlimitTokenBucket, key, capacity, refillAmount⟩
  | .quotaSet name limit => ⟨.quotaSet, name, limit⟩
  | .quotaSetN name limit clients => ⟨.quotaSetN, name, limit, clients⟩
  | .quotaAcquire name amount clientId ttl => ⟨.quotaAcquire, name, amount, clientId, ttl⟩
  | .quotaAcquireN name clientId ttl => ⟨.quotaAcquireN, name, clientId, ttl⟩
  | .quotaAcquireLease name limit amount clientId ttl =>
    ⟨.quotaAcquireLease, name, limit, amount, clientId, ttl⟩
  | .quotaRelease name clientId => ⟨.quotaRelease, name, clientId⟩
  | .quotaDelete name => ⟨.quotaDelete, name⟩
  | .quotaInfo name => ⟨.quotaInfo, name⟩

def KeyCall.parse : (call : KeyCall) → Bytes → Except Exc call.Result
  | .incr _ | .incrby _ _ | .get _ | .watch _ => (parseValue ·)
  | .delete _ | .quotaSet _ _ | .quotaSetN _ _ _ | .quotaRelease _ _ | .quotaDelete _ =>
    (parseBool ·)
  | .rlimitFixedWindow _ _ | .rlimitSlidingWindow _ _ | .rlimitTokenBucket _ _ _ =>
    (parseRateLimit ·)
  | .quotaAcquire _ _ _ _ | .quotaAcquireN _ _ _ | .quotaAcquireLease _ _ _ _ _ =>
    (parseQuotaAcquire ·)
  | .quotaInfo _ => (parseQuotaInfo ·)

namespace ClientCall

def encoded : ClientCall → Call
  | .keyed call => call.encoded
  | .mdelete keys => ⟨.mdelete, keys⟩
  | .scan count cursor => ⟨.scan, count, cursor⟩
  | .pscan pfx count cursor => ⟨.pscan, pfx, count, cursor⟩
  | .flushdb => ⟨.flushdb, ()⟩
  | .truncate => ⟨.truncate, ()⟩

def parse : (call : ClientCall) → Bytes → Except Exc call.Result
  | .keyed call => call.parse
  | .mdelete _ => (parseBools ·)
  | .scan _ _ | .pscan _ _ _ => (parseScan ·)
  | .flushdb | .truncate => (parseBool ·)

end ClientCall

namespace Transport

variable (t : Transport) (config : ClientConfig) (rounds : ℕ) (timeout : Timeout)

/-- The method that a keyed call names. -/
def keyed : (call : KeyCall) → ClientM call.Result
  | .incr key => t.incr config rounds key timeout
  | .incrby key value => t.incrby config rounds key value timeout
  | .get key => t.get config rounds key timeout
  | .watch key => t.watch config rounds key timeout
  | .delete key => t.delete config rounds key timeout
  | .rlimitFixedWindow key limit => t.rlimitFixedWindow config rounds key limit timeout
  | .rlimitSlidingWindow key limit => t.rlimitSlidingWindow config rounds key limit timeout
  | .rlimitTokenBucket key capacity refillAmount =>
    t.rlimitTokenBucket config rounds key capacity refillAmount timeout
  | .quotaSet name limit => t.quotaSet config rounds name limit timeout
  | .quotaSetN name limit clients => t.quotaSetN config rounds name limit clients timeout
  | .quotaAcquire name amount clientId ttl =>
    t.quotaAcquire config rounds name amount clientId ttl timeout
  | .quotaAcquireN name clientId ttl => t.quotaAcquireN config rounds name clientId ttl timeout
  | .quotaAcquireLease name limit amount clientId ttl =>
    t.quotaAcquireLease config rounds name limit amount clientId ttl timeout
  | .quotaRelease name clientId => t.quotaRelease config rounds name clientId timeout
  | .quotaDelete name => t.quotaDelete config rounds name timeout
  | .quotaInfo name => t.quotaInfo config rounds name timeout

/-- The method that a call names. -/
def invoke : (call : ClientCall) → ClientM call.Result
  | .keyed call => t.keyed config rounds timeout call
  | .mdelete keys => t.mdelete config rounds keys timeout
  | .scan count cursor => t.scan config rounds count cursor timeout
  | .pscan pfx count cursor => t.pscan config rounds pfx count cursor timeout
  | .flushdb => t.flushdb config rounds timeout
  | .truncate => t.truncate config rounds timeout

theorem invoke_eq_method (call : ClientCall) :
    t.invoke config rounds timeout call =
      t.method config rounds call.encoded.encode call.parse timeout := by
  cases call with
  | keyed call => cases call <;> rfl
  | _ => rfl

end Transport

end FqClient
