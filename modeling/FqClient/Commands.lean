import FqClient.Text
import FqClient.Delimited

namespace FqClient

/-- A command payload and whether repeating it is safe. -/
structure Command where
  payload : Bytes
  readOnly : Bool
  deriving DecidableEq

/-- An argument of `_join`: what `str()` is applied to. -/
inductive Part
  | str (text : Str)
  | int (value : ℤ)

def Part.toStr : Part → Except Exc Str
  | .str text => .ok text
  | .int value => intToStr value

/-- A literal word of a command. -/
abbrev word (text : String) : Part := .str text.toList

namespace Commands

def join (parts : List Part) : Except Exc Bytes := do
  let texts ← parts.mapM Part.toStr
  return encodeUtf8 ([' '].intercalate texts)

def readOnly (parts : List Part) : Except Exc Command := do
  return ⟨← join parts, true⟩

def mutating (parts : List Part) : Except Exc Command := do
  return ⟨← join parts, false⟩

def checkValues (values : List ℤ) : Except Exc Unit :=
  match values.find? fun value => value < 0 ∨ maxValue < value with
  | some value => raiseAbout value (.valueOutOfRange value)
  | none => .ok ()

def hello (token : Option Str) : Except Exc Command :=
  match token with
  | some (c :: cs) => readOnly [word "HELLO", .int protocolVersion, word "AUTH", .str (c :: cs)]
  | _ => readOnly [word "HELLO", .int protocolVersion]

def incr (key : CappingKey) : Except Exc Command :=
  mutating [word "INCR", .str key.key, .int key.capping]

def incrby (key : CappingKey) (value : ℤ) : Except Exc Command := do
  checkValues [value]
  mutating [word "INCRBY", .str key.key, .int key.capping, .int value]

def get (key : CappingKey) : Except Exc Command :=
  readOnly [word "GET", .str key.key, .int key.capping]

def watch (key : CappingKey) : Except Exc Command :=
  readOnly [word "WATCH", .str key.key, .int key.capping]

def delete (key : CappingKey) : Except Exc Command :=
  mutating [word "DEL", .str key.key, .int key.capping]

def mdelete (keys : List CappingKey) : Except Exc Command :=
  mutating (word "MDEL" :: keys.flatMap fun key => [.str key.key, .int key.capping])

def rlimitFixedWindow (key : LimitKey) (limit : ℤ) : Except Exc Command := do
  checkValues [limit]
  mutating [word "RLIMIT", word "FW", .str key.key, .int limit, .int key.window]

def rlimitSlidingWindow (key : LimitKey) (limit : ℤ) : Except Exc Command := do
  checkValues [limit]
  mutating [word "RLIMIT", word "SW", .str key.key, .int limit, .int key.window]

def rlimitTokenBucket (key : LimitKey) (capacity refillAmount : ℤ) : Except Exc Command := do
  checkValues [capacity, refillAmount]
  mutating [word "RLIMIT", word "TB", .str key.key, .int capacity, .int refillAmount,
    .int key.window]

def quotaSet (name : Str) (limit : ℤ) : Except Exc Command := do
  checkValues [limit]
  mutating [word "QUOTA", word "SET", .str name, .int limit]

/-- `clients` is not checked. -/
def quotaSetN (name : Str) (limit clients : ℤ) : Except Exc Command := do
  checkValues [limit]
  mutating [word "QUOTA", word "SETN", .str name, .int limit, .int clients]

/-- The optional trailing `ttl`. -/
def ttlPart (ttl : Option ℤ) : List Part := (ttl.map Part.int).toList

def quotaAcquire (name : Str) (amount : ℤ) (clientId : Str) (ttl : Option ℤ) :
    Except Exc Command := do
  checkValues [amount]
  mutating ([word "QUOTA", word "ACQ", .str name, .int amount, .str clientId] ++ ttlPart ttl)

def quotaAcquireN (name clientId : Str) (ttl : Option ℤ) : Except Exc Command :=
  mutating ([word "QUOTA", word "ACQN", .str name, .str clientId] ++ ttlPart ttl)

def quotaAcquireLease (name : Str) (limit amount : ℤ) (clientId : Str) (ttl : Option ℤ) :
    Except Exc Command := do
  checkValues [limit, amount]
  mutating ([word "QUOTA", word "ACQL", .str name, .int limit, .int amount, .str clientId] ++
    ttlPart ttl)

def quotaRelease (name clientId : Str) : Except Exc Command :=
  mutating [word "QUOTA", word "REL", .str name, .str clientId]

def quotaDelete (name : Str) : Except Exc Command :=
  mutating [word "QUOTA", word "DEL", .str name]

def quotaInfo (name : Str) : Except Exc Command :=
  readOnly [word "QUOTA", word "INF", .str name]

/-- `cursor or SCAN_CURSOR_INITIAL`. -/
def cursorOrInitial (cursor : Str) : Str := if cursor = [] then scanCursorInitial else cursor

def scan (count : ℤ) (cursor : Str) : Except Exc Command :=
  readOnly [word "SCAN", .str (cursorOrInitial cursor), .int count]

def pscan (pfx : Str) (count : ℤ) (cursor : Str) : Except Exc Command :=
  readOnly [word "PSCAN", .str pfx, .str (cursorOrInitial cursor), .int count]

def flushdb : Except Exc Command := mutating [word "FLUSHDB"]

def truncate : Except Exc Command := mutating [word "TRUNCATE"]

def inspect (section' : InspectSection) : Except Exc Command :=
  if section' = .summary then readOnly [word "INSPECT"]
  else readOnly [word "INSPECT", .str section'.value]

def stream : Except Exc Command := readOnly [word "STREAM"]

def pstream (pfx : Str) : Except Exc Command := readOnly [word "PSTREAM", .str pfx]

def qstream : Except Exc Command := readOnly [word "QSTREAM"]

def qpstream (pfx : Str) : Except Exc Command := readOnly [word "QPSTREAM", .str pfx]

end Commands

/-! ## The encoders as one family -/

inductive Encoder
  | hello | incr | incrby | get | watch | delete | mdelete
  | rlimitFixedWindow | rlimitSlidingWindow | rlimitTokenBucket
  | quotaSet | quotaSetN | quotaAcquire | quotaAcquireN | quotaAcquireLease
  | quotaRelease | quotaDelete | quotaInfo
  | scan | pscan | flushdb | truncate | inspect
  | stream | pstream | qstream | qpstream
  deriving DecidableEq

def Encoder.all : List Encoder :=
  [.hello, .incr, .incrby, .get, .watch, .delete, .mdelete, .rlimitFixedWindow,
    .rlimitSlidingWindow, .rlimitTokenBucket, .quotaSet, .quotaSetN, .quotaAcquire, .quotaAcquireN,
    .quotaAcquireLease, .quotaRelease, .quotaDelete, .quotaInfo, .scan, .pscan, .flushdb,
    .truncate, .inspect, .stream, .pstream, .qstream, .qpstream]

theorem Encoder.mem_all (e : Encoder) : e ∈ Encoder.all := by
  cases e <;> decide

@[reducible] def Encoder.Args : Encoder → Type
  | .hello => Option Str
  | .incr | .get | .watch | .delete => CappingKey
  | .incrby => CappingKey × ℤ
  | .mdelete => List CappingKey
  | .rlimitFixedWindow | .rlimitSlidingWindow => LimitKey × ℤ
  | .rlimitTokenBucket => LimitKey × ℤ × ℤ
  | .quotaSet => Str × ℤ
  | .quotaSetN => Str × ℤ × ℤ
  | .quotaAcquire => Str × ℤ × Str × Option ℤ
  | .quotaAcquireN => Str × Str × Option ℤ
  | .quotaAcquireLease => Str × ℤ × ℤ × Str × Option ℤ
  | .quotaRelease => Str × Str
  | .quotaDelete | .quotaInfo | .pstream | .qpstream => Str
  | .scan => ℤ × Str
  | .pscan => Str × ℤ × Str
  | .inspect => InspectSection
  | .flushdb | .truncate | .stream | .qstream => Unit

/-- A call of an encoder: which one, and its arguments. -/
abbrev Call := (e : Encoder) × e.Args

def Encoder.encode : (e : Encoder) → e.Args → Except Exc Command
  | .hello, token => Commands.hello token
  | .incr, key => Commands.incr key
  | .incrby, (key, value) => Commands.incrby key value
  | .get, key => Commands.get key
  | .watch, key => Commands.watch key
  | .delete, key => Commands.delete key
  | .mdelete, keys => Commands.mdelete keys
  | .rlimitFixedWindow, (key, limit) => Commands.rlimitFixedWindow key limit
  | .rlimitSlidingWindow, (key, limit) => Commands.rlimitSlidingWindow key limit
  | .rlimitTokenBucket, (key, capacity, refill) => Commands.rlimitTokenBucket key capacity refill
  | .quotaSet, (name, limit) => Commands.quotaSet name limit
  | .quotaSetN, (name, limit, clients) => Commands.quotaSetN name limit clients
  | .quotaAcquire, (name, amount, clientId, ttl) => Commands.quotaAcquire name amount clientId ttl
  | .quotaAcquireN, (name, clientId, ttl) => Commands.quotaAcquireN name clientId ttl
  | .quotaAcquireLease, (name, limit, amount, clientId, ttl) =>
    Commands.quotaAcquireLease name limit amount clientId ttl
  | .quotaRelease, (name, clientId) => Commands.quotaRelease name clientId
  | .quotaDelete, name => Commands.quotaDelete name
  | .quotaInfo, name => Commands.quotaInfo name
  | .scan, (count, cursor) => Commands.scan count cursor
  | .pscan, (pfx, count, cursor) => Commands.pscan pfx count cursor
  | .flushdb, _ => Commands.flushdb
  | .truncate, _ => Commands.truncate
  | .inspect, section' => Commands.inspect section'
  | .stream, _ => Commands.stream
  | .pstream, pfx => Commands.pstream pfx
  | .qstream, _ => Commands.qstream
  | .qpstream, pfx => Commands.qpstream pfx

def Call.encode (c : Call) : Except Exc Command := c.1.encode c.2

example : (Commands.quotaAcquire "plan".toList 4 "c1".toList (some 30)).toOption.map (·.payload) =
    some (encodeUtf8 "QUOTA ACQ plan 4 c1 30".toList) := by decide

end FqClient
