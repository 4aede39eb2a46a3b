import FqClient.Chunked

namespace FqClient

/-- What `json.loads` returns. A number with a fraction or an exponent is its binary64. -/
inductive Json
  | null
  | bool (value : Bool)
  | int (value : ℤ)
  | float (bits : UInt64)
  | str (value : Str)
  | list (items : List Json)
  | dict (members : List (Str × Json))

/-- How `json.loads` fails: on text that is not JSON, and on JSON nested too deep. -/
inductive LoadFault
  | valueError
  | recursionError
  deriving DecidableEq

namespace Json

abbrev Dict := List (Str × Json)

/-- `raw.get(key, default)`. -/
def get (raw : Dict) (key : String) (absent : Json) : Json := (raw.lookup key.toList).getD absent

/-- `raw.get(key)`. -/
def get? (raw : Dict) (key : String) : Json := get raw key null

/-- `value or {}` keeps a value that is true. -/
def truthy : Json → Bool
  | null => false
  | bool value => value
  | int value => value ≠ 0
  | float bits => bits ≠ 0 ∧ bits ≠ 0x8000000000000000
  | str value => value ≠ []
  | list items => !items.isEmpty
  | dict members => !members.isEmpty

def zero : Json := int 0

def zeroFloat : Json := float 0

def empty : Json := str []

def no : Json := bool false

end Json

/-! Decoding is lenient: a field holds whatever value the report has for it. -/

structure InstanceInfo where
  version : Json
  commit : Json
  buildDate : Json
  goVersion : Json
  platform : Json
  uptimeSec : Json
  pid : Json
  role : Json
  replicaId : Json
  listenAddr : Json
  connections : Json

structure PersistenceInfo where
  mode : Json
  syncCommit : Json

structure WALInfo where
  enabled : Json
  syncCommit : Json
  dataDirectory : Json
  queueDepth : Json
  queueCapacity : Json
  lsnAssigned : Json
  lsnFlushed : Json
  segmentPath : Json
  segmentSizeBytes : Json
  lastFlushAt : Json
  lastFlushDurationMs : Json
  flushAvgDurationMs : Json
  flushTotal : Json

structure DumpInfo where
  enabled : Json
  directory : Json
  intervalSec : Json
  lastDumpAt : Json
  lastDumpDurationMs : Json
  lastDumpError : Json
  lastDumpTx : Json
  currentDumpPath : Json
  currentDumpSizeBytes : Json
  nextDumpAt : Json

structure ReplicaInfo where
  replicaId : Json
  lastSegmentName : Json
  lastAppliedLsn : Json
  lagLsn : Json
  lagSec : Json
  stale : Json
  updatedAt : Json

structure SlaveInfo where
  masterAddress : Json
  connected : Json
  lastSegmentName : Json
  lastAppliedLsn : Json
  consecutiveErrors : Json
  reconnectTotal : Json
  lastReconnectAt : Json
  updatedAt : Json

structure ReplInfo where
  role : Json
  knownReplicas : Json
  replicas : List ReplicaInfo
  slave : Option SlaveInfo
  truncated : Json

structure PartitionStat where
  index : Json
  counters : Json
  slidingWindows : Json
  tokenBuckets : Json
  quotas : Json
  quotaAllocations : Json

structure EngineInfo where
  partitions : Json
  counters : Json
  slidingWindows : Json
  tokenBuckets : Json
  quotas : Json
  quotaAllocations : Json
  keyIndexEnabled : Json
  perPartition : List PartitionStat

structure SubscriberInfo where
  prefixed : Json
  queueLen : Json
  queueCap : Json
  dropped : Json

structure StreamsInfo where
  limitSubscribers : List SubscriberInfo
  quotaSubscribers : List SubscriberInfo
  limitEventsDroppedTotal : Json
  quotaEventsDroppedTotal : Json

structure InspectWarning where
  code : Json
  severity : Json
  message : Json
  details : Json

structure InspectReport where
  section_ : Json
  ts : Json
  instance_ : Option InstanceInfo
  persistence : Option PersistenceInfo
  wal : Option WALInfo
  dump : Option DumpInfo
  repl : Option ReplInfo
  engine : Option EngineInfo
  streams : Option StreamsInfo
  warnings : List InspectWarning

namespace Inspect

open Json

def sectionOf (raw : Dict) (key : String) : Option Dict :=
  match get? raw key with
  | dict members => some members
  | _ => none

def items (raw : Dict) (key : String) : List Dict :=
  match get? raw key with
  | list values => values.filterMap fun
    | dict members => some members
    | _ => none
  | _ => []

def instanceInfo (raw : Dict) : InstanceInfo where
  version := get raw "version" empty
  commit := get raw "commit" empty
  buildDate := get raw "build_date" empty
  goVersion := get raw "go_version" empty
  platform := get raw "platform" empty
  uptimeSec := get raw "uptime_sec" zeroFloat
  pid := get raw "pid" zero
  role := get raw "role" empty
  replicaId := get? raw "replica_id"
  listenAddr := get raw "listen_addr" empty
  connections := get raw "connections" zero

def persistence (raw : Dict) : PersistenceInfo where
  mode := get raw "mode" empty
  syncCommit := get? raw "sync_commit"

def wal (raw : Dict) : WALInfo where
  enabled := get raw "enabled" no
  syncCommit := get? raw "sync_commit"
  dataDirectory := get? raw "data_directory"
  queueDepth := get? raw "queue_depth"
  queueCapacity := get? raw "queue_capacity"
  lsnAssigned := get raw "lsn_assigned" zero
  lsnFlushed := get? raw "lsn_flushed"
  segmentPath := get? raw "segment_path"
  segmentSizeBytes := get? raw "segment_size_bytes"
  lastFlushAt := get? raw "last_flush_at"
  lastFlushDurationMs := get? raw "last_flush_duration_ms"
  flushAvgDurationMs := get? raw "flush_avg_duration_ms"
  flushTotal := get? raw "flush_total"

def dump (raw : Dict) : DumpInfo where
  enabled := get raw "enabled" no
  directory := get? raw "directory"
  intervalSec := get? raw "interval_sec"
  lastDumpAt := get? raw "last_dump_at"
  lastDumpDurationMs := get? raw "last_dump_duration_ms"
  lastDumpError := get? raw "last_dump_error"
  lastDumpTx := get? raw "last_dump_tx"
  currentDumpPath := get? raw "current_dump_path"
  currentDumpSizeBytes := get? raw "current_dump_size_bytes"
  nextDumpAt := get? raw "next_dump_at"

def slave (raw : Dict) : SlaveInfo where
  masterAddress := get raw "master_address" empty
  connected := get raw "connected" no
  lastSegmentName := get raw "last_segment_name" empty
  lastAppliedLsn := get raw "last_applied_lsn" zero
  consecutiveErrors := get raw "consecutive_errors" zero
  reconnectTotal := get raw "reconnect_total" zero
  lastReconnectAt := get? raw "last_reconnect_at"
  updatedAt := get raw "updated_at" zero

def replica (item : Dict) : ReplicaInfo where
  replicaId := get item "replica_id" empty
  lastSegmentName := get item "last_segment_name" empty
  lastAppliedLsn := get item "last_applied_lsn" zero
  lagLsn := get item "lag_lsn" zero
  lagSec := get item "lag_sec" zeroFloat
  stale := get item "stale" no
  updatedAt := get item "updated_at" zero

def repl (raw : Dict) : ReplInfo where
  role := get raw "role" empty
  knownReplicas := get raw "known_replicas" zero
  replicas := (items raw "replicas").map replica
  slave := (sectionOf raw "slave").map slave
  truncated := get raw "truncated" no

def partitionStat (item : Dict) : PartitionStat where
  index := get item "index" zero
  counters := get item "counters" zero
  slidingWindows := get item "sliding_windows" zero
  tokenBuckets := get item "token_buckets" zero
  quotas := get item "quotas" zero
  quotaAllocations := get item "quota_allocations" zero

def engine (raw : Dict) : EngineInfo where
  partitions := get raw "partitions" zero
  counters := get raw "counters" zero
  slidingWindows := get raw "sliding_windows" zero
  tokenBuckets := get raw "token_buckets" zero
  quotas := get raw "quotas" zero
  quotaAllocations := get raw "quota_allocations" zero
  keyIndexEnabled := get raw "key_index_enabled" no
  perPartition := (items raw "per_partition").map partitionStat

def subscriber (item : Dict) : SubscriberInfo where
  prefixed := get? item "prefix"
  queueLen := get item "queue_len" zero
  queueCap := get item "queue_cap" zero
  dropped := get item "dropped" zero

def streams (raw : Dict) : StreamsInfo where
  limitSubscribers := (items raw "limit_subscribers").map subscriber
  quotaSubscribers := (items raw "quota_subscribers").map subscriber
  limitEventsDroppedTotal := get raw "limit_events_dropped_total" zero
  quotaEventsDroppedTotal := get raw "quota_events_dropped_total" zero

def warning (item : Dict) : InspectWarning where
  code := get item "code" empty
  severity := get item "severity" empty
  message := get item "message" empty
  details := if (get? item "details").truthy then get? item "details" else dict []

def report (raw : Dict) : InspectReport where
  section_ := get raw "section" empty
  ts := get raw "ts" zero
  instance_ := (sectionOf raw "instance").map instanceInfo
  persistence := (sectionOf raw "persistence").map persistence
  wal := (sectionOf raw "wal").map wal
  dump := (sectionOf raw "dump").map dump
  repl := (sectionOf raw "repl").map repl
  engine := (sectionOf raw "engine").map engine
  streams := (sectionOf raw "streams").map streams
  warnings := (items raw "warnings").map warning

end Inspect

/-- Decodes the response of the INSPECT command; `loads` is `json.loads`. -/
def parseInspect (loads : Bytes → Except LoadFault Json) (payload : Bytes) :
    Except Exc InspectReport := do
  match loads (← okData payload) with
  | .error .valueError => throw (.corruptedResponse .inspectNotJson)
  | .error .recursionError => throw .recursionError
  | .ok (.dict raw) => return Inspect.report raw
  | .ok _ => throw (.corruptedResponse .inspectNotObject)

section Decoding
variable {loads : Bytes → Except LoadFault Json} {payload data : Bytes}

theorem parseInspect_valueError (hok : okData payload = .ok data)
    (h : loads data = .error .valueError) :
    parseInspect loads payload = .error (.corruptedResponse .inspectNotJson) := by
  unfold parseInspect
  simp only [hok, h, bind, Except.bind]
  rfl

theorem parseInspect_recursionError (hok : okData payload = .ok data)
    (h : loads data = .error .recursionError) :
    parseInspect loads payload = .error .recursionError := by
  unfold parseInspect
  simp only [hok, h, bind, Except.bind]
  rfl

theorem parseInspect_dict {raw : Json.Dict} (hok : okData payload = .ok data)
    (h : loads data = .ok (.dict raw)) : parseInspect loads payload = .ok (Inspect.report raw) := by
  unfold parseInspect
  simp only [hok, h, bind, Except.bind]
  rfl

theorem parseInspect_other {value : Json} (hok : okData payload = .ok data) (h : loads data = .ok value)
    (hvalue : ∀ raw, value ≠ .dict raw) :
    parseInspect loads payload = .error (.corruptedResponse .inspectNotObject) := by
  unfold parseInspect
  simp only [hok, h, bind, Except.bind]
  cases value with
  | dict raw => exact absurd rfl (hvalue raw)
  | _ => rfl

end Decoding

end FqClient
