import FqClient.Inspect
import Mathlib.Data.List.Forall2

namespace FqClient.TypedReports

open Json

/-! ## The types that the report's dataclasses declare -/

inductive Declared
  | str
  | int
  | float
  | bool
  | details
  | optional (type : Declared)
  deriving DecidableEq

namespace Declared

/-- An `int` is accepted for a `float`, and a `bool` for both, as it is by type checkers. -/
def HasType : Declared → Json → Prop
  | .str, .str _ => True
  | .int, .int _ | .int, .bool _ => True
  | .float, .float _ | .float, .int _ | .float, .bool _ => True
  | .bool, .bool _ => True
  | .details, .dict _ => True
  | .optional _, .null => True
  | .optional type, value => type.HasType value
  | _, _ => False

/-- What a field of the type holds where the report has no member for it. -/
def absent : Declared → Json
  | .str => Json.empty
  | .int => Json.zero
  | .float => Json.zeroFloat
  | .bool => Json.no
  | .details => .dict []
  | .optional _ => .null

@[simp] theorem hasType_absent (type : Declared) : type.HasType type.absent := by
  cases type <;> trivial

/-- Only a field that is declared optional may be `None`. -/
@[simp] theorem hasType_null (type : Declared) :
  type.HasType .null ↔ ∃ inner, type = .optional inner := by
  cases type <;> simp [HasType]

end Declared

/-- The fields of a dataclass, named as the members of the report that they are read from. -/
abbrev Members := List (String × Declared)

/-- The values of a record have the types of its fields. -/
def Typed (members : Members) (values : List Json) : Prop :=
  List.Forall₂ (fun m value => m.2.HasType value) members values

/-- The members that the report has, of those that are read, have the types of their fields. -/
def Conforms (members : Members) (raw : Dict) : Prop :=
  ∀ m ∈ members, ∀ value, raw.lookup m.1.toList = some value → m.2.HasType value

def read (members : Members) (raw : Dict) : List Json :=
  members.map fun m => Json.get raw m.1 m.2.absent

theorem hasType_get (raw : Dict) (key : String) (type : Declared) :
    type.HasType (Json.get raw key type.absent) ↔
    ∀ value, raw.lookup key.toList = some value → type.HasType value := by
  unfold Json.get
  cases raw.lookup key.toList <;> simp

/-- A record that is read from a report is well typed exactly when the report conforms. -/
theorem typed_read (members : Members) (raw : Dict) : Typed members (read members raw) ↔
    Conforms members raw := by
  unfold Typed read Conforms
  simp only [List.forall₂_map_right_iff, List.forall₂_same, hasType_get]

/-! ## The records, each with the fields that it declares -/

def instanceInfo : Members :=
  [("version", .str), ("commit", .str), ("build_date", .str), ("go_version", .str), ("platform", .str),
    ("uptime_sec", .float), ("pid", .int), ("role", .str), ("replica_id", .optional .str),
    ("listen_addr", .str), ("connections", .int)]

def persistenceInfo : Members := [("mode", .str), ("sync_commit", .optional .str)]

def walInfo : Members :=
  [("enabled", .bool), ("sync_commit", .optional .str), ("data_directory", .optional .str),
    ("queue_depth", .optional .int), ("queue_capacity", .optional .int), ("lsn_assigned", .int),
    ("lsn_flushed", .optional .int), ("segment_path", .optional .str), ("segment_size_bytes", .optional .int),
    ("last_flush_at", .optional .int), ("last_flush_duration_ms", .optional .float),
    ("flush_avg_duration_ms", .optional .float), ("flush_total", .optional .float)]

def dumpInfo : Members :=
  [("enabled", .bool), ("directory", .optional .str), ("interval_sec", .optional .float),
    ("last_dump_at", .optional .int), ("last_dump_duration_ms", .optional .float),
    ("last_dump_error", .optional .str), ("last_dump_tx", .optional .int),
    ("current_dump_path", .optional .str), ("current_dump_size_bytes", .optional .int),
    ("next_dump_at", .optional .int)]

def replicaInfo : Members :=
  [("replica_id", .str), ("last_segment_name", .str), ("last_applied_lsn", .int), ("lag_lsn", .int),
    ("lag_sec", .float), ("stale", .bool), ("updated_at", .int)]

def slaveInfo : Members :=
  [("master_address", .str), ("connected", .bool), ("last_segment_name", .str), ("last_applied_lsn", .int),
    ("consecutive_errors", .int), ("reconnect_total", .int), ("last_reconnect_at", .optional .int),
    ("updated_at", .int)]

/-- Besides its replicas and the state of a slave. -/
def replInfo : Members := [("role", .str), ("known_replicas", .int), ("truncated", .bool)]

def partitionStat : Members :=
  [("index", .int), ("counters", .int), ("sliding_windows", .int), ("token_buckets", .int), ("quotas", .int),
    ("quota_allocations", .int)]

/-- Besides its partitions. -/
def engineInfo : Members :=
  [("partitions", .int), ("counters", .int), ("sliding_windows", .int), ("token_buckets", .int),
    ("quotas", .int), ("quota_allocations", .int), ("key_index_enabled", .bool)]

def subscriberInfo : Members :=
  [("prefix", .optional .str), ("queue_len", .int), ("queue_cap", .int), ("dropped", .int)]

/-- Besides its subscribers. -/
def streamsInfo : Members := [("limit_events_dropped_total", .int), ("quota_events_dropped_total", .int)]

/-- Besides its details, which have a default of their own. -/
def inspectWarning : Members := [("code", .str), ("severity", .str), ("message", .str)]

/-- Besides its sections and its warnings. -/
def inspectReport : Members := [("section", .str), ("ts", .int)]

section Records

def InstanceTyped (info : InstanceInfo) : Prop := Typed instanceInfo
  [info.version, info.commit, info.buildDate, info.goVersion, info.platform, info.uptimeSec, info.pid,
    info.role, info.replicaId, info.listenAddr, info.connections]

def PersistenceTyped (info : PersistenceInfo) : Prop :=
  Typed persistenceInfo [info.mode, info.syncCommit]

def WalTyped (info : WALInfo) : Prop := Typed walInfo
  [info.enabled, info.syncCommit, info.dataDirectory, info.queueDepth, info.queueCapacity, info.lsnAssigned,
    info.lsnFlushed, info.segmentPath, info.segmentSizeBytes, info.lastFlushAt, info.lastFlushDurationMs,
    info.flushAvgDurationMs, info.flushTotal]

def DumpTyped (info : DumpInfo) : Prop := Typed dumpInfo
  [info.enabled, info.directory, info.intervalSec, info.lastDumpAt, info.lastDumpDurationMs,
    info.lastDumpError, info.lastDumpTx, info.currentDumpPath, info.currentDumpSizeBytes, info.nextDumpAt]

def ReplicaTyped (info : ReplicaInfo) : Prop := Typed replicaInfo
  [info.replicaId, info.lastSegmentName, info.lastAppliedLsn, info.lagLsn, info.lagSec, info.stale,
    info.updatedAt]

def SlaveTyped (info : SlaveInfo) : Prop := Typed slaveInfo
  [info.masterAddress, info.connected, info.lastSegmentName, info.lastAppliedLsn, info.consecutiveErrors,
    info.reconnectTotal, info.lastReconnectAt, info.updatedAt]

structure ReplTyped (info : ReplInfo) : Prop where
  own : Typed replInfo [info.role, info.knownReplicas, info.truncated]
  replicas : ∀ replica ∈ info.replicas, ReplicaTyped replica
  slave : ∀ slave ∈ info.slave, SlaveTyped slave

def PartitionTyped (stat : PartitionStat) : Prop := Typed partitionStat
  [stat.index, stat.counters, stat.slidingWindows, stat.tokenBuckets, stat.quotas, stat.quotaAllocations]

structure EngineTyped (info : EngineInfo) : Prop where
  own : Typed engineInfo [info.partitions, info.counters, info.slidingWindows,
    info.tokenBuckets, info.quotas,
    info.quotaAllocations, info.keyIndexEnabled]
  perPartition : ∀ stat ∈ info.perPartition, PartitionTyped stat

def SubscriberTyped (info : SubscriberInfo) : Prop := Typed subscriberInfo
  [info.prefixed, info.queueLen, info.queueCap, info.dropped]

structure StreamsTyped (info : StreamsInfo) : Prop where
  own : Typed streamsInfo [info.limitEventsDroppedTotal, info.quotaEventsDroppedTotal]
  limitSubscribers : ∀ subscriber ∈ info.limitSubscribers, SubscriberTyped subscriber
  quotaSubscribers : ∀ subscriber ∈ info.quotaSubscribers, SubscriberTyped subscriber

structure WarningTyped (warning : InspectWarning) : Prop where
  own : Typed inspectWarning [warning.code, warning.severity, warning.message]
  details : Declared.details.HasType warning.details

/-- Every field of the report has the type that its dataclass declares, in every section and in every element
of the nested tuples. -/
structure WellTyped (report : InspectReport) : Prop where
  own : Typed inspectReport [report.section_, report.ts]
  instance_ : ∀ info ∈ report.instance_, InstanceTyped info
  persistence : ∀ info ∈ report.persistence, PersistenceTyped info
  wal : ∀ info ∈ report.wal, WalTyped info
  dump : ∀ info ∈ report.dump, DumpTyped info
  repl : ∀ info ∈ report.repl, ReplTyped info
  engine : ∀ info ∈ report.engine, EngineTyped info
  streams : ∀ info ∈ report.streams, StreamsTyped info
  warnings : ∀ warning ∈ report.warnings, WarningTyped warning

end Records

/-! ## Reports whose members have the declared types -/

structure ReplConforms (raw : Dict) : Prop where
  own : Conforms replInfo raw
  replicas : ∀ item ∈ Inspect.items raw "replicas", Conforms replicaInfo item
  slave : ∀ raw' ∈ Inspect.sectionOf raw "slave", Conforms slaveInfo raw'

structure EngineConforms (raw : Dict) : Prop where
  own : Conforms engineInfo raw
  perPartition : ∀ item ∈ Inspect.items raw "per_partition", Conforms partitionStat item

structure StreamsConforms (raw : Dict) : Prop where
  own : Conforms streamsInfo raw
  limitSubscribers : ∀ item ∈ Inspect.items raw "limit_subscribers", Conforms subscriberInfo item
  quotaSubscribers : ∀ item ∈ Inspect.items raw "quota_subscribers", Conforms subscriberInfo item

structure WarningConforms (item : Dict) : Prop where
  own : Conforms inspectWarning item
  details : ∀ value, item.lookup "details".toList = some value → value.truthy → Declared.details.HasType value

/-- In the report, in each of its sections that is an object, and in each element of its lists that is one,
every member that is read and is there has the declared type. -/
structure ReportConforms (raw : Dict) : Prop where
  own : Conforms inspectReport raw
  instance_ : ∀ raw' ∈ Inspect.sectionOf raw "instance", Conforms instanceInfo raw'
  persistence : ∀ raw' ∈ Inspect.sectionOf raw "persistence", Conforms persistenceInfo raw'
  wal : ∀ raw' ∈ Inspect.sectionOf raw "wal", Conforms walInfo raw'
  dump : ∀ raw' ∈ Inspect.sectionOf raw "dump", Conforms dumpInfo raw'
  repl : ∀ raw' ∈ Inspect.sectionOf raw "repl", ReplConforms raw'
  engine : ∀ raw' ∈ Inspect.sectionOf raw "engine", EngineConforms raw'
  streams : ∀ raw' ∈ Inspect.sectionOf raw "streams", StreamsConforms raw'
  warnings : ∀ item ∈ Inspect.items raw "warnings", WarningConforms item

section Reading
variable {α : Type} {P : α → Prop} {Q : Dict → Prop} {build : Dict → α}

/-- A section of the report is well typed as what it is read from conforms. -/
theorem section_typed (h : ∀ raw, P (build raw) ↔ Q raw) (raw : Dict) (key : String) :
    (∀ a ∈ (Inspect.sectionOf raw key).map build, P a) ↔
    ∀ raw' ∈ Inspect.sectionOf raw key, Q raw' := by
  cases Inspect.sectionOf raw key <;> simp [h]

theorem items_typed (h : ∀ raw, P (build raw) ↔ Q raw) (raw : Dict) (key : String) :
    (∀ a ∈ (Inspect.items raw key).map build, P a) ↔ ∀ item ∈ Inspect.items raw key, Q item := by
  simp [h]

end Reading

/-! Each record is read member by member. -/

theorem instance_typed (raw : Dict) : InstanceTyped (Inspect.instanceInfo raw) ↔
    Conforms instanceInfo raw :=
  typed_read instanceInfo raw

theorem persistence_typed (raw : Dict) :
    PersistenceTyped (Inspect.persistence raw) ↔
      Conforms persistenceInfo raw := typed_read persistenceInfo raw

theorem wal_typed (raw : Dict) : WalTyped (Inspect.wal raw) ↔ Conforms walInfo raw :=
  typed_read walInfo raw

theorem dump_typed (raw : Dict) : DumpTyped (Inspect.dump raw) ↔ Conforms dumpInfo raw :=
  typed_read dumpInfo raw

theorem replica_typed (item : Dict) : ReplicaTyped (Inspect.replica item) ↔ Conforms replicaInfo item :=
  typed_read replicaInfo item

theorem slave_typed (raw : Dict) : SlaveTyped (Inspect.slave raw) ↔ Conforms slaveInfo raw :=
  typed_read slaveInfo raw

theorem partition_typed (item : Dict) :
    PartitionTyped (Inspect.partitionStat item) ↔
      Conforms partitionStat item := typed_read partitionStat item

theorem subscriber_typed (item : Dict) :
    SubscriberTyped (Inspect.subscriber item) ↔
      Conforms subscriberInfo item := typed_read subscriberInfo item

theorem repl_typed (raw : Dict) : ReplTyped (Inspect.repl raw) ↔ ReplConforms raw := by
  have hown : Typed replInfo _ ↔ _ := typed_read replInfo raw
  have hreplicas := items_typed replica_typed raw "replicas"
  have hslave := section_typed slave_typed raw "slave"
  constructor
  · exact fun h => ⟨hown.mp h.own, hreplicas.mp h.replicas, hslave.mp h.slave⟩
  · exact fun h => ⟨hown.mpr h.own, hreplicas.mpr h.replicas, hslave.mpr h.slave⟩

theorem engine_typed (raw : Dict) : EngineTyped (Inspect.engine raw) ↔ EngineConforms raw := by
  have hown : Typed engineInfo _ ↔ _ := typed_read engineInfo raw
  have hpartitions := items_typed partition_typed raw "per_partition"
  constructor
  · exact fun h => ⟨hown.mp h.own, hpartitions.mp h.perPartition⟩
  · exact fun h => ⟨hown.mpr h.own, hpartitions.mpr h.perPartition⟩

theorem streams_typed (raw : Dict) : StreamsTyped (Inspect.streams raw) ↔ StreamsConforms raw := by
  have hown : Typed streamsInfo _ ↔ _ := typed_read streamsInfo raw
  have hsubscribers := items_typed subscriber_typed raw
  constructor
  · exact fun h => ⟨hown.mp h.own, (hsubscribers _).mp h.limitSubscribers,
      (hsubscribers _).mp h.quotaSubscribers⟩
  · exact fun h => ⟨hown.mpr h.own, (hsubscribers _).mpr h.limitSubscribers,
      (hsubscribers _).mpr h.quotaSubscribers⟩

theorem warning_typed (item : Dict) : WarningTyped (Inspect.warning item) ↔ WarningConforms item := by
  have hown : Typed inspectWarning _ ↔ _ := typed_read inspectWarning item
  -- a value that is not true is replaced by an empty dict
  have hdetails : Declared.details.HasType (Inspect.warning item).details ↔
      ∀ value, item.lookup "details".toList = some value → value.truthy → Declared.details.HasType value := by
    have hvalue : ∀ value : Json, Declared.details.HasType (if value.truthy then value else .dict []) ↔
        (value.truthy → Declared.details.HasType value) := by
      intro value
      by_cases htrue : value.truthy
      · simp [htrue]
      · simp only [htrue, Bool.false_eq_true, if_false, false_implies, iff_true]
        trivial
    unfold Inspect.warning Json.get? Json.get
    cases item.lookup "details".toList with
    | none => exact iff_of_true trivial (by simp)
    | some value => simp [hvalue]
  constructor
  · exact fun h => ⟨hown.mp h.own, hdetails.mp h.details⟩
  · exact fun h => ⟨hown.mpr h.own, hdetails.mpr h.details⟩

theorem report_typed (raw : Dict) : WellTyped (Inspect.report raw) ↔ ReportConforms raw := by
  have hown : Typed inspectReport _ ↔ _ := typed_read inspectReport raw
  have hinstance := section_typed instance_typed raw "instance"
  have hpersistence := section_typed persistence_typed raw "persistence"
  have hwal := section_typed wal_typed raw "wal"
  have hdump := section_typed dump_typed raw "dump"
  have hrepl := section_typed repl_typed raw "repl"
  have hengine := section_typed engine_typed raw "engine"
  have hstreams := section_typed streams_typed raw "streams"
  have hwarnings := items_typed warning_typed raw "warnings"
  constructor
  · intro h
    exact ⟨hown.mp h.own, hinstance.mp h.instance_, hpersistence.mp h.persistence, hwal.mp h.wal,
      hdump.mp h.dump, hrepl.mp h.repl, hengine.mp h.engine, hstreams.mp h.streams,
        hwarnings.mp h.warnings⟩
  · intro h
    exact ⟨hown.mpr h.own, hinstance.mpr h.instance_, hpersistence.mpr h.persistence, hwal.mpr h.wal,
      hdump.mpr h.dump, hrepl.mpr h.repl, hengine.mpr h.engine, hstreams.mpr h.streams,
      hwarnings.mpr h.warnings⟩

/-! ## The decoder -/

/-- The answer is rejected, or its report is well typed. -/
def Sound (r : Except Exc InspectReport) : Prop :=
  (∃ what, r = .error (.corruptedResponse what)) ∨ ∃ report, r = .ok report ∧ WellTyped report

/-- An ok response is rejected or gives a well typed report exactly when it is not nested too deep for
`json.loads`, and every member that is read, where the report has it, has the type of its field. -/
theorem inspect_well_typed_iff (loads : Bytes → Except LoadFault Json) {payload data : Bytes}
    (hok : okData payload = .ok data) : Sound (parseInspect loads payload) ↔
      loads data ≠ .error .recursionError ∧ ∀ raw, loads data = .ok (.dict raw) →
        ReportConforms raw := by
  unfold Sound
  cases h : loads data with
  | error fault =>
    cases fault with
    | valueError => simp [parseInspect_valueError hok h]
    | recursionError => simp [parseInspect_recursionError hok h]
  | ok value =>
    by_cases hdict : ∃ raw, value = .dict raw
    · obtain ⟨raw, rfl⟩ := hdict
      simp [parseInspect_dict hok h, report_typed]
    · have hvalue := not_exists.mp hdict
      simp [parseInspect_other hok h hvalue, hvalue]

/-- What `json.loads` makes of a report whose time is `null`. -/
def nullTime (data : Bytes) : Except LoadFault Json :=
  if data = encodeUtf8 "\x7b\"ts\": null\x7d".toList then .ok (.dict [("ts".toList, .null)]) else .error .valueError

def nullTimeAnswer : Bytes := encodeUtf8 "ok|\x7b\"ts\": null\x7d".toList

theorem nullTime_sound_iff : Sound (parseInspect nullTime nullTimeAnswer) ↔
    nullTime (encodeUtf8 "\x7b\"ts\": null\x7d".toList) ≠ .error .recursionError ∧
      ∀ raw, nullTime (encodeUtf8 "\x7b\"ts\": null\x7d".toList) = .ok (.dict raw) → ReportConforms raw :=
  inspect_well_typed_iff nullTime (by decide +kernel)

/-- The report's time is `None`, though its type is `int`. -/
theorem nullTime_not_sound : ¬ Sound (parseInspect nullTime nullTimeAnswer) := by
  have hparse : parseInspect nullTime nullTimeAnswer = .ok (Inspect.report [("ts".toList, .null)]) := by
    rfl
  rw [hparse]
  rintro (⟨what, h⟩ | ⟨report, h, htyped⟩)
  · cases h
  · rw [← Except.ok.inj h, report_typed] at htyped
    exact htyped.own ("ts", .int) (by simp [inspectReport]) .null rfl

end FqClient.TypedReports
