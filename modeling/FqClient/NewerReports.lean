import FqClient.ResponseGrammar
import FqClient.TypedReports

namespace FqClient.NewerReports

open Json TypedReports

/-! ## Objects with more members than are read -/

/-- The object has members of these names, with these values. What else it has is not asked, nor in
which order. -/
def Holds (names : List String) (values : List Json) (raw : Dict) : Prop :=
  List.Forall₂ (fun name value => raw.lookup name.toList = some value) names values

/-- The names of the members that a record is read from. -/
def names (members : Members) : List String := members.map Prod.fst

theorem read_of_holds {members : Members} {values : List Json} {raw : Dict}
    (h : Holds (names members) values raw) : read members raw = values := by
  unfold Holds names at h
  rw [List.forall₂_map_left_iff] at h
  induction h with
  | nil => rfl
  | @cons m value members values hvalue _ ih =>
    have hget : Json.get raw m.1 m.2.absent = value := by
      unfold Json.get
      rw [hvalue]
      rfl
    change Json.get raw m.1 m.2.absent :: read members raw = _
    rw [hget, ih]

/-- A list has these elements, among others that are no objects. -/
inductive Elements {α : Type} (P : α → Dict → Prop) : List α → List Json → Prop
  | nil : Elements P [] []
  | item {a : α} {as : List α} {raw : Dict} {values : List Json} (hitem : P a raw)
      (hrest : Elements P as values) : Elements P (a :: as) (.dict raw :: values)
  | other {as : List α} {value : Json} {values : List Json} (hother : ∀ raw, value ≠ .dict raw)
      (hrest : Elements P as values) : Elements P as (value :: values)

section Parts
variable {α : Type} {P : α → Dict → Prop} {build : Dict → α}

/-- A section that is no object stands for none. -/
def SectionHolds (P : α → Dict → Prop) (raw : Dict) (key : String) : Option α → Prop
  | none => ∀ raw', raw.lookup key.toList ≠ some (.dict raw')
  | some a => ∃ raw', raw.lookup key.toList = some (.dict raw') ∧ P a raw'

/-- A list that is none has no elements. -/
def ItemsHold (P : α → Dict → Prop) (raw : Dict) (key : String) (as : List α) : Prop :=
  (as = [] ∧ ∀ values, raw.lookup key.toList ≠ some (.list values)) ∨
    ∃ values, raw.lookup key.toList = some (.list values) ∧ Elements P as values

theorem section_of_holds (h : ∀ a raw, P a raw → build raw = a) {raw : Dict}
    {key : String} {a : Option α}
    (ha : SectionHolds P raw key a) : (Inspect.sectionOf raw key).map build = a := by
  unfold Inspect.sectionOf Json.get? Json.get
  cases a with
  | none =>
    cases hvalue : raw.lookup key.toList with
    | none => rfl
    | some value =>
      cases value with
      | dict raw' => exact absurd hvalue (ha raw')
      | _ => rfl
  | some a =>
    obtain ⟨raw', hvalue, hP⟩ := ha
    rw [hvalue]
    exact congrArg some (h a raw' hP)

theorem elements_filterMap (h : ∀ a raw, P a raw → build raw = a) {as : List α} {values : List Json}
    (helements : Elements P as values) :
    (values.filterMap fun
      | .dict members => some members
      | _ => none).map build = as := by
  induction helements with
  | nil => rfl
  | item hitem _ ih => exact congrArg₂ List.cons (h _ _ hitem) ih
  | @other as value values hother _ ih =>
    cases value with
    | dict raw => exact absurd rfl (hother raw)
    | _ => exact ih

theorem items_of_holds (h : ∀ a raw, P a raw → build raw = a) {raw : Dict} {key : String} {as : List α}
    (has : ItemsHold P raw key as) : (Inspect.items raw key).map build = as := by
  unfold Inspect.items Json.get? Json.get
  rcases has with ⟨rfl, hnone⟩ | ⟨values, hvalues, helements⟩
  · cases hvalue : raw.lookup key.toList with
    | none => rfl
    | some value =>
      cases value with
      | list values => exact absurd hvalue (hnone values)
      | _ => rfl
  · rw [hvalues]
    exact elements_filterMap h helements

end Parts

/-! ## The records and their members -/

def instanceValues (info : InstanceInfo) : List Json :=
  [info.version, info.commit, info.buildDate, info.goVersion, info.platform, info.uptimeSec, info.pid,
    info.role, info.replicaId, info.listenAddr, info.connections]

def persistenceValues (info : PersistenceInfo) : List Json := [info.mode, info.syncCommit]

def walValues (info : WALInfo) : List Json :=
  [info.enabled, info.syncCommit, info.dataDirectory, info.queueDepth, info.queueCapacity, info.lsnAssigned,
    info.lsnFlushed, info.segmentPath, info.segmentSizeBytes, info.lastFlushAt, info.lastFlushDurationMs,
    info.flushAvgDurationMs, info.flushTotal]

def dumpValues (info : DumpInfo) : List Json :=
  [info.enabled, info.directory, info.intervalSec, info.lastDumpAt, info.lastDumpDurationMs,
    info.lastDumpError, info.lastDumpTx, info.currentDumpPath, info.currentDumpSizeBytes, info.nextDumpAt]

def replicaValues (info : ReplicaInfo) : List Json :=
  [info.replicaId, info.lastSegmentName, info.lastAppliedLsn, info.lagLsn, info.lagSec, info.stale,
    info.updatedAt]

def slaveValues (info : SlaveInfo) : List Json :=
  [info.masterAddress, info.connected, info.lastSegmentName, info.lastAppliedLsn, info.consecutiveErrors,
    info.reconnectTotal, info.lastReconnectAt, info.updatedAt]

def partitionValues (stat : PartitionStat) : List Json :=
  [stat.index, stat.counters, stat.slidingWindows, stat.tokenBuckets, stat.quotas, stat.quotaAllocations]

def subscriberValues (info : SubscriberInfo) : List Json :=
  [info.prefixed, info.queueLen, info.queueCap, info.dropped]

/-- An object holds a record that is read from members alone. -/
def RecordHolds {α : Type} (members : Members) (values : α → List Json) (a : α) (raw : Dict) : Prop :=
  Holds (names members) (values a) raw

structure ReplHolds (info : ReplInfo) (raw : Dict) : Prop where
  own : Holds (names replInfo) [info.role, info.knownReplicas, info.truncated] raw
  replicas : ItemsHold (RecordHolds replicaInfo replicaValues) raw "replicas" info.replicas
  slave : SectionHolds (RecordHolds slaveInfo slaveValues) raw "slave" info.slave

structure EngineHolds (info : EngineInfo) (raw : Dict) : Prop where
  own : Holds (names engineInfo) [info.partitions, info.counters, info.slidingWindows,
    info.tokenBuckets, info.quotas,
    info.quotaAllocations, info.keyIndexEnabled] raw
  perPartition : ItemsHold (RecordHolds partitionStat partitionValues) raw "per_partition" info.perPartition

structure StreamsHolds (info : StreamsInfo) (raw : Dict) : Prop where
  own : Holds (names streamsInfo) [info.limitEventsDroppedTotal, info.quotaEventsDroppedTotal] raw
  limitSubscribers : ItemsHold (RecordHolds subscriberInfo subscriberValues) raw "limit_subscribers"
    info.limitSubscribers
  quotaSubscribers : ItemsHold (RecordHolds subscriberInfo subscriberValues) raw "quota_subscribers"
    info.quotaSubscribers

structure WarningHolds (warning : InspectWarning) (raw : Dict) : Prop where
  own : Holds (names inspectWarning) [warning.code, warning.severity, warning.message] raw
  details : ∃ members, warning.details = .dict members ∧
    raw.lookup "details".toList = some (.dict members)

/-- The object is a report, as a server may send it that knows of more members. -/
structure ReportHolds (report : InspectReport) (raw : Dict) : Prop where
  own : Holds (names inspectReport) [report.section_, report.ts] raw
  instance_ : SectionHolds (RecordHolds instanceInfo instanceValues) raw "instance" report.instance_
  persistence : SectionHolds (RecordHolds persistenceInfo persistenceValues) raw "persistence"
    report.persistence
  wal : SectionHolds (RecordHolds walInfo walValues) raw "wal" report.wal
  dump : SectionHolds (RecordHolds dumpInfo dumpValues) raw "dump" report.dump
  repl : SectionHolds ReplHolds raw "repl" report.repl
  engine : SectionHolds EngineHolds raw "engine" report.engine
  streams : SectionHolds StreamsHolds raw "streams" report.streams
  warnings : ItemsHold WarningHolds raw "warnings" report.warnings

/-! ## What is read is the record -/

/-- A record that its values determine, and that is read member by member, is read from what holds it. -/
theorem record_of_holds {α : Type} {members : Members} {values : α → List Json} {a : α} {raw : Dict}
    (h : RecordHolds members values a raw) (build : Dict → α)
    (hbuild : ∀ raw, values (build raw) = read members raw) (hinjective : Function.Injective values) :
    build raw = a :=
  hinjective ((hbuild raw).trans (read_of_holds h))

theorem instance_of_holds (info : InstanceInfo) (raw : Dict)
    (h : RecordHolds instanceInfo instanceValues info raw) : Inspect.instanceInfo raw = info := by
  refine record_of_holds h Inspect.instanceInfo (fun _ => rfl) ?_
  rintro ⟨⟩ ⟨⟩ h
  simpa [instanceValues] using h

theorem persistence_of_holds (info : PersistenceInfo) (raw : Dict)
    (h : RecordHolds persistenceInfo persistenceValues info raw) : Inspect.persistence raw = info := by
  refine record_of_holds h Inspect.persistence (fun _ => rfl) ?_
  rintro ⟨⟩ ⟨⟩ h
  simpa [persistenceValues] using h

theorem wal_of_holds (info : WALInfo) (raw : Dict) (h : RecordHolds walInfo walValues info raw) :
    Inspect.wal raw = info := by
  refine record_of_holds h Inspect.wal (fun _ => rfl) ?_
  rintro ⟨⟩ ⟨⟩ h
  simpa [walValues] using h

theorem dump_of_holds (info : DumpInfo) (raw : Dict) (h : RecordHolds dumpInfo dumpValues info raw) :
    Inspect.dump raw = info := by
  refine record_of_holds h Inspect.dump (fun _ => rfl) ?_
  rintro ⟨⟩ ⟨⟩ h
  simpa [dumpValues] using h

theorem replica_of_holds (info : ReplicaInfo) (raw : Dict)
    (h : RecordHolds replicaInfo replicaValues info raw) : Inspect.replica raw = info := by
  refine record_of_holds h Inspect.replica (fun _ => rfl) ?_
  rintro ⟨⟩ ⟨⟩ h
  simpa [replicaValues] using h

theorem slave_of_holds (info : SlaveInfo) (raw : Dict)
    (h : RecordHolds slaveInfo slaveValues info raw) :
    Inspect.slave raw = info := by
  refine record_of_holds h Inspect.slave (fun _ => rfl) ?_
  rintro ⟨⟩ ⟨⟩ h
  simpa [slaveValues] using h

theorem partition_of_holds (stat : PartitionStat) (raw : Dict)
    (h : RecordHolds partitionStat partitionValues stat raw) : Inspect.partitionStat raw = stat := by
  refine record_of_holds h Inspect.partitionStat (fun _ => rfl) ?_
  rintro ⟨⟩ ⟨⟩ h
  simpa [partitionValues] using h

theorem subscriber_of_holds (info : SubscriberInfo) (raw : Dict)
    (h : RecordHolds subscriberInfo subscriberValues info raw) : Inspect.subscriber raw = info := by
  refine record_of_holds h Inspect.subscriber (fun _ => rfl) ?_
  rintro ⟨⟩ ⟨⟩ h
  simpa [subscriberValues] using h

theorem repl_of_holds (info : ReplInfo) (raw : Dict)
    (h : ReplHolds info raw) : Inspect.repl raw = info := by
  have hown : [(Inspect.repl raw).role, (Inspect.repl raw).knownReplicas,
      (Inspect.repl raw).truncated] = _ :=
    read_of_holds h.own
  have hreplicas : (Inspect.repl raw).replicas = _ := items_of_holds replica_of_holds h.replicas
  have hslave : (Inspect.repl raw).slave = _ := section_of_holds slave_of_holds h.slave
  generalize Inspect.repl raw = read at hown hreplicas hslave
  cases read
  cases info
  simp_all

theorem engine_of_holds (info : EngineInfo) (raw : Dict) (h : EngineHolds info raw) :
    Inspect.engine raw = info := by
  have hown : [(Inspect.engine raw).partitions, (Inspect.engine raw).counters,
      (Inspect.engine raw).slidingWindows, (Inspect.engine raw).tokenBuckets, (Inspect.engine raw).quotas,
      (Inspect.engine raw).quotaAllocations, (Inspect.engine raw).keyIndexEnabled] = _ := read_of_holds h.own
  have hpartitions : (Inspect.engine raw).perPartition = _ :=
    items_of_holds partition_of_holds h.perPartition
  generalize Inspect.engine raw = read at hown hpartitions
  cases read
  cases info
  simp_all

theorem streams_of_holds (info : StreamsInfo) (raw : Dict) (h : StreamsHolds info raw) :
    Inspect.streams raw = info := by
  have hown : [(Inspect.streams raw).limitEventsDroppedTotal,
      (Inspect.streams raw).quotaEventsDroppedTotal] = _ := read_of_holds h.own
  have hlimit : (Inspect.streams raw).limitSubscribers = _ :=
    items_of_holds subscriber_of_holds h.limitSubscribers
  have hquota : (Inspect.streams raw).quotaSubscribers = _ :=
    items_of_holds subscriber_of_holds h.quotaSubscribers
  generalize Inspect.streams raw = read at hown hlimit hquota
  cases read
  cases info
  simp_all

theorem warning_of_holds (warning : InspectWarning) (raw : Dict) (h : WarningHolds warning raw) :
    Inspect.warning raw = warning := by
  have hown : [(Inspect.warning raw).code, (Inspect.warning raw).severity,
      (Inspect.warning raw).message] = _ :=
    read_of_holds h.own
  -- an empty dict is not true, and is replaced by an empty dict
  have hdetails : (Inspect.warning raw).details = warning.details := by
    obtain ⟨members, hmembers, hlookup⟩ := h.details
    unfold Inspect.warning Json.get? Json.get
    rw [hlookup, hmembers]
    cases members <;> rfl
  generalize Inspect.warning raw = read at hown hdetails
  cases read
  cases warning
  simp_all

theorem report_of_holds (report : InspectReport) (raw : Dict) (h : ReportHolds report raw) :
    Inspect.report raw = report := by
  have hown : [(Inspect.report raw).section_, (Inspect.report raw).ts] = _ := read_of_holds h.own
  have hinstance : (Inspect.report raw).instance_ = _ := section_of_holds instance_of_holds h.instance_
  have hpersistence : (Inspect.report raw).persistence = _ :=
    section_of_holds persistence_of_holds h.persistence
  have hwal : (Inspect.report raw).wal = _ := section_of_holds wal_of_holds h.wal
  have hdump : (Inspect.report raw).dump = _ := section_of_holds dump_of_holds h.dump
  have hrepl : (Inspect.report raw).repl = _ := section_of_holds repl_of_holds h.repl
  have hengine : (Inspect.report raw).engine = _ := section_of_holds engine_of_holds h.engine
  have hstreams : (Inspect.report raw).streams = _ := section_of_holds streams_of_holds h.streams
  have hwarnings : (Inspect.report raw).warnings = _ := items_of_holds warning_of_holds h.warnings
  generalize Inspect.report raw = read at hown hinstance hpersistence hwal hdump hrepl hengine hstreams hwarnings
  cases read
  cases report
  simp_all

/-! ## A report as a server sends it -/

/-- An object with members of these names. -/
def object (names : List String) (values : List Json) : Dict :=
  List.zipWith (fun name value => (name.toList, value)) names values

section Encoding
variable {α : Type} (encode : α → Dict)

def encodeRecord (members : Members) (values : α → List Json) (a : α) : Dict :=
  object (names members) (values a)

def encodeSection : Option α → Json
  | none => .null
  | some a => .dict (encode a)

def encodeItems (as : List α) : Json := .list (as.map fun a => .dict (encode a))

end Encoding

def encodeRepl (info : ReplInfo) : Dict :=
  object (names replInfo ++ ["replicas", "slave"])
    [info.role, info.knownReplicas, info.truncated,
      encodeItems (encodeRecord replicaInfo replicaValues) info.replicas,
      encodeSection (encodeRecord slaveInfo slaveValues) info.slave]

def encodeEngine (info : EngineInfo) : Dict :=
  object (names engineInfo ++ ["per_partition"])
    [info.partitions, info.counters, info.slidingWindows, info.tokenBuckets, info.quotas,
      info.quotaAllocations, info.keyIndexEnabled,
      encodeItems (encodeRecord partitionStat partitionValues) info.perPartition]

def encodeStreams (info : StreamsInfo) : Dict :=
  object (names streamsInfo ++ ["limit_subscribers", "quota_subscribers"])
    [info.limitEventsDroppedTotal, info.quotaEventsDroppedTotal,
      encodeItems (encodeRecord subscriberInfo subscriberValues) info.limitSubscribers,
      encodeItems (encodeRecord subscriberInfo subscriberValues) info.quotaSubscribers]

def encodeWarning (warning : InspectWarning) : Dict :=
  object (names inspectWarning ++ ["details"])
    [warning.code, warning.severity, warning.message, warning.details]

/-- The parts of a report that are objects or lists. -/
def parts : List String :=
  ["instance", "persistence", "wal", "dump", "repl", "engine", "streams", "warnings"]

def encodeReport (report : InspectReport) : Dict :=
  object (names inspectReport ++ parts)
    [report.section_, report.ts,
      encodeSection (encodeRecord instanceInfo instanceValues) report.instance_,
      encodeSection (encodeRecord persistenceInfo persistenceValues) report.persistence,
      encodeSection (encodeRecord walInfo walValues) report.wal,
      encodeSection (encodeRecord dumpInfo dumpValues) report.dump,
      encodeSection encodeRepl report.repl, encodeSection encodeEngine report.engine,
      encodeSection encodeStreams report.streams, encodeItems encodeWarning report.warnings]

/-! ## It holds the report -/

theorem Holds.insert {names : List String} {values : List Json} {raw : Dict}
    (h : Holds names values raw)
    {key : Str} {value : Json} (hnew : ∀ name ∈ names, name.toList ≠ key) :
    Holds names values ((key, value) :: raw) := by
  unfold Holds at h ⊢
  induction h with
  | nil => exact .nil
  | @cons name v names values hvalue _ ih =>
    obtain ⟨hname, hrest⟩ := List.forall_mem_cons.mp hnew
    refine .cons ?_ (ih hrest)
    rw [List.lookup_cons, beq_false_of_ne hname]
    exact hvalue

theorem holds_object {names : List String} (hnames : names.Nodup) {values : List Json}
    (hlength : values.length = names.length) : Holds names values (object names values) := by
  induction names generalizing values with
  | nil =>
    rw [List.length_eq_zero_iff.mp hlength]
    exact .nil
  | cons name names ih =>
    obtain ⟨value, values, rfl⟩ := List.exists_cons_of_length_eq_add_one hlength
    obtain ⟨hname, hnames⟩ := List.nodup_cons.mp hnames
    have hrest := ih hnames (Nat.succ.inj hlength)
    refine .cons List.lookup_cons_self (hrest.insert ?_)
    exact fun name' hmem heq => hname (String.toList_inj.mp heq ▸ hmem)

section Parts
variable {α : Type} {P : α → Dict → Prop} {encode : α → Dict} {raw : Dict} {key : String}

theorem sectionHolds_encode {a : Option α} (h : ∀ a, P a (encode a))
    (hvalue : raw.lookup key.toList = some (encodeSection encode a)) : SectionHolds P raw key a := by
  cases a with
  | none =>
    intro raw' hdict
    rw [hvalue] at hdict
    cases hdict
  | some a => exact ⟨encode a, hvalue, h a⟩

theorem itemsHold_encode {as : List α} (h : ∀ a ∈ as, P a (encode a))
    (hvalue : raw.lookup key.toList = some (encodeItems encode as)) : ItemsHold P raw key as := by
  refine Or.inr ⟨_, hvalue, ?_⟩
  clear hvalue
  induction as with
  | nil => exact .nil
  | cons a as ih =>
    obtain ⟨ha, has⟩ := List.forall_mem_cons.mp h
    exact .item ha (ih has)

end Parts

theorem recordHolds_encode {α : Type} {members : Members} {values : α → List Json}
    (hnames : (names members).Nodup) (hlength : ∀ a, (values a).length = (names members).length)
    (a : α) :
    RecordHolds members values a (encodeRecord members values a) := holds_object hnames (hlength a)

theorem replHolds_encode (info : ReplInfo) : ReplHolds info (encodeRepl info) := by
  have hholds : Holds _ _ (encodeRepl info) := holds_object (by decide) rfl
  obtain _ | ⟨hreplicas, _ | ⟨hslave, _⟩⟩ := List.forall₂_drop 3 hholds
  constructor
  · exact List.forall₂_take 3 hholds
  · exact itemsHold_encode (fun a _ => recordHolds_encode (by decide) (fun _ => rfl) a) hreplicas
  · exact sectionHolds_encode (recordHolds_encode (by decide) fun _ => rfl) hslave

theorem engineHolds_encode (info : EngineInfo) : EngineHolds info (encodeEngine info) := by
  have hholds : Holds _ _ (encodeEngine info) := holds_object (by decide) rfl
  obtain _ | ⟨hpartitions, _⟩ := List.forall₂_drop 7 hholds
  constructor
  · exact List.forall₂_take 7 hholds
  · exact itemsHold_encode (fun a _ => recordHolds_encode (by decide) (fun _ => rfl) a) hpartitions

theorem streamsHolds_encode (info : StreamsInfo) : StreamsHolds info (encodeStreams info) := by
  have hholds : Holds _ _ (encodeStreams info) := holds_object (by decide) rfl
  obtain _ | ⟨hlimit, _ | ⟨hquota, _⟩⟩ := List.forall₂_drop 2 hholds
  constructor
  · exact List.forall₂_take 2 hholds
  · exact itemsHold_encode (fun a _ => recordHolds_encode (by decide) (fun _ => rfl) a) hlimit
  · exact itemsHold_encode (fun a _ => recordHolds_encode (by decide) (fun _ => rfl) a) hquota

/-- The details of every warning are an object. -/
def Detailed (report : InspectReport) : Prop :=
  ∀ warning ∈ report.warnings, ∃ members, warning.details = .dict members

theorem warningHolds_encode {warning : InspectWarning}
    (h : ∃ members, warning.details = .dict members) :
    WarningHolds warning (encodeWarning warning) := by
  have hholds : Holds _ _ (encodeWarning warning) := holds_object (by decide) rfl
  obtain _ | ⟨hdetails, _⟩ := List.forall₂_drop 3 hholds
  obtain ⟨members, hmembers⟩ := h
  exact ⟨List.forall₂_take 3 hholds, members, hmembers, hmembers ▸ hdetails⟩

theorem reportHolds_encode {report : InspectReport} (h : Detailed report) :
    ReportHolds report (encodeReport report) := by
  have hholds : Holds _ _ (encodeReport report) := holds_object (by decide) rfl
  obtain _ | ⟨hinstance, _ | ⟨hpersistence, _ | ⟨hwal, _ | ⟨hdump, hrest⟩⟩⟩⟩ :=
    List.forall₂_drop 2 hholds
  obtain _ | ⟨hrepl, _ | ⟨hengine, _ | ⟨hstreams, _ | ⟨hwarnings, _⟩⟩⟩⟩ := hrest
  constructor
  · exact List.forall₂_take 2 hholds
  · exact sectionHolds_encode (recordHolds_encode (by decide) fun _ => rfl) hinstance
  · exact sectionHolds_encode (recordHolds_encode (by decide) fun _ => rfl) hpersistence
  · exact sectionHolds_encode (recordHolds_encode (by decide) fun _ => rfl) hwal
  · exact sectionHolds_encode (recordHolds_encode (by decide) fun _ => rfl) hdump
  · exact sectionHolds_encode replHolds_encode hrepl
  · exact sectionHolds_encode engineHolds_encode hengine
  · exact sectionHolds_encode streamsHolds_encode hstreams
  · exact itemsHold_encode (fun warning hwarning => warningHolds_encode (h warning hwarning)) hwarnings

theorem lookup_insert {name : String} {key : Str} (h : name.toList ≠ key) (value : Json) (raw : Dict) :
    List.lookup name.toList ((key, value) :: raw) = raw.lookup name.toList := by
  rw [List.lookup_cons, beq_false_of_ne h]

section Insert
variable {α : Type} {P : α → Dict → Prop} {raw : Dict} {name : String} {key : Str}
  (hnew : name.toList ≠ key)
  (value : Json)
include hnew

theorem SectionHolds.insert {a : Option α} (h : SectionHolds P raw name a) :
    SectionHolds P ((key, value) :: raw) name a := by
  cases a <;> simpa only [SectionHolds, lookup_insert hnew] using h

theorem ItemsHold.insert {as : List α} (h : ItemsHold P raw name as) :
    ItemsHold P ((key, value) :: raw) name as := by
  simpa only [ItemsHold, lookup_insert hnew] using h

end Insert

/-- A member that is not read may be added. -/
theorem ReportHolds.insert {report : InspectReport} {raw : Dict}
    (h : ReportHolds report raw) {key : Str}
    (hnew : ∀ name ∈ names inspectReport ++ parts, name.toList ≠ key) (value : Json) :
    ReportHolds report ((key, value) :: raw) := by
  obtain ⟨hown, hparts⟩ := List.forall_mem_append.mp hnew
  unfold parts at hparts
  simp only [List.forall_mem_cons] at hparts
  obtain ⟨hinstance, hpersistence, hwal, hdump, hrepl, hengine, hstreams, hwarnings, _⟩ := hparts
  constructor
  · exact h.own.insert hown
  · exact h.instance_.insert hinstance value
  · exact h.persistence.insert hpersistence value
  · exact h.wal.insert hwal value
  · exact h.dump.insert hdump value
  · exact h.repl.insert hrepl value
  · exact h.engine.insert hengine value
  · exact h.streams.insert hstreams value
  · exact h.warnings.insert hwarnings value

/-- Whatever more a server puts into the objects of a report, and in whatever order, the report is read
from its answer; and every report is in an answer. -/
theorem reports_round_trip (loads : Bytes → Except LoadFault Json) (report : InspectReport) :
    (∀ data raw, loads data = .ok (.dict raw) → ReportHolds report raw →
      parseInspect loads (tagOk ++ respDelimiter :: data) = .ok report) ∧
    (Detailed report → ReportHolds report (encodeReport report)) := by
  constructor
  · intro data raw hloads hholds
    rw [parseInspect_dict (okData_ok data _) hloads, report_of_holds report raw hholds]
  · exact reportHolds_encode

/-- A report of persistence, with a warning. -/
def warned : InspectReport where
  section_ := .str "PERSISTENCE".toList
  ts := .int 1
  instance_ := none
  persistence := some ⟨.str "wal".toList, .null⟩
  wal := none
  dump := none
  repl := none
  engine := none
  streams := none
  warnings := [⟨.str "lag".toList, .empty, .empty, .dict [("seconds".toList, .int 3)]⟩]

/-- The text that a server sends for it, with a member that the client does not know. -/
def newerText : Str :=
  "\x7b\"shards\": 3, \"section\": \"PERSISTENCE\", \"ts\": 1, \"instance\": null, ".toList ++
  "\"persistence\": \x7b\"mode\": \"wal\", \"sync_commit\": null\x7d, \"wal\": null, \"dump\": null, ".toList ++
  "\"repl\": null, \"engine\": null, \"streams\": null, \"warnings\": [\x7b\"code\": \"lag\", ".toList ++
  "\"severity\": \"\", \"message\": \"\", \"details\": \x7b\"seconds\": 3\x7d\x7d]\x7d".toList

/-- What `json.loads` makes of that text. -/
def newerLoads (data : Bytes) : Except LoadFault Json :=
  if data = encodeUtf8 newerText then .ok (.dict (("shards".toList, .int 3) :: encodeReport warned))
  else .error .valueError

theorem newer_report_read :
    parseInspect newerLoads (tagOk ++ respDelimiter :: encodeUtf8 newerText) = .ok warned := by
  have hdetails : Detailed warned :=
    fun warning hwarning => List.mem_singleton.mp hwarning ▸ ⟨_, rfl⟩
  have hholds : ReportHolds warned (encodeReport warned) :=
    (reports_round_trip newerLoads warned).2 hdetails
  exact (reports_round_trip newerLoads warned).1 _ _ (if_pos rfl) (hholds.insert (by decide) _)

end FqClient.NewerReports
