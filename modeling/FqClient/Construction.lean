import FqClient.Contracts
import FqClient.Effects.Handler
import FqClient.Pool

namespace FqClient

open Effects

/-! ## The options of a client -/

structure TLSConfig where
  caFile : Str := []
  certFile : Str := []
  keyFile : Str := []
  serverName : Str := []
  skipVerify : Bool := false
  minVersion : Str := []
  deriving DecidableEq

/-- The keys of `_TLS_MIN_VERSIONS`. -/
def tlsMinVersions : List Str := [[], "1.2".toList, "1.3".toList]

/-- What the `ssl` module makes of the files of a configuration. -/
abbrev LoadFiles := TLSConfig → Except Exc Unit

def TLSConfig.buildContext (load : LoadFiles) (config : TLSConfig) : Except Exc Unit :=
  if (config.certFile ≠ []) ≠ (config.keyFile ≠ []) then .error .valueError
  else if config.minVersion ∉ tlsMinVersions then .error .valueError
  else load config

/-- The keyword arguments of `Client` and `AsyncClient`. -/
structure ClientOptions where
  poolSize : ℤ := 8
  timeout : Option ℚ := some 5
  connectTimeout : ℚ := 5
  token : Option Str := none
  tls : Option TLSConfig := none
  /-- Whether an `ssl_context` is given. -/
  sslContext : Bool := false
  serverHostname : Option Str := none
  reconnect : Option ReconnectPolicy := none
  deriving DecidableEq

namespace ClientOptions

/-- `server_hostname or (tls.server_name if tls is not None else None) or None`. -/
def hostname (options : ClientOptions) : Option Str :=
  match options.serverHostname, options.tls with
  | some (c :: cs), _ => some (c :: cs)
  | _, some config => if config.serverName = [] then none else some config.serverName
  | _, none => none

def config (options : ClientOptions) (address : Str) : ClientConfig where
  settings :=
    { address := address, token := options.token, tls := options.tls.isSome || options.sslContext,
      serverHostname := options.hostname, connectTimeout := options.connectTimeout }
  timeout := options.timeout
  reconnect := options.reconnect.getD {}

end ClientOptions

/-! ## The queue of a pool -/

/-- `ConnectionPool` and `AsyncConnectionPool`: the last slot put in is the first one taken. -/
structure ConnectionPool where
  size : ℕ
  slots : List (Option Connection)
  closed : Bool
  deriving DecidableEq

namespace ConnectionPool

/-- `__init__`. -/
def new (size : ℤ) : Except Exc ConnectionPool :=
  if size < 1 then .error .valueError
  else .ok ⟨size.toNat, List.replicate size.toNat none, false⟩

/-- The operations on the queue are answered by it, and the others by the environment. A `get`
without a timeout on an empty queue waits forever here: nobody else holds a slot. -/
def queue : (op : NetOp) → ConnectionPool → Prog Net (op.Answer × ConnectionPool)
  | .poolClosed, pool => .pure (pool.closed, pool)
  | .getSlot timeout, pool =>
    match pool.slots with
    | slot :: slots => .pure (some slot, { pool with slots := slots })
    | [] => if timeout.isSome then .pure (none, pool) else .halt
  | .awaitSlot, pool =>
    match pool.slots with
    | slot :: slots => .pure (.ok slot, { pool with slots := slots })
    | [] => .halt
  | .putSlot slot, pool => .pure ((), { pool with slots := slot :: pool.slots })
  | op, pool => .call op fun answer => .pure (answer, pool)

/-- What the code of a pool asks for, with the connections of the package. -/
def serve (t : Transport) (settings : Settings) :
    (op : PoolOp Connection) → ConnectionPool → Prog Net (op.Answer × ConnectionPool)
  | .closedFlag, pool => .pure (pool.closed, pool)
  | .setClosed, pool => .pure ((), { pool with closed := true })
  | .getNowait, pool =>
    match pool.slots with
    | slot :: slots => .pure (some slot, { pool with slots := slots })
    | [] => .pure (none, pool)
  | .take deadline, pool => do
    let ((slot, _), pool) ← (t.take deadline ()).handled queue pool
    return (slot, pool)
  | .put slot, pool =>
    if pool.slots.length < pool.size then .pure (true, { pool with slots := slot :: pool.slots })
    else .pure (false, pool)
  | .factory, pool => do
    let (outcome, connection) ← t.connect (Connection.new settings)
    return (outcome.map fun _ => connection, pool)
  | .closed connection, pool => .pure (connection.closed, pool)
  | .close connection, pool => do
    let _ ← closeConnection connection
    return ((), pool)
  | .waitClosed _, pool => .pure ((), pool)
  | .hold _, pool => .pure (.ok (), pool)

/-- An operation that is not on the queue. -/
def Outside : NetOp → Prop
  | .poolClosed | .getSlot _ | .awaitSlot | .putSlot _ => False
  | _ => True

theorem queue_of_outside {pool : ConnectionPool} (op : NetOp) (h : Outside op) :
    queue op pool = .call op fun answer => .pure (answer, pool) := by
  cases op <;> first | exact h.elim | rfl

section Served
variable (p : Package) {settings : Settings} {pool : ConnectionPool}

/-- A connection does not touch the queue. -/
theorem connect_outside (connection : Connection) :
    (p.transport.connect connection).handled queue pool =
      p.transport.connect connection >>= fun rc => .pure (rc, pool) := by
  have hdialer : Dialer (anything Outside) (fun _ => True) (fun _ _ => True) := by
    refine ⟨?_, ?_, ?_, ?_, ?_⟩
    · exact fun _ _ _ => ⟨trivial, fun _ _ _ => trivial⟩
    · exact fun _ _ _ _ _ => ⟨trivial, fun a _ _ => by cases a <;> trivial⟩
    · exact fun _ _ _ _ _ => ⟨trivial, fun a _ _ => by cases a <;> trivial⟩
    · exact fun _ _ _ _ => ⟨trivial, fun _ _ _ => trivial⟩
    · exact fun _ _ _ => ⟨trivial, fun _ _ _ => trivial⟩
  have hkeeps : Keeps (anything Outside) NetOp.Exchanging (fun _ => True) := by
    intro s op hop _
    refine ⟨?_, fun _ _ _ => trivial⟩
    cases op <;> first | exact hop.elim | trivial
  exact Prog.handled_of_anything queue_of_outside
    (wpm_connect p hdialer (fun _ => hkeeps) connection trivial)

/-- A slot that was taken leaves room for one. -/
theorem take_room (deadline : Deadline) (hfits : pool.slots.length ≤ pool.size) :
    wp (monitor fun (_ : Unit) (_ : Event Net) => ())
      ((p.transport.take deadline ()).handled queue pool) (fun r _ => ∀ slot, r.1.1 = .ok slot →
        r.2.slots.length < r.2.size) () := by
  obtain ⟨size, slots, closed⟩ := pool
  obtain ⟨_ | moment⟩ := deadline
  · cases p with
    | sync =>
      cases slots with
      | nil => exact trivial
      | cons slot slots => exact fun _ _ => hfits
    | aio =>
      refine ⟨trivial, fun _ _ _ => ?_⟩
      cases slots with
      | nil => exact trivial
      | cons slot slots => exact fun _ _ => hfits
  · cases p with
    | sync =>
      refine ⟨trivial, fun _ _ _ => ?_⟩
      cases slots with
      | nil => exact fun _ h => by cases h
      | cons slot slots => exact fun _ _ => hfits
    | aio =>
      refine ⟨trivial, fun _ _ _ => ⟨trivial, fun _ _ _ => ?_⟩⟩
      cases slots with
      | nil => exact trivial
      | cons slot slots => exact fun _ _ => hfits

/-- The first half of `acquire` of a client is that of its pool. -/
theorem acquire_served (deadline : Deadline) (hfits : pool.slots.length ≤ pool.size) :
    (p.transport.acquire settings deadline ()).handled queue pool =
      (Pool.acquire deadline ()).handled (serve p.transport settings) pool := by
  unfold Transport.acquire Pool.acquire
  change Prog.handled queue ((if pool.closed = true then _ else _ : ClientM Connection) ()) pool =
    Prog.handled (serve p.transport settings)
      ((if pool.closed = true then _ else _ : PoolM _ _) ()) pool
  cases pool.closed with
  | true => rfl
  | false =>
    rw [if_neg Bool.false_ne_true, if_neg Bool.false_ne_true]
    change Prog.handled queue (p.transport.take deadline () >>= _) pool =
      (p.transport.take deadline ()).handled queue pool >>= _ >>= _
    rw [Prog.handled_bind, Prog.bind_assoc']
    apply bind_congr_of_wp
    refine wp_mono (take_room p deadline hfits) ?_
    intro ⟨⟨slot, _⟩, pool'⟩ _ hroom
    match slot, hroom with
    | .error e, _ => rfl
    | .ok (some connection), _ => rfl
    | .ok none, hroom =>
      have hput : pool'.slots.length < pool'.size := hroom none rfl
      change Prog.handled queue (p.transport.connect (Connection.new settings) >>= _ >>= _) pool' =
        (p.transport.connect (Connection.new settings) >>= _) >>= _
      rw [Prog.bind_assoc', Prog.handled_bind, connect_outside, Prog.bind_assoc', Prog.bind_assoc']
      refine congrArg _ ?_
      funext ⟨outcome, connection⟩
      cases outcome with
      | ok _ => rfl
      | error e =>
        have hserve : serve p.transport settings (.put none) pool' =
          .pure (true, { pool' with slots := none :: pool'.slots }) := if_pos hput
        change _ = serve p.transport settings (.put none) pool' >>= _
        rw [hserve]
        rfl

/-- A connection that was acquired leaves room for it. -/
theorem acquire_room (deadline : Deadline) (hfits : pool.slots.length ≤ pool.size) :
    wp (monitor fun (_ : Unit) (_ : Event Net) => ())
      ((Pool.acquire deadline ()).handled (serve p.transport settings) pool) (fun r _ => ∀ connection,
        r.1.1 = .ok connection → r.2.slots.length < r.2.size) () := by
  unfold Pool.acquire
  change wp _ (Prog.handled (serve p.transport settings)
    ((if pool.closed = true then _ else _ : PoolM _ _) ()) pool) _ ()
  cases pool.closed with
  | true => exact fun _ h => by cases h
  | false =>
    rw [if_neg Bool.false_ne_true]
    change wp _ (((p.transport.take deadline ()).handled queue pool >>= _) >>= _) _ ()
    rw [Prog.bind_assoc', wp_bind]
    refine wp_mono (take_room p deadline hfits) ?_
    intro ⟨⟨slot, _⟩, pool'⟩ _ hroom
    match slot, hroom with
    | .error e, _ => exact fun _ h => by cases h
    | .ok (some connection), hroom => exact fun _ _ => hroom _ rfl
    | .ok none, hroom =>
      have hput : pool'.slots.length < pool'.size := hroom none rfl
      have hconnect : p.transport.connect.Only (fun _ => True) Exc.NotDelay :=
        p.only_connect (fun _ _ => trivial) fun _ _ _ _ _ _ => ⟨trivial, trivial⟩
      change wp _ ((p.transport.connect (Connection.new settings) >>= _) >>= _) _ ()
      rw [Prog.bind_assoc', wp_bind]
      refine wp_mono (wp_of_anything (J := fun _ => True) (fun _ _ _ _ => trivial)
        (fun _ _ _ _ _ _ _ => trivial) (hconnect (Connection.new settings)) trivial) ?_
      intro ⟨outcome, connection⟩ _ _
      cases outcome with
      | ok _ => exact fun _ _ => hput
      | error e =>
        have hserve : serve p.transport settings (.put none) pool' =
          .pure (true, { pool' with slots := none :: pool'.slots }) := if_pos hput
        change wp _ (serve p.transport settings (.put none) pool' >>= _) _ ()
        rw [hserve]
        exact fun _ h => by cases h

/-- And so is the second half, where there is room. -/
theorem release_served (connection : Connection) (hroom : pool.slots.length < pool.size) :
    (Transport.release connection ()).handled queue pool =
      (Pool.release connection ()).handled (serve p.transport settings) pool := by
  unfold Transport.release Pool.release
  change Prog.handled queue ((if pool.closed = true then _ else _ : ClientM Unit) ()) pool =
    Prog.handled (serve p.transport settings)
      ((if pool.closed = true then _ else _ : PoolM _ _) ()) pool
  cases pool.closed with
  | true =>
    rw [if_pos rfl, if_pos rfl]
    obtain ⟨settings, _ | sock, limit, role, auth, flag⟩ := connection
    · rfl
    · rfl
  | false =>
    rw [if_neg Bool.false_ne_true, if_neg Bool.false_ne_true]
    have hserve : ∀ slot, serve p.transport settings (.put slot) pool =
      .pure (true, { pool with slots := slot :: pool.slots }) := fun slot => if_pos hroom
    change _ = serve p.transport settings (.put _) pool >>= _
    rw [hserve]
    rfl

/-- A client takes a connection and gives it back as its pool does. -/
theorem withConnection_served (deadline : Deadline) (hfits : pool.slots.length ≤ pool.size) :
    (p.transport.withConnection settings deadline (Pure.pure ()) ()).handled queue pool =
      (Pool.withConnection deadline ()).handled (serve p.transport settings) pool := by
  unfold Transport.withConnection Pool.withConnection
  change Prog.handled queue (p.transport.acquire settings deadline () >>= _) pool =
    Prog.handled (serve p.transport settings) (Pool.acquire deadline () >>= _) pool
  rw [Prog.handled_bind, Prog.handled_bind, acquire_served p deadline hfits]
  apply bind_congr_of_wp
  refine wp_mono (acquire_room p deadline hfits) ?_
  intro ⟨⟨r, _⟩, pool'⟩ _ hroom
  cases r with
  | error e => rfl
  | ok connection =>
    change Prog.handled queue (Transport.release connection () >>= _) pool' =
      Prog.handled (serve p.transport settings) (Pool.release connection () >>= _) pool'
    rw [Prog.handled_bind, Prog.handled_bind, release_served p connection (hroom connection rfl)]
    refine congrArg _ ?_
    funext ⟨⟨r, _⟩, pool''⟩
    cases r <;> rfl

end Served

end ConnectionPool

/-! ## Clients -/

/-- A `Client` or an `AsyncClient`; `opened` is the flag of the latter. -/
structure Client where
  config : ClientConfig
  pool : ConnectionPool
  serverRole : Str := []
  authRequired : Bool := false
  opened : Bool := false
  deriving DecidableEq

namespace Client

/-- What both constructors do before any connection is opened. -/
def create (load : LoadFiles) (options : ClientOptions) (address : Str) : Except Exc Client := do
  if options.tls.isSome ∧ options.sslContext then throw .valueError
  else do
    let _ ← options.tls.mapM (TLSConfig.buildContext load)
    let pool ← ConnectionPool.new options.poolSize
    return { config := options.config address, pool := pool }

variable (t : Transport)

/-- Runs code of the client's pool. -/
def pooled {α : Type} (m : PoolM Connection α) : Method Net Client Exc α := fun client => do
  let ((r, _), pool) ← (m ()).handled (ConnectionPool.serve t client.config.settings) client.pool
  return (r, { client with pool := pool })

/-- Opens the pool and records the role that the server granted. -/
def connectAll : Method Net Client Exc Unit := do
  let client ← Method.self
  pooled t (Pool.prefill client.pool.size)
  let deadline ← Deadline.start (some client.config.settings.connectTimeout)
  let connection ← pooled t (Pool.acquire deadline)
  Method.update fun client =>
    { client with serverRole := connection.role, authRequired := connection.authRequired }
  pooled t (Pool.release connection)

/-- `Client.__init__`. -/
def init {κ : Type} (load : LoadFiles) (options : ClientOptions) (address : Str) :
    Method Net κ Exc Client := do
  let client ← Method.ofExcept (create load options address)
  let (outcome, client) ← (connectAll t).on client
  match outcome with
  | .ok _ => return client
  | .error e => throw e

/-- `AsyncClient.open`. -/
def openPool : Method Net Client Exc Unit := do
  if (← Method.self).opened then return ()
  else do
    connectAll t
    Method.update fun client => { client with opened := true }

/-- `close` and `aclose`; the queue is empty after as many rounds as it has slots. -/
def close : Method Net Client Exc Unit := do
  let client ← Method.self
  pooled t (Pool.close (client.pool.slots.length + 1))

end Client

/-! ## Sharded clients -/

namespace ShardedClient

variable (t : Transport)

/-- `for shard in shards: shard.close()`. -/
def closeAll {κ : Type} : List Client → Method Net κ Exc Unit
  | [] => return ()
  | shard :: shards => do
    let (outcome, _) ← (Client.close t).on shard
    Method.ofExcept outcome
    closeAll shards

/-- The loop of `ShardedClient.__init__`, on the shards so far. -/
def construct (load : LoadFiles) (options : ClientOptions) :
    (addresses : List Str) → Method Net (List Client) Exc Unit
  | [] => return ()
  | address :: addresses => do
    let shard ← Client.init t load options address
    Method.update (· ++ [shard])
    construct load options addresses

/-- `ShardedClient.__init__`; it returns the shards. -/
def init (load : LoadFiles) (options : ClientOptions) (addresses : List Str) :
    Method Net Unit Exc (List Client) := do
  if addresses = [] then throw .valueError
  else do
    let (outcome, shards) ← (construct t load options addresses).on []
    match outcome with
    | .ok _ => return shards
    | .error e => do
      closeAll t shards
      throw e

/-- `AsyncShardedClient.__init__`; it returns the shards. -/
def create (load : LoadFiles) (options : ClientOptions) (addresses : List Str) :
    Except Exc (List Client) :=
  if addresses = [] then .error .valueError else addresses.mapM (Client.create load options)

/-- The loop of `AsyncShardedClient.open`, on the shards opened so far. -/
def openEach : (shards : List Client) → Method Net (List Client) Exc Unit
  | [] => return ()
  | shard :: shards => do
    let (outcome, shard) ← (Client.openPool t).on shard
    Method.ofExcept outcome
    Method.update (· ++ [shard])
    openEach shards

/-- `AsyncShardedClient.open`; it returns the shards. -/
def openShards (shards : List Client) : Method Net Unit Exc (List Client) := do
  let (outcome, opened) ← (openEach t shards).on []
  match outcome with
  | .ok _ => return opened
  | .error e => do
    closeAll t opened
    throw e

/-- `AsyncShardedClient.connect`: `open` on a client that was just constructed. -/
def connect (load : LoadFiles) (options : ClientOptions) (addresses : List Str) :
    Method Net Unit Exc (List Client) := do
  let shards ← Method.ofExcept (create load options addresses)
  openShards t shards

end ShardedClient

end FqClient
