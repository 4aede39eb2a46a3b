import FqClient.Transport

namespace FqClient

open Effects

/-- The settings of a `Client` or of an `AsyncClient`. -/
structure ClientConfig where
  settings : Settings
  timeout : Option ℚ := some 5
  reconnect : ReconnectPolicy := {}
  deriving DecidableEq

/-- A method of a client. -/
abbrev ClientM (α : Type) := Method Net Unit Exc α

def streamPollInterval : ℚ := 1 / 4

/-- `ReconnectPolicy.delay`, which computes its ceiling before it draws. -/
def ReconnectPolicy.delay (policy : ReconnectPolicy) (attempt : ℕ) : ConnM ℚ := do
  let ceiling ← Method.ofExcept (policy.ceiling attempt)
  let rand ← perform .random
  return rand * ceiling

/-- `_deadline`. -/
def ClientConfig.deadline (config : ClientConfig) (timeout : Timeout) :
    ClientM Deadline :=
  Deadline.start (match timeout with
    | .default => config.timeout
    | .unlimited => none
    | .seconds value => some value)

namespace Transport

variable (t : Transport)

/-! ## The pool -/

/-- The first half of `acquire`, up to its `yield`: a slot, and a new connection for an empty one. -/
def acquire (settings : Settings) (deadline : Deadline) : ClientM Connection := do
  if ← perform .poolClosed then throw .poolClosed
  else do
    match ← t.take deadline with
    | some connection => return connection
    | none => do
      let (outcome, connection) ← t.connect.on (Connection.new settings)
      match outcome with
      | .ok _ => return connection
      | .error e => do
        perform (.putSlot none)
        throw e

/-- `_release`. -/
def release (connection : Connection) : ClientM Unit := do
  if ← perform .poolClosed then
    let _ ← closeConnection.on connection
    return ()
  else perform (.putSlot (if connection.closed then none else some connection))

/-- `with self._pool.acquire(deadline) as connection`. -/
def withConnection {α : Type} (settings : Settings) (deadline : Deadline) (body : ConnM α) :
    ClientM α := do
  let connection ← t.acquire settings deadline
  let (outcome, connection) ← body.on connection
  release connection
  Method.ofExcept outcome

/-! ## Calls -/

def backoff (policy : ReconnectPolicy) (attempt : ℕ) (deadline : Deadline) : ConnM Unit := do
  deadline.check
  let delay ← deadline.clamp (← policy.delay attempt)
  if 0 < delay then
    t.sleep delay
  deadline.check

/-- The end of the `except` block of `_with_retry`: a reconnect that fails with a lost connection
is a failure of the next round. -/
def retryReconnect (again : ConnM Bytes) : ConnM Bytes := do
  match ← Method.attempt t.reconnect with
  | .ok _ => again
  | .error (.connectionError _) => again
  | .error e => throw e

/-- `except FQConnectionError` in `_with_retry`, after `attempt` failures before this one. -/
def retryFailed (policy : ReconnectPolicy) (command : Command) (deadline : Deadline)
    (fault : ConnectionFault) (attempt : ℕ) (again : ConnM Bytes) : ConnM Bytes := do
  if (← Method.self).requestInFlight ∧ ¬ command.readOnly then
    throw (.connectionError fault)
  else if policy.exhausted (attempt + 1) then
    throw (.connectionError fault)
  else do
    t.backoff policy (attempt + 1) deadline
    t.retryReconnect again

/-- The `while True` loop of `_with_retry`, with the failures so far. An `FQTimeoutError` is
raised again by the first `except`, so the second one sees only `connectionError`. -/
def withRetry (policy : ReconnectPolicy) (command : Command) (deadline : Deadline)
    (send : Command → Deadline → ConnM Bytes) : (rounds : ℕ) → (attempt : ℕ) → ConnM Bytes
  | 0, _ => Method.halt
  | rounds + 1, attempt => do
    match ← Method.attempt (send command deadline) with
    | .ok response => return response
    | .error (.connectionError fault) =>
      t.retryFailed policy command deadline fault attempt
        (withRetry policy command deadline send rounds (attempt + 1))
    | .error e => throw e

/-- `_execute` up to the parsing of the payload. -/
def request (config : ClientConfig) (rounds : ℕ) (command : Command) (timeout : Timeout) :
    ClientM Bytes := do
  let deadline ← config.deadline timeout
  t.withConnection config.settings deadline
    (t.withRetry config.reconnect command deadline t.send rounds 0)

/-- `_execute`. -/
def execute {α : Type} (config : ClientConfig) (rounds : ℕ) (command : Command)
    (parse : Bytes → Except Exc α) (timeout : Timeout) : ClientM α := do
  let payload ← t.request config rounds command timeout
  Method.ofExcept (parse payload)

/-! ## Streams -/

/-- Asks `should_stop()`; a stream without one asks nothing. -/
def stopped (polled : Bool) : ConnM Bool := if polled then perform .shouldStop else return false

/-- What the loop of a stream does next: send the command, or read the next frame. -/
inductive StreamPhase
  | opening
  | reading

/-- The end of the `except` block in the loop of a stream. -/
def streamReconnect (again : ConnM Unit) : ConnM Unit := do
  match ← Method.attempt t.reconnect with
  | .ok _ => again
  | .error e => if e.isConnectionError then again else throw e

/-- `except FQConnectionError` in the loop of a stream, after `attempt` failures before this one. -/
def streamFailed (policy : ReconnectPolicy) (e : Exc) (attempt : ℕ) (again : ConnM Unit) :
    ConnM Unit := do
  if ¬ e.isConnectionError then throw e
  else if policy.exhausted (attempt + 1) then throw e
  else do
    t.sleep (← policy.delay (attempt + 1))
    t.streamReconnect again

/-- The `while True` loop of `_stream` and, never polled, of `_iter_stream`, with the failures
since the last event. The body of the `for` loop is one round. -/
def streamLoop (policy : ReconnectPolicy) (command : Command)
    (parse : Bytes → Except Exc StreamEvent) (polled : Bool) :
    (rounds : ℕ) → StreamPhase → (attempt : ℕ) → ConnM Unit
  | 0, _, _ => Method.halt
  | rounds + 1, .opening, attempt => do
    if ← stopped polled then return ()
    else do
      match ← Method.attempt (t.openStream command) with
      | .ok _ => streamLoop policy command parse polled rounds .reading attempt
      | .error e =>
        t.streamFailed policy e attempt
          (streamLoop policy command parse polled rounds .opening (attempt + 1))
  | rounds + 1, .reading, attempt => do
    match ← Method.attempt (t.nextFrame (if polled then some streamPollInterval else none)) with
    | .ok (some frame) => do
      let event ← Method.ofExcept (parse frame)
      match ← perform (.yieldEvent event) with
      | .next => streamLoop policy command parse polled rounds .reading 0
      | .close => throw .generatorExit
    | .ok none => do
      if ← stopped polled then return ()
      else streamLoop policy command parse polled rounds .reading attempt
    | .error e =>
      t.streamFailed policy e attempt
        (streamLoop policy command parse polled rounds .opening (attempt + 1))

/-- `_stream` and `_iter_stream`. -/
def stream (config : ClientConfig) (rounds : ℕ) (command : Command)
    (parse : Bytes → Except Exc StreamEvent) (polled : Bool) : ClientM Unit := do
  let deadline ← Deadline.start (some config.settings.connectTimeout)
  t.withConnection config.settings deadline
    (t.streamLoop config.reconnect command parse polled rounds .opening 0)

end Transport

/-- The streams of the clients. -/
inductive Subscription
  | stream
  | pstream (pfx : Str)
  | qstream
  | qpstream (pfx : Str)
  deriving DecidableEq

namespace Subscription

def command : Subscription → Except Exc Command
  | .stream => Commands.stream
  | .pstream pfx => Commands.pstream pfx
  | .qstream => Commands.qstream
  | .qpstream pfx => Commands.qpstream pfx

def parse : Subscription → Bytes → Except Exc StreamEvent
  | .stream, payload | .pstream _, payload => return .limit (← parseLimitEvent payload)
  | .qstream, payload | .qpstream _, payload => return .quota (← parseQuotaEvent payload)

end Subscription

/-- `stream`, `pstream`, `qstream` and `qpstream`, and their `_polled` variants. -/
def Transport.subscribe (t : Transport) (config : ClientConfig) (rounds : ℕ)
    (subscription : Subscription) (polled : Bool) : ClientM Unit := do
  let command ← Method.ofExcept subscription.command
  t.stream config rounds command subscription.parse polled

end FqClient
