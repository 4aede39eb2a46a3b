import FqClient.Commands
import FqClient.Effects.Method
import FqClient.Reconnect
import FqClient.Responses

namespace FqClient

open Effects

/-- A socket of the operating system. -/
abbrev SockId := ℕ

/-- What a connection is constructed with. -/
structure Settings where
  address : Str
  token : Option Str := none
  /-- Whether an `ssl_context` is given. -/
  tls : Bool := false
  serverHostname : Option Str := none
  connectTimeout : ℚ := 5
  deriving DecidableEq

/-- The state of a `Connection` or of an `AsyncConnection`. -/
structure Connection where
  settings : Settings
  sock : Option SockId
  maxMessageSize : ℕ
  role : Str
  authRequired : Bool
  requestInFlight : Bool
  deriving DecidableEq

namespace Connection

/-- `__init__`. -/
def new (settings : Settings) : Connection :=
  ⟨settings, none, defaultMaxMessageSize, [], false, false⟩

def closed (c : Connection) : Bool := c.sock.isNone

/-- An idle connection of a pool, for scripts. -/
def pooled : Connection where
  settings := { address := "db:7".toList }
  sock := some 3
  maxMessageSize := 4096
  role := []
  authRequired := false
  requestInFlight := false

end Connection

/-- An event that a stream yields. -/
inductive StreamEvent
  | limit (event : LimitEvent)
  | quota (event : QuotaEvent)
  deriving DecidableEq

/-! ## The operations -/

/-- An `OSError`: a `TimeoutError`, or another one. -/
inductive OSFault
  | timeout
  | other
  deriving DecidableEq

/-- How `settimeout` may fail: with an `OSError`, or with the `OverflowError` of a time that C does not
hold. -/
inductive SetFault
  | osError
  | overflow
  deriving DecidableEq

/-- The `OverflowError` of `time.sleep`. -/
inductive SleepFault
  | overflow
  deriving DecidableEq

/-- How an `await` under `asyncio.timeout` may fail; `cancelled` is the cancellation of the task. -/
inductive AwaitFault
  | timeout
  | other
  | cancelled
  deriving DecidableEq

/-- `incomplete` is `IncompleteReadError`, the end of the stream. -/
inductive ReadFault
  | timeout
  | other
  | incomplete
  | cancelled
  deriving DecidableEq

/-- How waiting for a pool slot may fail in asyncio. -/
inductive TakeFault
  | timeout
  | cancelled
  deriving DecidableEq

inductive Cancelled
  | cancelled
  deriving DecidableEq

/-- What the consumer of a generator does at a `yield`: asks for the next event, or closes it. -/
inductive Resume
  | next
  | close
  deriving DecidableEq

/-- The operations of the clients on clocks, sockets, streams, pool queues and consumers. -/
inductive NetOp
  | monotonic
  | random
  | sleep (delay : ℚ)
  | asyncSleep (delay : ℚ)
  | createConnection (host : Str) (port : ℕ) (timeout : ℚ)
  | wrapSocket (sock : SockId) (serverHostname : Str)
  | settimeout (sock : SockId) (timeout : Option ℚ)
  | sendall (sock : SockId) (data : Bytes)
  | recv (sock : SockId) (size : ℕ)
  | openConnection (host : Str) (port : ℕ) (serverHostname : Option Str)
  | enterTimeout (delay : Option ℚ)
  | writeDrain (sock : SockId) (data : Bytes)
  | readexactly (sock : SockId) (size : ℕ)
  | closeSocket (sock : SockId)
  | poolClosed
  | getSlot (timeout : Option ℚ)
  | awaitSlot
  | putSlot (slot : Option Connection)
  | shouldStop
  | yieldEvent (event : StreamEvent)
  deriving DecidableEq

@[reducible] def NetOp.Answer : NetOp → Type
  | .monotonic | .random => ℚ
  | .enterTimeout _ | .closeSocket _ | .putSlot _ => Unit
  | .sleep _ => Except SleepFault Unit
  | .asyncSleep _ => Except Cancelled Unit
  | .createConnection _ _ _ => Except OSFault SockId
  | .settimeout _ _ => Except SetFault Unit
  | .wrapSocket _ _ | .sendall _ _ => Except OSFault Unit
  | .recv _ size => Except OSFault {chunk : Bytes // chunk.length ≤ size}
  | .openConnection _ _ _ => Except AwaitFault SockId
  | .writeDrain _ _ => Except AwaitFault Unit
  | .readexactly _ size => Except ReadFault {data : Bytes // data.length = size}
  | .poolClosed | .shouldStop => Bool
  | .getSlot _ => Option (Option Connection)
  | .awaitSlot => Except TakeFault (Option Connection)
  | .yieldEvent _ => Resume

@[reducible] def Net : Interface where
  Op := NetOp
  Ans := NetOp.Answer

/-- A method of a connection, or code that holds one. -/
abbrev ConnM (α : Type) := Method Net Connection Exc α

/-- Performs one operation. -/
def perform {κ : Type} (op : NetOp) : Method Net κ Exc op.Answer := fun c =>
  .call op fun answer => .pure (.ok answer, c)

theorem wpm_perform_op {κ σ : Type} {W : World Net σ} {op : NetOp}
    {Q : Except Exc op.Answer → κ → σ → Prop} {c : κ} {s : σ} :
    wpm W (perform op) Q c s ↔
      W.permits s op ∧ ∀ answer s', W.step s op answer s' → Q (.ok answer) c s' := Iff.rfl

theorem run_perform_op_bind {κ σ α : Type} (h : σ → (op : NetOp) → op.Answer × σ) {op : NetOp}
    (f : op.Answer → Method Net κ Exc α) (c : κ) (s : σ) :
    ((perform op >>= f) c).run h s = (f (h s op).1 c).run h (h s op).2 := rfl

/-! ## Deadlines -/

namespace Deadline

variable {κ : Type}

/-- `Deadline(None)`. -/
def unlimited : Deadline := ⟨none⟩

/-- `Deadline(timeout)`: reads the clock when there is a timeout. -/
def start (timeout : Option ℚ) : Method Net κ Exc Deadline :=
  match timeout with
  | none => return ⟨none⟩
  | some timeout => do
    let now ← perform .monotonic
    return ⟨some (now + timeout)⟩

/-- `remaining()`: reads the clock when there is a deadline. -/
def remaining (d : Deadline) : Method Net κ Exc (Option ℚ) :=
  match d.deadline with
  | none => return none
  | some deadline => do
    let now ← perform .monotonic
    return some (deadline - now)

def expired (d : Deadline) : Method Net κ Exc Bool := do
  match ← d.remaining with
  | some remaining => return decide (remaining ≤ 0)
  | none => return false

def check (d : Deadline) : Method Net κ Exc Unit := do
  if ← d.expired then throw (.timeoutError .deadlineExceeded)

def clamp (d : Deadline) (delay : ℚ) : Method Net κ Exc ℚ := do
  match ← d.remaining with
  | some remaining => return min delay (max remaining 0)
  | none => return delay

end Deadline

end FqClient
