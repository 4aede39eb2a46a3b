import FqClient.Chunked
import FqClient.Framing
import FqClient.Network

namespace FqClient

open Effects

/-- `split_address`: `rpartition(":")`, and a port of digits. -/
def splitAddress (address : Str) : Except Exc (Str × ℕ) :=
  match address.reverse.dropWhile (· ≠ ':') with
  | [] => .error .valueError
  | _ :: host =>
    let port := (address.reverse.takeWhile (· ≠ ':')).reverse
    if ¬ isDigit port then .error .valueError
    else do return (host.reverse, ← strToInt port)

/-- `self._server_hostname or host`. -/
def Settings.hostnameFor (settings : Settings) (host : Str) : Str :=
  match settings.serverHostname with
  | some (c :: cs) => c :: cs
  | _ => host

/-- What the synchronous and the asyncio transport do in their own ways. The rest of the two
connections, pools and clients is the same code up to `await`. -/
structure Transport where
  /-- Opens a socket, with TLS when the settings ask for it. -/
  dial : (host : Str) → (port : ℕ) → ConnM SockId
  /-- `_write_request`. -/
  writeRequest : Command → Deadline → ConnM Unit
  /-- `_read_frame`. -/
  readFrame : Deadline → ConnM Bytes
  /-- `time.sleep` or `asyncio.sleep`. -/
  sleep : ℚ → ConnM Unit
  /-- `_take`. -/
  take : Deadline → Method Net Unit Exc (Option Connection)

def requireSocket : ConnM SockId := do
  match (← Method.self).sock with
  | some sock => return sock
  | none => throw (.connectionError .closed)

theorem wpm_requireSocket {σ : Type} {W : World Net σ}
    {Q : Except Exc SockId → Connection → σ → Prop} {c : Connection} {s : σ} :
    wpm W requireSocket Q c s ↔
      match c.sock with
      | some sock => Q (.ok sock) c s
      | none => Q (.error (.connectionError .closed)) c s := by
  unfold requireSocket
  rw [wpm_bind, wpm_self]
  dsimp only
  cases c.sock <;> rfl

/-- `close`; what the socket raises on closing is ignored. -/
def closeConnection : ConnM Unit := do
  match (← Method.self).sock with
  | none => return ()
  | some sock => do
    perform (.closeSocket sock)
    Method.update fun c => { c with sock := none }

theorem wpm_closeConnection {σ : Type} {W : World Net σ}
    {Q : Except Exc Unit → Connection → σ → Prop} {c : Connection} {s : σ} :
    wpm W closeConnection Q c s ↔
      match c.sock with
      | some sock => W.permits s (.closeSocket sock) ∧
          ∀ s', W.step s (.closeSocket sock) () s' → Q (.ok ()) { c with sock := none } s'
      | none => Q (.ok ()) { c with sock := none } s := by
  unfold closeConnection
  rw [wpm_bind, wpm_self]
  dsimp only
  cases hsock : c.sock with
  | none =>
    have hc : { c with sock := none } = c := by rw [← hsock]
    rw [hc]
    exact Iff.rfl
  | some sock =>
    refine and_congr_right fun _ => ⟨fun h s' => h () s', fun h _ s' => h s'⟩

def setInFlight (flag : Bool) : ConnM Unit := Method.update fun c => { c with requestInFlight := flag }

namespace Transport

variable (t : Transport)

/-- Sends a command and reads one response frame. -/
def send (command : Command) (deadline : Deadline) : ConnM Bytes := do
  t.writeRequest command deadline
  let response ← t.readFrame deadline
  setInFlight false
  return response

/-- The loop of `send_chunked`. -/
def readChunks (deadline : Deadline) : (rounds : ℕ) → ChunkAssembler → ConnM Bytes
  | 0, _ => Method.halt
  | rounds + 1, body => do
    let frame ← t.readFrame deadline
    let (response, body) ← Method.ofExcept (body.feed frame)
    match response with
    | some response => do
      setInFlight false
      return response
    | none => readChunks deadline rounds body

/-- Sends a command and assembles a response spanning several frames. -/
def sendChunked (rounds : ℕ) (command : Command) (deadline : Deadline) : ConnM Bytes := do
  t.writeRequest command deadline
  t.readChunks deadline rounds []

def handshake : ConnM Unit := do
  let settings := (← Method.self).settings
  let command ← Method.ofExcept (Commands.hello settings.token)
  let deadline ← Deadline.start (some settings.connectTimeout)
  let response ← t.send command deadline
  let info ← Method.ofExcept (parseHello response)
  if info.version ≠ protocolVersion then
    throw (.corruptedResponse (.negotiatedVersion info.version))
  else
    Method.update fun c => { c with
      maxMessageSize := info.maxMessageSize, authRequired := info.authRequired, role := info.role }

/-- Opens the connection and runs the handshake. -/
def connect : ConnM Unit := do
  let (host, port) ← Method.ofExcept (splitAddress (← Method.self).settings.address)
  let sock ← t.dial host port
  Method.update fun c => { c with
    sock := some sock, maxMessageSize := defaultMaxMessageSize, requestInFlight := false }
  match ← Method.attempt t.handshake with
  | .ok _ => return ()
  | .error e => do
    closeConnection
    throw e

def reconnect : ConnM Unit := do
  closeConnection
  t.connect

/-- `open_stream` up to its first frame. -/
def openStream (command : Command) : ConnM Unit := t.writeRequest command Deadline.unlimited

/-- The next item of `open_stream`; `none` when no frame arrived within the poll interval. -/
def nextFrame (pollInterval : Option ℚ) : ConnM (Option Bytes) := do
  match pollInterval with
  | none => return some (← t.readFrame Deadline.unlimited)
  | some pollInterval => do
    let deadline ← Deadline.start (some pollInterval)
    match ← Method.attempt (t.readFrame deadline) with
    | .ok frame => return some frame
    | .error (.timeoutError _) => return none
    | .error e => throw e

end Transport

/-- How a call reads its answer: as one frame, or in chunks. -/
inductive Sender
  | send
  | sendChunked
  deriving DecidableEq

def Transport.sender (t : Transport) (rounds : ℕ) : Sender → Command → Deadline → ConnM Bytes
  | .send => t.send
  | .sendChunked => t.sendChunked rounds

end FqClient
