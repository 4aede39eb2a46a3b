import FqClient.Transport

namespace FqClient.Sync

open Effects

/-- The first half of `Connection.connect`. -/
def dial (host : Str) (port : ℕ) : ConnM SockId := do
  let settings := (← Method.self).settings
  match ← perform (.createConnection host port settings.connectTimeout) with
  | .error _ => throw (.connectionError (.cannotConnect settings.address))
  | .ok sock =>
    if settings.tls then do
      match ← perform (.wrapSocket sock (settings.hostnameFor host)) with
      | .ok _ => return sock
      | .error _ => do
        perform (.closeSocket sock)
        throw (.connectionError .tlsHandshakeFailed)
    else return sock

/-- `_apply_timeout`; `settimeout` raises `ValueError` on a negative value, and only its `OSError` is
caught. -/
def applyTimeout (sock : SockId) (deadline : Deadline) : ConnM Unit := do
  deadline.check
  let remaining ← deadline.remaining
  if remaining.any (· < 0) then throw .valueError
  else do
    match ← perform (.settimeout sock remaining) with
    | .ok _ => return ()
    | .error .osError => throw (.connectionError .unusable)
    | .error .overflow => throw (.overflowError .timeout)

def writeRequest (command : Command) (deadline : Deadline) : ConnM Unit := do
  Method.ofExcept (checkRequestSize command.payload (← Method.self).maxMessageSize)
  let sock ← requireSocket
  applyTimeout sock deadline
  let frame ← Method.ofExcept (encodeFrame command.payload)
  match ← perform (.sendall sock frame) with
  | .ok _ => setInFlight true
  | .error .timeout => do
    setInFlight true
    throw (.timeoutError .whileSending)
  | .error .other => throw (.connectionError .lostWhileSending)

/-- The loop of `_read_exactly`: each of its rounds adds a byte, so there are at most `size`. -/
def readLoop (sock : SockId) (size : ℕ) : (rounds : ℕ) → (buffer : Bytes) → ConnM Bytes
  | 0, buffer => return buffer
  | rounds + 1, buffer =>
    if buffer.length < size then do
      match ← perform (.recv sock (size - buffer.length)) with
      | .error .timeout => throw (.timeoutError .whileReading)
      | .error .other => throw (.connectionError .lostWhileReading)
      | .ok chunk =>
        if chunk.1 = [] then throw (.connectionError .closedByServer)
        else readLoop sock size rounds (buffer ++ chunk.1)
    else return buffer

def readExactly (sock : SockId) (size : ℕ) : ConnM Bytes := readLoop sock size size []

def readFrame (deadline : Deadline) : ConnM Bytes := do
  let sock ← requireSocket
  applyTimeout sock deadline
  let header ← readExactly sock frameHeaderSize
  let size ← Method.ofExcept (decodeFrameSize header (← Method.self).maxMessageSize)
  if size = 0 then return []
  else readExactly sock size

/-- `time.sleep` raises `ValueError` on a negative delay. -/
def sleep (delay : ℚ) : ConnM Unit := do
  if delay < 0 then throw .valueError
  else do
    match ← perform (.sleep delay) with
    | .ok _ => return ()
    | .error .overflow => throw (.overflowError .sleep)

/-- `ConnectionPool._take`. -/
def take (deadline : Deadline) : Method Net Unit Exc (Option Connection) := do
  let remaining ← deadline.remaining
  match ← perform (.getSlot (remaining.map (max · 0))) with
  | some slot => return slot
  | none => throw (.timeoutError .noFreeConnection)

/-- `fq.sync`. -/
def transport : Transport where
  dial := dial
  writeRequest := writeRequest
  readFrame := readFrame
  sleep := sleep
  take := take

end FqClient.Sync
