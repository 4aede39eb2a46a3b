import FqClient.Transport

namespace FqClient.Aio

open Effects

/-- The first half of `AsyncConnection.connect`. -/
def dial (host : Str) (port : ℕ) : ConnM SockId := do
  let settings := (← Method.self).settings
  perform (.enterTimeout (some settings.connectTimeout))
  let serverHostname := if settings.tls then some (settings.hostnameFor host) else none
  match ← perform (.openConnection host port serverHostname) with
  | .ok sock => return sock
  | .error .timeout => throw (.timeoutError (.connectTimedOut settings.address))
  | .error .other => throw (.connectionError (.cannotConnect settings.address))
  | .error .cancelled => throw .cancelled

def writeRequest (command : Command) (deadline : Deadline) : ConnM Unit := do
  Method.ofExcept (checkRequestSize command.payload (← Method.self).maxMessageSize)
  let sock ← requireSocket
  deadline.check
  perform (.enterTimeout (← deadline.remaining))
  let frame ← Method.ofExcept (encodeFrame command.payload)
  match ← perform (.writeDrain sock frame) with
  | .ok _ => setInFlight true
  | .error .timeout => do
    setInFlight true
    throw (.timeoutError .whileSending)
  | .error .other => throw (.connectionError .lostWhileSending)
  | .error .cancelled => throw .cancelled

/-- `readexactly`, with the exceptions of `_read_frame`. -/
def readExactly (sock : SockId) (size : ℕ) : ConnM Bytes := do
  match ← perform (.readexactly sock size) with
  | .ok data => return data.1
  | .error .timeout => throw (.timeoutError .whileReading)
  | .error .incomplete => throw (.connectionError .closedByServer)
  | .error .other => throw (.connectionError .lostWhileReading)
  | .error .cancelled => throw .cancelled

def readFrame (deadline : Deadline) : ConnM Bytes := do
  let sock ← requireSocket
  deadline.check
  perform (.enterTimeout (← deadline.remaining))
  let header ← readExactly sock frameHeaderSize
  let size ← Method.ofExcept (decodeFrameSize header (← Method.self).maxMessageSize)
  if size = 0 then return []
  else readExactly sock size

def sleep (delay : ℚ) : ConnM Unit := do
  match ← perform (.asyncSleep delay) with
  | .ok _ => return ()
  | .error _ => throw .cancelled

/-- `AsyncConnectionPool._take`. -/
def take (deadline : Deadline) : Method Net Unit Exc (Option Connection) := do
  perform (.enterTimeout (← deadline.remaining))
  match ← perform .awaitSlot with
  | .ok slot => return slot
  | .error .timeout => throw (.timeoutError .noFreeConnection)
  | .error .cancelled => throw .cancelled

/-- `fq.aio`. -/
def transport : Transport where
  dial := dial
  writeRequest := writeRequest
  readFrame := readFrame
  sleep := sleep
  take := take

end FqClient.Aio
