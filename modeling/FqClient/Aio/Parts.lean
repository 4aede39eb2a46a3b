import FqClient.Aio.Connection

namespace FqClient.Aio

open Effects

/-! `_write_request` and `_read_frame` in their parts. -/

/-- The check of the deadline, and the limit that is set to it. -/
def enterDeadline (deadline : Deadline) : ConnM Unit := do
  deadline.check
  perform (.enterTimeout (← deadline.remaining))

def writeFrame (sock : SockId) (frame : Bytes) : ConnM Unit := do
  match ← perform (.writeDrain sock frame) with
  | .ok _ => setInFlight true
  | .error .timeout => do
    setInFlight true
    throw (.timeoutError .whileSending)
  | .error .other => throw (.connectionError .lostWhileSending)
  | .error .cancelled => throw .cancelled

def receiveFrame (sock : SockId) : ConnM Bytes := do
  let header ← readExactly sock frameHeaderSize
  let size ← Method.ofExcept (decodeFrameSize header (← Method.self).maxMessageSize)
  if size = 0 then return []
  else readExactly sock size

theorem writeRequest_eq (command : Command) (d : Deadline) : writeRequest command d = (do
    Method.ofExcept (checkRequestSize command.payload (← Method.self).maxMessageSize)
    let sock ← requireSocket
    enterDeadline d
    let frame ← Method.ofExcept (encodeFrame command.payload)
    writeFrame sock frame) := by
  unfold writeRequest enterDeadline
  simp only [bind_assoc]
  all_goals rfl

theorem readFrame_eq (d : Deadline) : readFrame d = (do
    let sock ← requireSocket
    enterDeadline d
    receiveFrame sock) := by
  unfold readFrame enterDeadline
  simp only [bind_assoc]
  all_goals rfl

end FqClient.Aio
