import FqClient.Types

namespace FqClient

/-- The classes of `err|` responses, picked by the range of the code. -/
inductive ProtocolErrorClass
  | protocolError | requestError | argumentError | authError | authenticationFailedError
  | quotaError | instanceStateError | internalError
  deriving DecidableEq

structure ProtocolError where
  cls : ProtocolErrorClass
  code : ℕ
  message : Str
  deriving DecidableEq

namespace ErrorCode

def messageSizeExceedsMaximum : ℕ := 1004

def authenticationFailed : ℕ := 3002

end ErrorCode

/-- `_RANGES`. -/
def errorRange : ℕ → ProtocolErrorClass
  | 1 => .requestError
  | 2 => .argumentError
  | 3 => .authError
  | 4 => .quotaError
  | 5 => .instanceStateError
  | 9 => .internalError
  | _ => .protocolError

def protocolError (code : ℕ) (message : Str) : ProtocolError :=
  if code = ErrorCode.authenticationFailed then ⟨.authenticationFailedError, code, message⟩
  else ⟨errorRange (code / 1000), code, message⟩

/-- Where an `FQConnectionError` is raised. The text that the operating system adds to the
message is left out. -/
inductive ConnectionFault
  | cannotConnect (address : Str)
  | tlsHandshakeFailed
  | lostWhileSending
  | lostWhileReading
  | closedByServer
  | unusable
  | closed
  deriving DecidableEq

/-- Where an `FQTimeoutError` is raised. -/
inductive TimeoutSite
  | deadlineExceeded
  | whileSending
  | whileReading
  | connectTimedOut (address : Str)
  | noFreeConnection
  deriving DecidableEq

/-- What a `CorruptedResponseError` reports. -/
inductive Corruption
  | frameHeader (length : ℕ)
  | frameTooLong (size limit : ℕ)
  | noDelimiter (payload : Bytes)
  | errorWithoutMessage (data : Bytes)
  | errorCodeOutOfRange (code : ℕ)
  | unknownResponseTag (tag : Bytes)
  | unknownFrameTag (tag : Bytes)
  | notUnsigned (field : Bytes)
  | notBoolean (field : Bytes)
  | fieldCount (expected got : ℕ) (data : Bytes)
  | zeroMaxMessageSize
  | quotaInfo (payload : Bytes)
  | scan (payload : Bytes)
  | inspectNotJson
  | inspectNotObject
  | negotiatedVersion (version : ℕ)
  | malformedShardCursor (cursor : Str)
  | shardCursorOutOfRange (shard shardCount : ℕ)
  deriving DecidableEq

/-- Where an `OverflowError` is raised: `to_bytes` on a length, `**` on a float, or `settimeout` and
`time.sleep` on a time that C does not hold. -/
inductive OverflowSite
  | frameLength
  | delay
  | timeout
  | sleep
  deriving DecidableEq

/-- Every exception the client can raise: the `FQError` classes, and the built-in ones that its
calls into Python let through. -/
inductive Exc
  | connectionError (fault : ConnectionFault)
  | timeoutError (site : TimeoutSite)
  | corruptedResponse (what : Corruption)
  | poolClosed
  | shardIndexError (index : ℤ) (shardCount : ℕ)
  | valueOutOfRange (value : ℤ)
  | protocol (error : ProtocolError)
  | valueError
  | osError
  | assertionError
  | overflowError (site : OverflowSite)
  | recursionError
  | queueEmpty
  | queueFull
  | cancelled
  | generatorExit
  deriving DecidableEq

/-- The subclasses of `FQError`. -/
def Exc.isFQError : Exc → Bool
  | .connectionError _ | .timeoutError _ | .corruptedResponse _ | .poolClosed
  | .shardIndexError _ _ | .valueOutOfRange _ | .protocol _ => true
  | .valueError | .osError | .assertionError | .overflowError _ | .recursionError | .queueEmpty
  | .queueFull | .cancelled | .generatorExit => false

/-- `except FQTimeoutError`. -/
def Exc.isTimeout : Exc → Bool
  | .timeoutError _ => true
  | _ => false

/-- `except FQConnectionError`, of which `FQTimeoutError` is a subclass. -/
def Exc.isConnectionError : Exc → Bool
  | .connectionError _ | .timeoutError _ => true
  | _ => false

end FqClient
