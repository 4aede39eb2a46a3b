import Mathlib.Algebra.Group.Int.Defs
import Mathlib.Algebra.Group.Nat.Defs
import Mathlib.Data.Rat.Defs

namespace FqClient

abbrev Bytes := List UInt8

/-- A Python `str` that encodes: a list of Unicode scalar values. -/
abbrev Str := List Char

def protocolVersion : ℕ := 1

def scanCursorInitial : Str := ['0']

def defaultMaxMessageSize : ℕ := 4096

def maxValue : ℤ := 2 ^ 63 - 1

/-- A Python list holds at most `sys.maxsize` items. -/
def sysMaxsize : ℕ := 2 ^ 63 - 1

theorem two_le_maxsize : 2 ≤ sysMaxsize := by decide

/-- A counter key and its window in seconds. -/
structure CappingKey where
  key : Str
  capping : ℤ
  deriving DecidableEq

/-- A limiter key and its window in seconds. -/
structure LimitKey where
  key : Str
  window : ℤ
  deriving DecidableEq

structure RateLimitResult where
  allowed : Bool
  current : ℕ
  remaining : ℕ
  resetAfter : ℕ
  deriving DecidableEq

structure LimitEvent where
  key : Str
  window : ℕ
  current : ℕ
  resetAfter : ℕ
  deriving DecidableEq

structure QuotaAcquireResult where
  acquired : Bool
  allocated : ℕ
  used : ℕ
  remaining : ℕ
  expiresAfter : ℕ
  deriving DecidableEq

structure QuotaClientInfo where
  clientId : Str
  amount : ℕ
  expiresAt : ℕ
  deriving DecidableEq

structure QuotaInfo where
  limit : ℕ
  used : ℕ
  remaining : ℕ
  clients : List QuotaClientInfo
  deriving DecidableEq

structure ScanKey where
  key : Str
  window : ℕ
  deriving DecidableEq

structure ScanResult where
  cursor : Str
  keys : List ScanKey
  deriving DecidableEq

structure QuotaEvent where
  event : Str
  name : Str
  clientId : Str
  amount : ℕ
  used : ℕ
  remaining : ℕ
  expiresAt : ℕ
  deriving DecidableEq

/-- The sections of an INSPECT report; `summary` is INSPECT without an argument. -/
inductive InspectSection
  | summary | all | wal | dump | repl | engine | streams
  deriving DecidableEq

def InspectSection.value : InspectSection → Str
  | .summary => []
  | .all => "ALL".toList
  | .wal => "WAL".toList
  | .dump => "DUMP".toList
  | .repl => "REPL".toList
  | .engine => "ENGINE".toList
  | .streams => "STREAMS".toList

end FqClient
