import FqClient.Text

namespace FqClient

/-! Decoders of whole frame payloads. -/

/-- The byte of an ASCII character. -/
def ascii (c : Char) : UInt8 := UInt8.ofNat c.toNat

def respDelimiter : UInt8 := ascii '|'

def fieldDelimiter : UInt8 := ascii ';'

def tagOk : Bytes := encodeUtf8 "ok".toList

def tagErr : Bytes := encodeUtf8 "err".toList

def tagNxt : Bytes := encodeUtf8 "nxt".toList

/-- `data.partition(b"|")`; `none` stands for a missing delimiter. -/
def partitionBytes (data : Bytes) : Option (Bytes × Bytes) :=
  match data.dropWhile (· ≠ respDelimiter) with
  | [] => none
  | _ :: rest => some (data.takeWhile (· ≠ respDelimiter), rest)

/-- The range of the second byte, by the lead byte; `none` for a byte that cannot lead. -/
def secondRange (lead : UInt8) : Option (UInt8 × UInt8) :=
  if 0xC2 ≤ lead ∧ lead ≤ 0xDF then some (0x80, 0xBF)
  else if lead = 0xE0 then some (0xA0, 0xBF)
  else if lead = 0xED then some (0x80, 0x9F)
  else if 0xE1 ≤ lead ∧ lead ≤ 0xEF then some (0x80, 0xBF)
  else if lead = 0xF0 then some (0x90, 0xBF)
  else if 0xF1 ≤ lead ∧ lead ≤ 0xF3 then some (0x80, 0xBF)
  else if lead = 0xF4 then some (0x80, 0x8F)
  else none

/-- How many bytes follow a lead byte. -/
def tailLength (lead : UInt8) : ℕ := if lead < 0xE0 then 1 else if lead < 0xF0 then 2 else 3

def replacementChar : Char := Char.ofNat 0xFFFD

/-- The bits that a byte of a longer sequence adds. -/
def shiftIn (code : ℕ) (byte : UInt8) : ℕ := 64 * code + byte.toNat % 64

/-- A sequence being read: its code so far, how many bytes it still needs, and the range of the
next one. -/
structure Pending where
  code : ℕ
  needed : ℕ
  low : UInt8
  high : UInt8

/-- What the first byte of a sequence gives, and what it leaves pending. -/
def leadByte (byte : UInt8) : Str × Option Pending :=
  if byte < 0x80 then ([Char.ofNat byte.toNat], none)
  else
    match secondRange byte with
    | some (low, high) =>
      ([], some ⟨byte.toNat % 2 ^ (6 - tailLength byte), tailLength byte, low, high⟩)
    | none => ([replacementChar], none)

/-- One byte; a sequence that cannot go on gives one replacement character. -/
def feedByte : Option Pending → UInt8 → Str × Option Pending
  | none, byte => leadByte byte
  | some pending, byte =>
    if pending.low ≤ byte ∧ byte ≤ pending.high then
      if pending.needed = 1 then ([Char.ofNat (shiftIn pending.code byte)], none)
      else ([], some ⟨shiftIn pending.code byte, pending.needed - 1, 0x80, 0xBF⟩)
    else (replacementChar :: (leadByte byte).1, (leadByte byte).2)

/-- `bytes.decode("utf-8", "replace")`. -/
def decodeReplace : Option Pending → Bytes → Str
  | none, [] => []
  | some _, [] => [replacementChar]
  | pending, byte :: rest =>
    (feedByte pending byte).1 ++ decodeReplace (feedByte pending byte).2 rest

def text (field : Bytes) : Str := decodeReplace none field

def splitResponse (payload : Bytes) : Except Exc (Bytes × Bytes) :=
  match partitionBytes payload with
  | some parts => .ok parts
  | none => .error (.corruptedResponse (.noDelimiter payload))

/-- An ASCII digit. -/
def byteIsDigit (byte : UInt8) : Bool := ascii '0' ≤ byte ∧ byte ≤ ascii '9'

/-- The number that a run of decimal digits stands for. -/
def digitsValue (field : Bytes) : ℕ := field.foldl (fun n byte => 10 * n + (byte.toNat - 48)) 0

/-- `int(field)` raises when the field is longer than the interpreter's limit on decimal
conversions, of which 0 is none; every decoder below works under such a limit. -/
def parseUint (field : Bytes) (limit : ℕ := intMaxStrDigits) : Except Exc ℕ :=
  if field = [] ∨ ¬ field.all byteIsDigit then .error (.corruptedResponse (.notUnsigned field))
  else if limit ≠ 0 ∧ limit < field.length then .error .valueError
  else .ok (digitsValue field)

/-- The exception that an `err|` response stands for, or the error in its body. -/
def parseError (data : Bytes) (limit : ℕ := intMaxStrDigits) : Exc :=
  match partitionBytes data with
  | none => .corruptedResponse (.errorWithoutMessage data)
  | some (codeField, message) =>
    match parseUint codeField limit with
    | .error e => e
    | .ok code =>
      if 9999 < code then .corruptedResponse (.errorCodeOutOfRange code)
      else .protocol (protocolError code (text message))

def okData (payload : Bytes) (limit : ℕ := intMaxStrDigits) : Except Exc Bytes := do
  let (tag, data) ← splitResponse payload
  if tag = tagOk then return data
  else if tag = tagErr then throw (parseError data limit)
  else throw (.corruptedResponse (.unknownResponseTag tag))

def parseBoolField (field : Bytes) : Except Exc Bool :=
  if field = [ascii '1'] then .ok true
  else if field = [ascii '0'] then .ok false
  else .error (.corruptedResponse (.notBoolean field))

/-- The body split into fields, when there are as many as expected. -/
def fields (data : Bytes) (expected : ℕ) : Except Exc (List Bytes) :=
  let parts := data.splitOn fieldDelimiter
  if parts.length ≠ expected then
    .error (.corruptedResponse (.fieldCount expected parts.length data))
  else .ok parts

def parseValue (payload : Bytes) (limit : ℕ := intMaxStrDigits) : Except Exc ℕ := do
  parseUint (← okData payload limit) limit

def parseBool (payload : Bytes) (limit : ℕ := intMaxStrDigits) : Except Exc Bool := do
  parseBoolField (← okData payload limit)

def parseValues (payload : Bytes) (limit : ℕ := intMaxStrDigits) : Except Exc (List ℕ) := do
  ((← okData payload limit).splitOn fieldDelimiter).mapM fun field => parseUint field limit

/-- The MDEL response. -/
def parseBools (payload : Bytes) (limit : ℕ := intMaxStrDigits) : Except Exc (List Bool) := do
  return (← parseValues payload limit).map fun value => value == 1

/-- The negotiated connection parameters. -/
structure HelloInfo where
  version : ℕ
  maxMessageSize : ℕ
  authRequired : Bool
  role : Str
  deriving DecidableEq

def parseHello (payload : Bytes) (limit : ℕ := intMaxStrDigits) : Except Exc HelloInfo := do
  let parts ← fields (← okData payload limit) 4
  let size ← parseUint (parts.getD 1 []) limit
  if size = 0 then throw (.corruptedResponse .zeroMaxMessageSize)
  else
    return ⟨← parseUint (parts.getD 0 []) limit, size, ← parseBoolField (parts.getD 2 []),
      text (parts.getD 3 [])⟩

def parseRateLimit (payload : Bytes) (limit : ℕ := intMaxStrDigits) :
    Except Exc RateLimitResult := do
  let parts ← fields (← okData payload limit) 4
  return ⟨← parseBoolField (parts.getD 0 []), ← parseUint (parts.getD 1 []) limit,
    ← parseUint (parts.getD 2 []) limit, ← parseUint (parts.getD 3 []) limit⟩

def parseQuotaAcquire (payload : Bytes) (limit : ℕ := intMaxStrDigits) :
    Except Exc QuotaAcquireResult := do
  let parts ← fields (← okData payload limit) 5
  return ⟨← parseBoolField (parts.getD 0 []), ← parseUint (parts.getD 1 []) limit,
    ← parseUint (parts.getD 2 []) limit, ← parseUint (parts.getD 3 []) limit,
    ← parseUint (parts.getD 4 []) limit⟩

/-- The client triples come first: `range(3, len(parts), 3)`. -/
def parseQuotaInfo (payload : Bytes) (limit : ℕ := intMaxStrDigits) : Except Exc QuotaInfo := do
  let parts := (← okData payload limit).splitOn fieldDelimiter
  if parts.length < 3 ∨ (parts.length - 3) % 3 ≠ 0 then
    throw (.corruptedResponse (.quotaInfo payload))
  else do
    let clients ← (List.range' 3 ((parts.length - 3) / 3) 3).mapM fun index =>
      return ⟨text (parts.getD index []), ← parseUint (parts.getD (index + 1) []) limit,
        ← parseUint (parts.getD (index + 2) []) limit⟩
    return ⟨← parseUint (parts.getD 0 []) limit, ← parseUint (parts.getD 1 []) limit,
      ← parseUint (parts.getD 2 []) limit, clients⟩

/-- The pairs of key and window: `range(1, len(parts), 2)`. -/
def parseScan (payload : Bytes) (limit : ℕ := intMaxStrDigits) : Except Exc ScanResult := do
  let parts := (← okData payload limit).splitOn fieldDelimiter
  if (parts.length - 1) % 2 ≠ 0 then throw (.corruptedResponse (.scan payload))
  else do
    let keys ← (List.range' 1 ((parts.length - 1) / 2) 2).mapM fun index =>
      return ⟨text (parts.getD index []), ← parseUint (parts.getD (index + 1) []) limit⟩
    return ⟨text (parts.getD 0 []), keys⟩

def parseLimitEvent (payload : Bytes) (limit : ℕ := intMaxStrDigits) : Except Exc LimitEvent := do
  let parts ← fields (← okData payload limit) 4
  return ⟨text (parts.getD 0 []), ← parseUint (parts.getD 1 []) limit,
    ← parseUint (parts.getD 2 []) limit, ← parseUint (parts.getD 3 []) limit⟩

def parseQuotaEvent (payload : Bytes) (limit : ℕ := intMaxStrDigits) : Except Exc QuotaEvent := do
  let parts ← fields (← okData payload limit) 7
  return ⟨text (parts.getD 0 []), text (parts.getD 1 []), text (parts.getD 2 []),
    ← parseUint (parts.getD 3 []) limit, ← parseUint (parts.getD 4 []) limit,
    ← parseUint (parts.getD 5 []) limit, ← parseUint (parts.getD 6 []) limit⟩

example : parseHello (encodeUtf8 "ok|1;4096;0;admin".toList) =
    .ok ⟨1, 4096, false, "admin".toList⟩ := by decide

example : text [0x61, 0xE2, 0x82, 0xAC, 0xE2, 0x82, 0x41] =
    ['a', '€', replacementChar, 'A'] := by decide

end FqClient
