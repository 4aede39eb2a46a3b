import FqClient.Aio.Connection
import FqClient.Client
import FqClient.Sync.Connection

namespace FqClient

open Effects

/-- The two packages of the library, `fq.sync` and `fq.aio`. -/
inductive Package
  | sync
  | aio
  deriving DecidableEq

def Package.transport : Package → Transport
  | .sync => Sync.transport
  | .aio => Aio.transport

/-- An answer to every operation, for scripts that name only the answers that matter: nothing
fails, no time passes, no bytes arrive and the pool is open with nothing in it. -/
def NetOp.calm : (op : NetOp) → op.Answer
  | .monotonic | .random => 0
  | .enterTimeout _ | .closeSocket _ | .putSlot _ => ()
  | .sleep _ | .asyncSleep _ => .ok ()
  | .createConnection _ _ _ => .ok 0
  | .wrapSocket _ _ | .settimeout _ _ | .sendall _ _ => .ok ()
  | .recv _ _ => .ok ⟨[], Nat.zero_le _⟩
  | .openConnection _ _ _ => .ok 0
  | .writeDrain _ _ => .ok ()
  | .readexactly _ _ => .error .incomplete
  | .poolClosed | .shouldStop => false
  | .getSlot _ => none
  | .awaitSlot => .ok none
  | .yieldEvent _ => .next

/-- Commands for an idle connection, for scripts too. -/
def Command.getHit : Command := ⟨encodeUtf8 "GET hit".toList, true⟩

def Command.incrHit : Command := ⟨encodeUtf8 "INCR hit 60".toList, false⟩

/-! ## What the primitives of both transports leave alone -/

/-- An operation that neither writes to a socket, draws, sleeps nor yields. -/
def NetOp.Plain : NetOp → Prop
  | .sendall _ _ | .writeDrain _ _ | .random | .sleep _ | .asyncSleep _ | .yieldEvent _ => False
  | _ => True

/-- An operation that does not write to a socket. -/
def NetOp.NotWrite : NetOp → Prop
  | .sendall _ _ | .writeDrain _ _ => False
  | _ => True

/-- An operation of reading a frame, the clock included. -/
def NetOp.Reading : NetOp → Prop
  | .monotonic | .settimeout _ _ | .recv _ _ | .enterTimeout _ | .readexactly _ _ => True
  | _ => False

/-- An operation of waiting for the next attempt. -/
def NetOp.Waiting : NetOp → Prop
  | .monotonic | .random | .sleep _ | .asyncSleep _ => True
  | _ => False

/-- One sleep of that length. -/
def NetOp.SleepsFor (delay : ℚ) (op : NetOp) : Prop := op = .sleep delay ∨ op = .asyncSleep delay

theorem NetOp.SleepsFor.waiting {delay : ℚ} {op : NetOp} (h : op.SleepsFor delay) :
    op.Waiting := by
  rcases h with rfl | rfl <;> trivial

theorem NetOp.Waiting.notWrite {op : NetOp} (h : op.Waiting) : op.NotWrite := by
  cases op <;> first | exact h.elim | trivial

theorem NetOp.Reading.plain {op : NetOp} (h : op.Reading) : op.Plain := by
  cases op <;> first | exact h | trivial

theorem NetOp.Plain.notWrite {op : NetOp} (h : op.Plain) : op.NotWrite := by
  cases op <;> first | exact h | trivial

/-- Any exception but the `OverflowError` of a delay. -/
def Exc.NotDelay : Exc → Prop
  | .overflowError .delay => False
  | _ => True

/-- Any exception but a lost connection. -/
def Exc.NotLost : Exc → Prop
  | .connectionError _ => False
  | _ => True

/-- An exception of `time.sleep` or `asyncio.sleep`. -/
def Exc.OfSleep : Exc → Prop
  | .valueError | .overflowError .sleep | .cancelled => True
  | _ => False

/-- An exception of waiting for the next attempt. -/
def Exc.OfWaiting : Exc → Prop
  | .timeoutError .deadlineExceeded | .overflowError .delay | .overflowError .sleep | .valueError
  | .cancelled => True
  | _ => False

theorem Exc.OfSleep.ofWaiting {e : Exc} (h : e.OfSleep) : e.OfWaiting := by
  cases e with
  | overflowError site => cases site <;> first | exact h.elim | trivial
  | _ => first | exact h.elim | trivial

theorem Exc.OfSleep.notDelay {e : Exc} (h : e.OfSleep) : e.NotDelay := by
  cases e with
  | overflowError site => cases site <;> first | exact h.elim | trivial
  | _ => first | exact h.elim | trivial

theorem Exc.OfWaiting.notLost {e : Exc} (h : e.OfWaiting) : e.NotLost := by
  cases e <;> first | exact h.elim | trivial

/-- The method only performs plain operations, does not raise the `OverflowError` of a delay, and
leaves its object alone. -/
abbrev Quiet {κ α : Type} (m : Method Net κ Exc α) : Prop := m.Leaves NetOp.Plain Exc.NotDelay

theorem notWrite_of_quiet {κ α : Type} {m : Method Net κ Exc α} (hm : Quiet m) :
    m.Leaves NetOp.NotWrite (fun _ => True) :=
  hm.mono (fun _ => NetOp.Plain.notWrite) fun _ _ => trivial

/-! ## What the pure parts raise -/

/-- An exception of pure code. -/
def Exc.Computed : Exc → Prop
  | .corruptedResponse _ | .protocol _ | .valueError | .valueOutOfRange _
  | .overflowError .frameLength => True
  | _ => False

theorem Exc.Computed.notDelay {e : Exc} (h : e.Computed) : e.NotDelay := by
  cases e with
  | overflowError site => cases site <;> first | exact h.elim | trivial
  | _ => trivial

theorem notDelay_of_computed {α : Type} {r : Except Exc α} (h : Raises Exc.Computed r) :
    Raises Exc.NotDelay r := h.mono fun _ => Exc.Computed.notDelay

theorem raises_checkRequestSize (payload : Bytes) (limit : ℕ) :
    Raises Exc.Computed (checkRequestSize payload limit) :=
  .ite (raises_error trivial) (raises_ok _)

theorem raises_encodeFrame (payload : Bytes) : Raises Exc.Computed (encodeFrame payload) :=
  .ite (raises_ok _) (raises_error trivial)

theorem raises_decodeFrameSize (header : Bytes) (limit : ℕ) :
    Raises Exc.Computed (decodeFrameSize header limit) :=
  .ite (raises_error trivial) (.ite (raises_error trivial) (raises_ok _))

theorem raises_strToInt (s : Str) : Raises Exc.Computed (strToInt s) := by
  refine .ite (raises_error trivial) ?_
  cases s.mapM decimalValue
  · exact raises_error trivial
  · exact raises_ok _

theorem raises_splitAddress (address : Str) : Raises Exc.Computed (splitAddress address) := by
  unfold splitAddress
  split
  · exact raises_error trivial
  · exact .ite (raises_error trivial) ((raises_strToInt _).bind fun _ => raises_ok _)

theorem raises_join (parts : List Part) : Raises Exc.Computed (Commands.join parts) := by
  have hpart : ∀ part : Part, Raises Exc.Computed part.toStr := by
    intro part
    cases part
    · exact raises_ok _
    · exact .ite (raises_ok _) (raises_error trivial)
  have hparts : Raises Exc.Computed (parts.mapM Part.toStr) := by
    induction parts with
    | nil => exact raises_ok _
    | cons part parts ih =>
      rw [List.mapM_cons]
      exact (hpart part).bind fun _ => ih.bind fun _ => raises_ok _
  exact hparts.bind fun _ => raises_ok _

theorem raises_hello (token : Option Str) : Raises Exc.Computed (Commands.hello token) := by
  have hread : ∀ parts, Raises Exc.Computed (Commands.readOnly parts) :=
    fun parts => (raises_join parts).bind fun _ => raises_ok _
  rcases token with _ | _ | ⟨c, cs⟩ <;> exact hread _

theorem raises_parseUint (field : Bytes) : Raises Exc.Computed (parseUint field) :=
  .ite (raises_error trivial) (.ite (raises_error trivial) (raises_ok _))

theorem computed_parseError (data : Bytes) : (parseError data).Computed := by
  unfold parseError
  split
  · trivial
  · split
    · rename_i h
      exact raises_parseUint _ _ h
    · split <;> trivial

theorem raises_okData (payload : Bytes) : Raises Exc.Computed (okData payload) := by
  have hsplit : Raises Exc.Computed (splitResponse payload) := by
    unfold splitResponse
    split
    · exact raises_ok _
    · exact raises_error trivial
  refine hsplit.bind fun parts => .ite (raises_ok _) (.ite ?_ (raises_error trivial))
  exact raises_error (computed_parseError _)

theorem raises_fields (data : Bytes) (expected : ℕ) : Raises Exc.Computed (fields data expected) :=
  .ite (raises_error trivial) (raises_ok _)

theorem raises_parseHello (payload : Bytes) : Raises Exc.Computed (parseHello payload) := by
  refine (raises_okData payload).bind fun data => (raises_fields data 4).bind fun parts => ?_
  refine (raises_parseUint _).bind fun size => .ite (raises_error trivial) ?_
  refine (raises_parseUint _).bind fun version => .bind ?_ fun authRequired => raises_ok _
  exact .ite (raises_ok _) (.ite (raises_ok _) (raises_error trivial))

/-- The method only reads the clock, and only raises that the deadline is exceeded. -/
abbrev Clocks {κ α : Type} (m : Method Net κ Exc α) : Prop :=
  m.Leaves (fun op => op = NetOp.monotonic) fun e => e = .timeoutError .deadlineExceeded

section Clocks
variable {κ : Type}

theorem clocks_remaining (d : Deadline) : Clocks (d.remaining : Method Net κ Exc _) := by
  unfold Deadline.remaining
  split
  · exact .pure _
  · exact .bind (.perform (by exact rfl)) fun _ => .pure _

theorem clocks_start (timeout : Option ℚ) :
    Clocks (Deadline.start timeout : Method Net κ Exc _) := by
  unfold Deadline.start
  split
  · exact .pure _
  · exact .bind (.perform (by exact rfl)) fun _ => .pure _

theorem clocks_check (d : Deadline) : Clocks (d.check : Method Net κ Exc _) := by
  have hexpired : Clocks (d.expired : Method Net κ Exc _) :=
    (clocks_remaining d).bind fun r => by cases r <;> exact .pure _
  exact hexpired.bind fun _ => .ite (.throw rfl) (.pure _)

theorem clocks_clamp (d : Deadline) (delay : ℚ) :
    Clocks (d.clamp delay : Method Net κ Exc _) :=
  (clocks_remaining d).bind fun r => by cases r <;> exact .pure _

end Clocks

section Quiet
variable {κ : Type}

theorem quiet_perform {op : NetOp} (h : op.Plain) : Quiet (perform op : Method Net κ Exc _) :=
  Method.Leaves.perform h

theorem quiet_call {α : Type} {op : NetOp} {f : op.Answer → Method Net κ Exc α} (h : op.Plain)
    (hf : ∀ a, Quiet (f a)) : Quiet (perform op >>= f) := (quiet_perform h).bind hf

theorem Clocks.quiet {α : Type} {m : Method Net κ Exc α} (hm : Clocks m) : Quiet m := by
  refine hm.mono ?_ ?_
  · intro op h
    rw [h]
    trivial
  · intro e h
    rw [h]
    trivial

theorem quiet_remaining (d : Deadline) : Quiet (d.remaining : Method Net κ Exc _) :=
  (clocks_remaining d).quiet

theorem quiet_start (timeout : Option ℚ) : Quiet (Deadline.start timeout : Method Net κ Exc _) :=
  (clocks_start timeout).quiet

theorem quiet_check (d : Deadline) : Quiet (d.check : Method Net κ Exc _) := (clocks_check d).quiet

/-- The method only performs operations of reading and leaves its object alone. -/
abbrev Reads {α : Type} (m : ConnM α) : Prop := m.Leaves NetOp.Reading Exc.NotDelay

theorem Reads.quiet {α : Type} {m : ConnM α} (hm : Reads m) : Quiet m :=
  hm.mono (fun _ => NetOp.Reading.plain) fun _ => id

theorem Clocks.reads {α : Type} {m : ConnM α} (hm : Clocks m) : Reads m := by
  refine hm.mono ?_ ?_
  · intro op h
    rw [h]
    trivial
  · intro e h
    rw [h]
    trivial

theorem reads_call {α : Type} {op : NetOp} {f : op.Answer → ConnM α} (h : op.Reading)
    (hf : ∀ a, Reads (f a)) : Reads (perform op >>= f) := .bind (.perform (by exact h)) hf

theorem reads_requireSocket : Reads requireSocket :=
  Method.Leaves.self.bind fun c => by
    cases c.sock
    · exact .throw trivial
    · exact .pure _

theorem quiet_requireSocket : Quiet requireSocket := reads_requireSocket.quiet

end Quiet

namespace Sync

theorem quiet_dial (host : Str) (port : ℕ) : Quiet (dial host port) := by
  refine Method.Leaves.self.bind fun c => quiet_call trivial fun r => ?_
  rcases r with _ | sock
  · exact .throw trivial
  · refine .ite (quiet_call trivial fun r => ?_) (.pure _)
    cases r
    · exact quiet_call trivial fun _ => .throw trivial
    · exact .pure _

theorem reads_applyTimeout (sock : SockId) (d : Deadline) : Reads (applyTimeout sock d) := by
  refine (clocks_check d).reads.bind fun _ => (clocks_remaining d).reads.bind fun _ => ?_
  refine .ite (.throw trivial) (reads_call trivial fun r => ?_)
  rcases r with (_ | _) | _
  · exact .throw trivial
  · exact .throw trivial
  · exact .pure _

theorem quiet_applyTimeout (sock : SockId) (d : Deadline) : Quiet (applyTimeout sock d) :=
  (reads_applyTimeout sock d).quiet

theorem reads_readLoop (sock : SockId) (size rounds : ℕ) (buffer : Bytes) :
    Reads (readLoop sock size rounds buffer) := by
  induction rounds generalizing buffer with
  | zero => exact .pure _
  | succ rounds ih =>
    refine .ite (reads_call trivial fun r => ?_) (.pure _)
    rcases r with (_ | _) | chunk
    · exact .throw trivial
    · exact .throw trivial
    · exact .ite (.throw trivial) (ih _)

theorem reads_readFrame (d : Deadline) : Reads (readFrame d) := by
  refine reads_requireSocket.bind fun sock => (reads_applyTimeout sock d).bind fun _ => ?_
  refine (reads_readLoop sock _ _ _).bind fun header => Method.Leaves.self.bind fun c => ?_
  refine .bind (.ofExcept (notDelay_of_computed (raises_decodeFrameSize _ _))) fun size => ?_
  exact .ite (.pure _) (reads_readLoop _ _ _ _)

theorem sleep_sleepsFor (delay : ℚ) :
    (sleep delay).Leaves (NetOp.SleepsFor delay) Exc.OfSleep := by
  refine .ite (.throw trivial) (.bind (.perform (by exact Or.inl rfl)) fun r => ?_)
  rcases r with _ | _
  · exact .throw trivial
  · exact .pure _

theorem quiet_take (d : Deadline) : Quiet (take d) := by
  refine (quiet_remaining d).bind fun _ => quiet_call trivial fun r => ?_
  cases r
  · exact .throw trivial
  · exact .pure _

end Sync

namespace Aio

theorem quiet_dial (host : Str) (port : ℕ) : Quiet (dial host port) := by
  refine Method.Leaves.self.bind fun c => quiet_call trivial fun _ => ?_
  refine quiet_call trivial fun r => ?_
  rcases r with (_ | _ | _) | sock
  · exact .throw trivial
  · exact .throw trivial
  · exact .throw trivial
  · exact .pure _

theorem reads_readExactly (sock : SockId) (size : ℕ) : Reads (readExactly sock size) := by
  refine reads_call trivial fun r => ?_
  rcases r with (_ | _ | _ | _) | data
  · exact .throw trivial
  · exact .throw trivial
  · exact .throw trivial
  · exact .throw trivial
  · exact .pure _

theorem reads_readFrame (d : Deadline) : Reads (readFrame d) := by
  refine reads_requireSocket.bind fun sock => (clocks_check d).reads.bind fun _ => ?_
  refine (clocks_remaining d).reads.bind fun _ => reads_call trivial fun _ => ?_
  refine (reads_readExactly sock _).bind fun header => Method.Leaves.self.bind fun c => ?_
  refine .bind (.ofExcept (notDelay_of_computed (raises_decodeFrameSize _ _))) fun size => ?_
  exact .ite (.pure _) (reads_readExactly _ _)

theorem sleep_sleepsFor (delay : ℚ) :
    (sleep delay).Leaves (NetOp.SleepsFor delay) Exc.OfSleep := by
  refine .bind (.perform (by exact Or.inr rfl)) fun r => ?_
  cases r
  · exact .throw trivial
  · exact .pure _

theorem quiet_take (d : Deadline) : Quiet (take d) := by
  refine (quiet_remaining d).bind fun _ => quiet_call trivial fun _ => ?_
  refine quiet_call trivial fun r => ?_
  rcases r with (_ | _) | slot
  · exact .throw trivial
  · exact .throw trivial
  · exact .pure _

end Aio

namespace Package

variable (p : Package)

theorem quiet_dial (host : Str) (port : ℕ) : Quiet (p.transport.dial host port) := by
  cases p
  · exact Sync.quiet_dial host port
  · exact Aio.quiet_dial host port

theorem reads_readFrame (d : Deadline) : Reads (p.transport.readFrame d) := by
  cases p
  · exact Sync.reads_readFrame d
  · exact Aio.reads_readFrame d

theorem quiet_readFrame (d : Deadline) : Quiet (p.transport.readFrame d) :=
  (p.reads_readFrame d).quiet

theorem quiet_take (d : Deadline) : Quiet (p.transport.take d) := by
  cases p
  · exact Sync.quiet_take d
  · exact Aio.quiet_take d

theorem sleep_sleepsFor (delay : ℚ) :
    (p.transport.sleep delay).Leaves (NetOp.SleepsFor delay) Exc.OfSleep := by
  cases p
  · exact Sync.sleep_sleepsFor delay
  · exact Aio.sleep_sleepsFor delay

/-- A backoff only waits, and fails only when it is overdue or cannot wait. -/
theorem backoff_raises (policy : ReconnectPolicy) (attempt : ℕ) (d : Deadline) :
    (p.transport.backoff policy attempt d).Leaves NetOp.Waiting Exc.OfWaiting := by
  have hclocks : ∀ {α : Type} {m : ConnM α}, Clocks m → m.Leaves NetOp.Waiting Exc.OfWaiting := by
    intro α m hm
    refine hm.mono (fun op h => ?_) fun e h => ?_
    · rw [h]
      trivial
    · rw [h]
      trivial
  have hceiling : Raises Exc.OfWaiting (policy.ceiling attempt) := by
    refine Raises.bind ?_ fun _ => raises_ok _
    exact .ite (raises_error trivial) (raises_ok _)
  have hdelay : (policy.delay attempt).Leaves NetOp.Waiting Exc.OfWaiting :=
    .bind (.ofExcept hceiling) fun _ => .bind (.perform (by exact trivial)) fun _ => .pure _
  have hsleep : ∀ delay, (p.transport.sleep delay).Leaves NetOp.Waiting Exc.OfWaiting := by
    intro delay
    exact (p.sleep_sleepsFor delay).mono (fun _ => NetOp.SleepsFor.waiting) fun _ =>
      Exc.OfSleep.ofWaiting
  have hcheck : (d.check : ConnM Unit).Leaves NetOp.Waiting Exc.OfWaiting := hclocks (clocks_check d)
  refine hcheck.bind fun _ => hdelay.bind fun _ => (hclocks (clocks_clamp d _)).bind fun delay => ?_
  exact .ite ((hsleep delay).bind fun _ => hcheck) hcheck

/-- A backoff only waits, and does not fail with a lost connection. -/
theorem backoff_waits (policy : ReconnectPolicy) (attempt : ℕ) (d : Deadline) :
    (p.transport.backoff policy attempt d).Leaves NetOp.Waiting Exc.NotLost :=
  (p.backoff_raises policy attempt d).mono (fun _ => id) fun _ => Exc.OfWaiting.notLost

/-! ## What a connection may do beyond that -/

variable {P : NetOp → Prop} (hP : ∀ op, op.Plain → P op)
include hP

theorem only_of_quiet {κ α : Type} {m : Method Net κ Exc α} (hm : Quiet m) :
    m.Only P Exc.NotDelay := .of_leaves (hm.mono hP fun _ => id)

theorem only_writeRequest {command : Command} (d : Deadline)
    (hwrite : ∀ sock frame, encodeFrame command.payload = .ok frame →
      P (.sendall sock frame) ∧ P (.writeDrain sock frame)) :
    (p.transport.writeRequest command d).Only P Exc.NotDelay := by
  have hquiet : ∀ {κ α : Type} {m : Method Net κ Exc α}, Quiet m → m.Only P Exc.NotDelay :=
    only_of_quiet hP
  have hsize : ∀ c : Connection, Raises Exc.NotDelay
      (checkRequestSize command.payload c.maxMessageSize) := fun c =>
      notDelay_of_computed (raises_checkRequestSize _ _)
  cases p with
  | sync =>
    refine .bind .self fun c => .bind (.ofExcept (hsize c)) fun _ => ?_
    refine .bind (hquiet quiet_requireSocket) fun sock => ?_
    refine .bind (hquiet (Sync.quiet_applyTimeout sock d)) fun _ => ?_
    refine .bind_ofExcept (notDelay_of_computed (raises_encodeFrame _)) fun frame hframe => ?_
    refine .bind (.perform (hwrite sock frame hframe).1) fun r => ?_
    rcases r with (_ | _) | _
    · exact .bind (.update _) fun _ => .throw trivial
    · exact .throw trivial
    · exact .update _
  | aio =>
    refine .bind .self fun c => .bind (.ofExcept (hsize c)) fun _ => ?_
    refine .bind (hquiet quiet_requireSocket) fun sock => .bind (hquiet (quiet_check d)) fun _ => ?_
    refine .bind (hquiet (quiet_remaining d)) fun _ => ?_
    refine .bind (hquiet (quiet_perform (by exact trivial))) fun _ => ?_
    refine .bind_ofExcept (notDelay_of_computed (raises_encodeFrame _)) fun frame hframe => ?_
    refine .bind (.perform (hwrite sock frame hframe).2) fun r => ?_
    rcases r with (_ | _ | _) | _
    · exact .bind (.update _) fun _ => .throw trivial
    · exact .throw trivial
    · exact .throw trivial
    · exact .update _

theorem only_closeConnection : closeConnection.Only P Exc.NotDelay := by
  refine .bind .self fun c => ?_
  cases c.sock
  · exact .pure _
  · exact .bind (.perform (hP _ trivial)) fun _ => .update _

/-- A connect writes HELLO frames only. -/
theorem only_connect
    (hwrite : ∀ token m sock frame, Commands.hello token = .ok m → encodeFrame m.payload = .ok frame →
      P (.sendall sock frame) ∧ P (.writeDrain sock frame)) :
    p.transport.connect.Only P Exc.NotDelay := by
  have hhandshake : p.transport.handshake.Only P Exc.NotDelay := by
    refine .bind .self fun c => .bind_ofExcept (notDelay_of_computed (raises_hello _)) fun m hm => ?_
    refine .bind (only_of_quiet hP (quiet_start _)) fun d => .bind ?_ fun response => ?_
    · refine .bind (only_writeRequest p hP d fun sock frame => hwrite _ m sock frame hm) fun _ => ?_
      refine .bind (only_of_quiet hP (p.quiet_readFrame d)) fun _ => ?_
      exact .bind (.update _) fun _ => .pure _
    · refine .bind (.ofExcept (notDelay_of_computed (raises_parseHello _))) fun info => ?_
      exact .ite (.throw trivial) (.update _)
  refine .bind .self fun c => .bind (.ofExcept (notDelay_of_computed (raises_splitAddress _)))
    fun address => ?_
  refine .bind (only_of_quiet hP (p.quiet_dial _ _)) fun sock => .bind (.update _) fun _ => ?_
  refine .bind_attempt hhandshake fun r hr => ?_
  cases r with
  | error e => exact .bind (only_closeConnection hP) fun _ => .throw (hr e rfl)
  | ok => exact .pure _

theorem only_acquire (settings : Settings) (d : Deadline)
    (hconnect : p.transport.connect.Only P Exc.NotDelay) :
    (p.transport.acquire settings d).Only P Exc.NotDelay := by
  refine .bind (.perform (hP _ trivial)) fun closed => .ite (.throw trivial) ?_
  refine .bind (only_of_quiet hP (p.quiet_take d)) fun slot => ?_
  cases slot with
  | some connection => exact .pure _
  | none =>
    refine .bind_on hconnect fun outcome houtcome => ?_
    rcases outcome with ⟨e | _, connection⟩
    · exact .bind (.perform (hP _ trivial)) fun _ => .throw (houtcome e rfl)
    · exact .pure _

theorem only_release (connection : Connection) :
    (Transport.release connection).Only P Exc.NotDelay := by
  refine .bind (.perform (hP _ trivial)) fun closed => .ite ?_ (.perform (hP _ trivial))
  exact .bind_on (only_closeConnection hP) fun _ _ => .pure _

end Package

end FqClient
