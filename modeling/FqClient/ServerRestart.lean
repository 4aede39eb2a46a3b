import FqClient.Packages
import FqClient.Sync.Reading
import Mathlib.Tactic.Linarith
import Mathlib.Tactic.NormNum

namespace FqClient

/-- The timeout that a call runs under. -/
def ClientConfig.seconds (config : ClientConfig) : Timeout → Option ℚ
  | .default => config.timeout
  | .unlimited => none
  | .seconds value => some value

namespace ServerRestart

open Effects

/-! ## A server that restarts -/

/-- A server that restarted while a connection was pooled, and is healthy from then on. -/
structure Restart where
  /-- The socket that the restart killed. -/
  dead : SockId
  /-- The write, counted from the restart, that the dead socket still accepts, if there is one. -/
  accepts : Option ℕ
  /-- The response payload to a request payload. -/
  answer : Bytes → Bytes
  /-- When a call reads the clock first, when its reconnect does, and a time that it is over by. -/
  begins : ℕ → ℚ
  opens : ℕ → ℚ
  ends : ℕ → ℚ

/-- The pool slot, the calls finished, and what became of the sockets. -/
structure Aftermath where
  slot : Option Connection
  turn : ℕ
  /-- Whether the call at hand has opened a connection. -/
  reopened : Bool
  /-- The writes that the dead socket has seen. -/
  writes : ℕ
  newest : Option SockId
  /-- What the newest socket has received and nobody has read yet. -/
  unread : Bytes

namespace Restart

variable (r : Restart)

/-- The answer to a request frame, as a frame. -/
def response (frame : Bytes) : Bytes :=
  beBytes (r.answer (frame.drop frameHeaderSize)).length ++ r.answer (frame.drop frameHeaderSize)

/-- The earliest time that the clock may show. -/
def since (s : Aftermath) : ℚ := if s.reopened then r.opens s.turn else r.begins s.turn

/-- A write: the dead socket accepts one at most and raises `OSError` on the others, and every
request on the newest socket is answered at once. -/
def writes (s : Aftermath) (sock : SockId) (data : Bytes) (answer : Except OSFault Unit)
    (s' : Aftermath) : Prop :=
  if sock = r.dead then
    answer = (if r.accepts = some s.writes then .ok () else .error .other) ∧
      s' = { s with writes := s.writes + 1 }
  else s.newest = some sock ∧ answer = .ok () ∧ s' = { s with unread := s.unread ++ r.response data }

/-- A read: the dead socket reports the end of the stream, and the newest one returns any part of
what is there. -/
def reads (s : Aftermath) (sock : SockId) (size : ℕ)
    (answer : Except OSFault {chunk : Bytes // chunk.length ≤ size}) (s' : Aftermath) : Prop :=
  if sock = r.dead then answer = .ok ⟨[], Nat.zero_le size⟩ ∧ s' = s
  else s.newest = some sock ∧ ∃ chunk rest, answer = .ok chunk ∧ chunk.1 ≠ [] ∧
    s.unread = chunk.1 ++ rest ∧ s' = { s with unread := rest }

/-- What the restarted server and the pool answer; new sockets connect. -/
def step (s : Aftermath) : (op : NetOp) → op.Answer → Aftermath → Prop
  | .monotonic, now, s' => r.since s ≤ now ∧ now < r.ends s.turn ∧ s' = s
  | .random, rand, s' => 0 ≤ rand ∧ rand < 1 ∧ s' = s
  | .sleep _, answer, s' => answer = .ok () ∧ s' = s
  | .createConnection _ _ _, answer, s' => ∃ sock, sock ≠ r.dead ∧ answer = .ok sock ∧
    s' = { s with reopened := true, newest := some sock, unread := [] }
  | .wrapSocket _ _, answer, s' => answer = .ok () ∧ s' = s
  | .settimeout _ _, answer, s' => answer = .ok () ∧ s' = s
  | .sendall sock data, answer, s' => r.writes s sock data answer s'
  | .recv sock size, answer, s' => r.reads s sock size answer s'
  | .closeSocket _, _, s' => s' = s
  | .poolClosed, closed, s' => closed = false ∧ s' = s
  | .getSlot _, answer, s' => answer = some s.slot ∧ s' = s
  | .putSlot slot, _, s' => s' = { s with slot := slot, turn := s.turn + 1, reopened := false }
  | _, _, _ => False

def world : World Net Aftermath where
  permits _ _ := True
  step := r.step

end Restart

/-! ## Calls after the restart -/

/-- Calls one after the other, and how each of them ends. -/
def session (config : ClientConfig) (rounds : ℕ) :
    List (Command × Timeout) → ClientM (List (Except Exc Bytes))
  | [] => return []
  | call :: calls => do
    let result ← Method.attempt (Sync.transport.request config rounds call.1 call.2)
    let results ← session config rounds calls
    return result :: results

/-- No call outlasts its timeout. -/
def Restart.InTime (r : Restart) (config : ClientConfig) : ℕ → List (Command × Timeout) → Prop
  | _, [] => True
  | turn, call :: calls =>
    (∀ timeout, config.seconds call.2 = some timeout → r.ends turn - r.begins turn ≤ timeout) ∧
      r.InTime config (turn + 1) calls

/-- A reconnect succeeds: HELLO is answered as the protocol asks, within the connect timeout. -/
structure Restart.Reopens (r : Restart) (settings : Settings) (info : HelloInfo) : Prop where
  address : ∃ host, splitAddress settings.address = .ok host
  hello : ∃ m, Commands.hello settings.token = .ok m ∧
    parseHello (r.answer m.payload) = .ok info ∧ m.payload.length ≤ defaultMaxMessageSize ∧
    (r.answer m.payload).length ≤ defaultMaxMessageSize
  version : info.version = protocolVersion
  clock : ∀ turn, r.begins turn < r.ends turn ∧ r.opens turn < r.ends turn ∧
    r.ends turn - r.opens turn ≤ settings.connectTimeout

/-- The request and its response fit the limit of the connection, and a frame. -/
structure Restart.Fits (r : Restart) (limit : ℕ) (command : Command) : Prop where
  request : command.payload.length ≤ limit
  requestFrame : command.payload.length < 2 ^ 32
  response : (r.answer command.payload).length ≤ limit
  responseFrame : (r.answer command.payload).length < 2 ^ 32

/-- The server is healthy for these calls and this connection: reconnects succeed, requests and
responses fit the limits, and neither time nor the budget for one retry runs out. -/
structure Restart.Healthy (r : Restart) (config : ClientConfig) (c : Connection)
    (info : HelloInfo) (calls : List (Command × Timeout)) : Prop where
  reopens : r.Reopens c.settings info
  fits : ∀ call ∈ calls,
    call.1.payload.length ≤ c.maxMessageSize ∧ r.Fits info.maxMessageSize call.1
  time : r.InTime config 0 calls
  budget : config.reconnect.exhausted 1 = false

section Rules
variable {r : Restart} {s : Aftermath}

theorem live_op {κ : Type} {op : NetOp} {Q : Except Exc op.Answer → κ → Aftermath → Prop} {c : κ}
    (hanswer : ∃ answer s', r.step s op answer s')
    (h : ∀ answer s', r.step s op answer s' → Q (.ok answer) c s') :
    wpm r.world.live (perform op) Q c s := ⟨⟨trivial, hanswer⟩, h⟩

/-! ## Time does not run out -/

/-- The call is over before the deadline. -/
def Restart.Within (r : Restart) (s : Aftermath) (d : Deadline) : Prop :=
  r.since s < r.ends s.turn ∧ ∀ due, d.deadline = some due → r.ends s.turn ≤ due

section Clock
variable {κ : Type} {c : κ} {d : Deadline}

theorem live_monotonic {Q : Except Exc ℚ → κ → Aftermath → Prop} (hclock : r.since s < r.ends s.turn)
    (h : ∀ now, r.since s ≤ now → now < r.ends s.turn → Q (.ok now) c s) :
    wpm r.world.live (perform .monotonic) Q c s := by
  refine live_op ⟨r.since s, s, le_refl _, hclock, rfl⟩ ?_
  rintro now s' ⟨hge, hlt, hs'⟩
  rw [hs']
  exact h now hge hlt

theorem live_start {timeout : Option ℚ} {Q : Except Exc Deadline → κ → Aftermath → Prop}
    (hclock : r.since s < r.ends s.turn)
    (htime : ∀ value, timeout = some value → r.ends s.turn - r.since s ≤ value)
    (h : ∀ d, r.Within s d → Q (.ok d) c s) :
    wpm r.world.live (Deadline.start timeout) Q c s := by
  cases timeout with
  | none =>
    refine h ⟨none⟩ ⟨hclock, fun due hdue => ?_⟩
    cases hdue
  | some value =>
    unfold Deadline.start
    dsimp only
    rw [wpm_bind]
    refine live_monotonic hclock fun now hge _ => ?_
    refine h ⟨some (now + value)⟩ ⟨hclock, fun due hdue => ?_⟩
    have hdue' : now + value = due := Option.some.inj hdue
    have hvalue := htime value rfl
    linarith

theorem live_remaining {Q : Except Exc (Option ℚ) → κ → Aftermath → Prop} (hd : r.Within s d)
    (h : ∀ remaining, (∀ left, remaining = some left → 0 < left) → Q (.ok remaining) c s) :
    wpm r.world.live d.remaining Q c s := by
  unfold Deadline.remaining
  cases hdue : d.deadline with
  | none =>
    refine h none fun left hleft => ?_
    cases hleft
  | some due =>
    dsimp only
    rw [wpm_bind]
    refine live_monotonic hd.1 fun now _ hlt => ?_
    refine h (some (due - now)) fun left hleft => ?_
    have hleft' : due - now = left := Option.some.inj hleft
    have hle := hd.2 due hdue
    linarith

theorem live_check {Q : Except Exc Unit → κ → Aftermath → Prop} (hd : r.Within s d)
    (h : Q (.ok ()) c s) : wpm r.world.live d.check Q c s := by
  unfold Deadline.check Deadline.expired
  rw [wpm_bind, wpm_bind]
  refine live_remaining hd fun remaining hpos => ?_
  cases remaining with
  | none => exact h
  | some left =>
    have hnot : ¬ left ≤ 0 := not_le.mpr (hpos left rfl)
    simp only [wpm_pure, decide_eq_true_eq, if_neg hnot]
    exact h

theorem live_clamp {delay : ℚ} {Q : Except Exc ℚ → κ → Aftermath → Prop} (hd : r.Within s d)
    (h : ∀ delay', Q (.ok delay') c s) : wpm r.world.live (d.clamp delay) Q c s := by
  unfold Deadline.clamp
  rw [wpm_bind]
  refine live_remaining hd fun remaining _ => ?_
  cases remaining with
  | none => exact h _
  | some left => exact h _

end Clock

/-! ## A request on a new socket -/

/-- The connection uses the newest socket, and nothing is left to read on it. -/
structure Alive (r : Restart) (s : Aftermath) (sock : SockId) : Prop where
  fresh : sock ≠ r.dead
  newest : s.newest = some sock

section Alive
variable {sock : SockId} {c : Connection} {d : Deadline}

theorem live_applyTimeout {Q : Except Exc Unit → Connection → Aftermath → Prop}
    (hd : r.Within s d) (h : Q (.ok ()) c s) :
    wpm r.world.live (Sync.applyTimeout sock d) Q c s := by
  unfold Sync.applyTimeout
  rw [wpm_bind]
  refine live_check hd ?_
  dsimp only
  rw [wpm_bind]
  refine live_remaining hd fun remaining hpos => ?_
  have hnot : ¬ remaining.any (· < 0) = true := by
    cases remaining with
    | none => simp
    | some left => simpa using (hpos left rfl).le
  dsimp only
  rw [if_neg hnot, wpm_bind]
  refine live_op ⟨.ok (), s, rfl, rfl⟩ ?_
  rintro answer s' ⟨rfl, rfl⟩
  exact h

theorem reads_fresh {size : ℕ} {answer : Except OSFault {chunk : Bytes // chunk.length ≤ size}}
    {s' : Aftermath} (halive : Alive r s sock) : r.reads s sock size answer s' ↔
      ∃ chunk rest, answer = .ok chunk ∧ chunk.1 ≠ [] ∧ s.unread = chunk.1 ++ rest ∧
        s' = { s with unread := rest } := by
  unfold Restart.reads
  rw [if_neg halive.fresh]
  exact and_iff_right halive.newest

theorem writes_fresh {data : Bytes} {answer : Except OSFault Unit} {s' : Aftermath}
    (halive : Alive r s sock) : r.writes s sock data answer s' ↔
      answer = .ok () ∧ s' = { s with unread := s.unread ++ r.response data } := by
  unfold Restart.writes
  rw [if_neg halive.fresh]
  exact and_iff_right halive.newest

/-- The bytes that the newest socket has received. -/
def supply (r : Restart) (hfresh : sock ≠ r.dead) : Sync.Supply r.world.live sock where
  unread s := if s.newest = some sock then s.unread else []
  after s n := { s with unread := s.unread.drop n }
  within s n := s.newest = some sock ∧ n ≤ s.unread.length
  after_zero _ := rfl
  after_after s m n := by rw [List.drop_drop]
  unread_after s n _ := by
    dsimp only
    split
    · rfl
    · exact List.drop_nil.symm
  within_le s m n hle h := ⟨h.1, hle.trans h.2⟩
  within_after s m n h := by
    refine ⟨h.1, ?_⟩
    have hle := h.2
    rw [List.length_drop]
    omega
  permits s size hpos h := by
    have halive : Alive r s sock := ⟨hfresh, h.1⟩
    have hchunk : s.unread.take size ≠ [] := by
      apply List.ne_nil_of_length_pos
      rw [List.length_take_of_le h.2]
      exact hpos
    refine ⟨trivial, .ok ⟨s.unread.take size, List.length_take_le _ _⟩,
      { s with unread := s.unread.drop size }, ?_⟩
    exact (reads_fresh halive).mpr ⟨_, _, rfl, hchunk, (List.take_append_drop _ _).symm, rfl⟩
  step s size answer s' hmore hstep := by
    by_cases hnewest : s.newest = some sock
    · obtain ⟨chunk, rest, hanswer, hchunk, hsplit, hs'⟩ := (reads_fresh ⟨hfresh, hnewest⟩).mp hstep
      rw [if_pos hnewest]
      refine ⟨chunk, hanswer, hchunk, ⟨rest, hsplit.symm⟩, ?_⟩
      rw [hs', hsplit, List.drop_left]
    · exact absurd (if_neg hnewest) hmore

theorem live_readFrame {body : Bytes} {Q : Except Exc Bytes → Connection → Aftermath → Prop}
    (halive : Alive r s sock) (hsock : c.sock = some sock) (hd : r.Within s d)
    (hunread : s.unread = beBytes body.length ++ body) (hlength : body.length < 2 ^ 32)
    (hfits : body.length ≤ c.maxMessageSize) (h : Q (.ok body) c { s with unread := [] }) :
    wpm r.world.live (Sync.readFrame d) Q c s := by
  have hsize : s.unread.length = frameHeaderSize + body.length := by
    rw [hunread, List.length_append, length_beBytes]
  rw [Sync.readFrame_eq, wpm_bind, wpm_requireSocket, hsock]
  dsimp only
  rw [wpm_bind]
  refine live_applyTimeout hd ?_
  have hreceived : (supply r halive.fresh).unread s = beBytes body.length ++ body ++ [] := by
    rw [List.append_nil, ← hunread]
    exact if_pos halive.newest
  refine Sync.supply_receiveFrame (supply r halive.fresh) hreceived ⟨halive.newest, hsize.ge⟩
    hlength hfits ?_
  change Q _ _ { s with unread := s.unread.drop _ }
  rw [← hsize, List.drop_length]
  exact h

/-- A request that fits is written, whatever comes of the write. -/
theorem live_writeRequest {command : Command} {Q : Except Exc Unit → Connection → Aftermath → Prop}
    (hsock : c.sock = some sock) (hd : r.Within s d)
    (hfits : command.payload.length ≤ c.maxMessageSize) (hframe : command.payload.length < 2 ^ 32)
    (hanswer : ∃ answer s',
      r.writes s sock (beBytes command.payload.length ++ command.payload) answer s')
    (h : ∀ answer s',
      r.writes s sock (beBytes command.payload.length ++ command.payload) answer s' →
      match answer with
      | .ok _ => Q (.ok ()) { c with requestInFlight := true } s'
      | .error .timeout =>
        Q (.error (.timeoutError .whileSending)) { c with requestInFlight := true } s'
      | .error .other => Q (.error (.connectionError .lostWhileSending)) c s') :
    wpm r.world.live (Sync.writeRequest command d) Q c s := by
  have hsize : checkRequestSize command.payload c.maxMessageSize = .ok () :=
    if_neg (not_lt.mpr hfits)
  unfold Sync.writeRequest
  rw [wpm_bind, wpm_self]
  dsimp only
  rw [wpm_bind, wpm_ofExcept, hsize]
  dsimp only
  rw [wpm_bind, wpm_requireSocket, hsock]
  dsimp only
  rw [wpm_bind]
  refine live_applyTimeout hd ?_
  dsimp only
  rw [wpm_bind, wpm_ofExcept, encodeFrame_ok hframe]
  dsimp only
  rw [wpm_bind]
  refine live_op hanswer fun answer s' hstep => ?_
  have hnext := h answer s' hstep
  cases answer with
  | ok => exact hnext
  | error fault => cases fault <;> exact hnext

/-- A request on a new socket is answered. -/
theorem live_send {command : Command} {Q : Except Exc Bytes → Connection → Aftermath → Prop}
    (halive : Alive r s sock) (hsock : c.sock = some sock) (hd : r.Within s d)
    (hunread : s.unread = []) (hframe : command.payload.length < 2 ^ 32)
    (hfits : command.payload.length ≤ c.maxMessageSize)
    (hanswer : (r.answer command.payload).length < 2 ^ 32)
    (hanswerFits : (r.answer command.payload).length ≤ c.maxMessageSize)
    (h : Q (.ok (r.answer command.payload)) { c with requestInFlight := false } s) :
    wpm r.world.live (Sync.transport.send command d) Q c s := by
  have hresponse : r.response (beBytes command.payload.length ++ command.payload) =
      beBytes (r.answer command.payload).length ++ r.answer command.payload := by
    unfold Restart.response
    rw [List.drop_left' (length_beBytes _)]
  unfold Transport.send
  rw [wpm_bind]
  refine live_writeRequest hsock hd hfits hframe
    ⟨.ok (), _, (writes_fresh halive).mpr ⟨rfl, rfl⟩⟩ fun answer s' hstep => ?_
  obtain ⟨rfl, rfl⟩ := (writes_fresh halive).mp hstep
  rw [hunread, List.nil_append, hresponse]
  dsimp only
  rw [wpm_bind]
  refine live_readFrame ⟨halive.fresh, halive.newest⟩ hsock hd rfl hanswer hanswerFits ?_
  have hs : { s with unread := [] } = s := by rw [← hunread]
  dsimp only
  rw [hs, wpm_bind]
  exact h

end Alive

/-! ## The reconnect -/

/-- A connection with the restarted server, in between two requests. -/
structure Serving (r : Restart) (info : HelloInfo) (c : Connection) (s : Aftermath) : Prop where
  sock : ∃ sock, c.sock = some sock ∧ Alive r s sock
  size : c.maxMessageSize = info.maxMessageSize
  unread : s.unread = []

section Reconnect
variable {info : HelloInfo} {c : Connection} {sock : SockId}

theorem since_lt (h : r.Reopens c.settings info) (s : Aftermath) : r.since s < r.ends s.turn := by
  unfold Restart.since
  split
  · exact (h.clock s.turn).2.1
  · exact (h.clock s.turn).1

theorem live_handshake {Q : Except Exc Unit → Connection → Aftermath → Prop}
    (h : r.Reopens c.settings info) (halive : Alive r s sock) (hsock : c.sock = some sock)
    (hsize : c.maxMessageSize = defaultMaxMessageSize) (hunread : s.unread = [])
    (hreopened : s.reopened = true)
    (hQ : ∀ c', Serving r info c' s → c'.requestInFlight = false → Q (.ok ()) c' s) :
    wpm r.world.live Sync.transport.handshake Q c s := by
  obtain ⟨m, hm, hparse, hfits, hanswer⟩ := h.hello
  have hclock : r.since s < r.ends s.turn := since_lt h s
  have htime : r.ends s.turn - r.since s ≤ c.settings.connectTimeout := by
    unfold Restart.since
    rw [if_pos hreopened]
    exact (h.clock s.turn).2.2
  have hsmall : defaultMaxMessageSize < 2 ^ 32 := by decide
  unfold Transport.handshake
  rw [wpm_bind, wpm_self]
  dsimp only
  rw [wpm_bind, wpm_ofExcept, hm]
  dsimp only
  rw [wpm_bind]
  refine live_start hclock (fun value hvalue => ?_) fun d hd => ?_
  · have he : c.settings.connectTimeout = value := Option.some.inj hvalue
    rwa [← he]
  dsimp only
  rw [wpm_bind]
  have hpayload : m.payload.length < 2 ^ 32 := lt_of_le_of_lt hfits hsmall
  have hresponse : (r.answer m.payload).length < 2 ^ 32 := lt_of_le_of_lt hanswer hsmall
  rw [← hsize] at hfits hanswer
  refine live_send halive hsock hd hunread hpayload hfits hresponse hanswer ?_
  dsimp only
  rw [wpm_bind, wpm_ofExcept, hparse]
  dsimp only
  rw [if_neg (not_not_intro h.version), wpm_update]
  exact hQ _ ⟨⟨sock, hsock, halive⟩, rfl, hunread⟩ rfl

theorem live_dial {host : Str} {port : ℕ} {Q : Except Exc SockId → Connection → Aftermath → Prop}
    (hQ : ∀ sock, sock ≠ r.dead →
      Q (.ok sock) c { s with reopened := true, newest := some sock, unread := [] }) :
    wpm r.world.live (Sync.dial host port) Q c s := by
  unfold Sync.dial
  rw [wpm_bind, wpm_self]
  dsimp only
  rw [wpm_bind]
  refine live_op ⟨.ok (r.dead + 1), _, r.dead + 1, Nat.succ_ne_self r.dead, rfl, rfl⟩ ?_
  rintro answer s' ⟨sock, hsock, rfl, rfl⟩
  dsimp only
  split
  · rw [wpm_bind]
    refine live_op ⟨.ok (), _, rfl, rfl⟩ ?_
    rintro answer s' ⟨rfl, rfl⟩
    exact hQ sock hsock
  · exact hQ sock hsock

/-- A reconnect succeeds, and with it the next request. -/
theorem live_reconnect {Q : Except Exc Unit → Connection → Aftermath → Prop}
    (h : r.Reopens c.settings info)
    (hQ : ∀ c' s', Serving r info c' s' → c'.requestInFlight = false → s'.turn = s.turn →
      s'.reopened = true → Q (.ok ()) c' s') :
    wpm r.world.live Sync.transport.reconnect Q c s := by
  obtain ⟨⟨host, port⟩, haddress⟩ := h.address
  have hconnect : wpm r.world.live Sync.transport.connect Q { c with sock := none } s := by
    unfold Transport.connect
    rw [wpm_bind, wpm_self]
    dsimp only
    rw [wpm_bind, wpm_ofExcept, haddress]
    dsimp only
    rw [wpm_bind]
    refine live_dial fun sock hsock => ?_
    dsimp only
    rw [wpm_bind, wpm_update]
    dsimp only
    rw [wpm_bind, wpm_attempt]
    refine live_handshake h ⟨hsock, rfl⟩ rfl rfl rfl rfl fun c' hserving hflag => ?_
    exact hQ c' _ hserving hflag rfl rfl
  unfold Transport.reconnect
  rw [wpm_bind, wpm_closeConnection]
  cases c.sock with
  | none => exact hconnect
  | some sock =>
    refine ⟨⟨trivial, (), s, rfl⟩, fun s' hs' => ?_⟩
    rw [hs']
    exact hconnect

end Reconnect

/-! ## One call -/

section Call
variable {info : HelloInfo} {c : Connection} {d : Deadline} {command : Command}
  {policy : ReconnectPolicy}

theorem ceiling_first (policy : ReconnectPolicy) :
    policy.ceiling 1 = .ok (min policy.maxDelay (policy.initial * 1)) := by
  have hpow : floatPow policy.multiplier 0 = .ok 1 := by
    unfold floatPow
    rw [pow_zero, abs_of_pos one_pos, if_neg (not_le.mpr (one_lt_pow₀ (by norm_num) (by norm_num)))]
  unfold ReconnectPolicy.ceiling
  rw [hpow]
  rfl

theorem live_backoff {Q : Except Exc Unit → Connection → Aftermath → Prop} (hd : r.Within s d)
    (h : Q (.ok ()) c s) : wpm r.world.live (Sync.transport.backoff policy 1 d) Q c s := by
  unfold Transport.backoff ReconnectPolicy.delay
  rw [wpm_bind]
  refine live_check hd ?_
  dsimp only
  rw [wpm_bind, wpm_bind, wpm_ofExcept, ceiling_first]
  dsimp only
  rw [wpm_bind]
  refine live_op ⟨0, s, le_refl _, by norm_num, rfl⟩ ?_
  rintro rand s' ⟨-, -, rfl⟩
  dsimp only [wpm_pure]
  rw [wpm_pure]
  dsimp only
  rw [wpm_bind]
  refine live_clamp hd fun delay => ?_
  dsimp only
  split
  · rename_i hpos
    rw [wpm_bind]
    change wpm r.world.live (Sync.sleep delay) _ c s'
    unfold Sync.sleep
    rw [if_neg hpos.le.not_gt]
    rw [wpm_bind]
    refine live_op ⟨.ok (), s', rfl, rfl⟩ ?_
    rintro answer s' ⟨rfl, rfl⟩
    exact live_check hd h
  · exact live_check hd h

/-- A request on a connection with the restarted server. -/
theorem live_withRetry_serving {Q : Except Exc Bytes → Connection → Aftermath → Prop}
    (rounds attempt : ℕ) (hserving : Serving r info c s) (hd : r.Within s d)
    (hfits : r.Fits info.maxMessageSize command)
    (h : ∀ c', Serving r info c' s → Q (.ok (r.answer command.payload)) c' s) :
    wpm r.world.live
      (Sync.transport.withRetry policy command d Sync.transport.send (rounds + 1) attempt) Q c s := by
  obtain ⟨sock, hsock, halive⟩ := hserving.sock
  have hrequest : command.payload.length ≤ c.maxMessageSize := by
    rw [hserving.size]
    exact hfits.request
  have hresponse : (r.answer command.payload).length ≤ c.maxMessageSize := by
    rw [hserving.size]
    exact hfits.response
  unfold Transport.withRetry
  rw [wpm_bind, wpm_attempt]
  refine live_send halive hsock hd hserving.unread hfits.requestFrame hrequest hfits.responseFrame
    hresponse ?_
  exact h _ ⟨⟨sock, hsock, halive⟩, hserving.size, hserving.unread⟩

/-- A request on the dead socket loses the connection; it leaves the flag up if it was up before or
if the socket took the write. -/
theorem live_send_dead {Q : Except Exc Bytes → Connection → Aftermath → Prop}
    (hsock : c.sock = some r.dead) (hd : r.Within s d)
    (hfits : command.payload.length ≤ c.maxMessageSize) (hframe : command.payload.length < 2 ^ 32)
    (h : ∀ fault, Q (.error (.connectionError fault))
      { c with requestInFlight := c.requestInFlight || decide (r.accepts = some s.writes) }
      { s with writes := s.writes + 1 }) :
    wpm r.world.live (Sync.transport.send command d) Q c s := by
  unfold Transport.send
  rw [wpm_bind]
  have hwrites : ∀ data answer s', r.writes s r.dead data answer s' ↔
      answer = (if r.accepts = some s.writes then .ok () else .error .other) ∧
        s' = { s with writes := s.writes + 1 } := by
    intro data answer s'
    unfold Restart.writes
    rw [if_pos rfl]
  refine live_writeRequest hsock hd hfits hframe ⟨_, _, (hwrites _ _ _).mpr ⟨rfl, rfl⟩⟩
    fun answer s' hstep => ?_
  obtain ⟨rfl, rfl⟩ := (hwrites _ _ _).mp hstep
  by_cases haccepts : r.accepts = some s.writes
  · -- the write went through, and the read finds the end of the stream
    rw [decide_eq_true haccepts, Bool.or_true] at h
    rw [if_pos haccepts]
    dsimp only
    rw [wpm_bind]
    change wpm r.world.live (Sync.readFrame d) _ _ _
    unfold Sync.readFrame
    rw [wpm_bind, wpm_requireSocket, hsock]
    dsimp only
    rw [wpm_bind]
    refine live_applyTimeout hd ?_
    dsimp only
    rw [wpm_bind]
    have hreads : ∀ size answer s₁ s', r.reads s₁ r.dead size answer s' ↔
        answer = .ok ⟨[], Nat.zero_le size⟩ ∧ s' = s₁ := by
      intro size answer s₁ s'
      unfold Restart.reads
      rw [if_pos rfl]
    change wpm r.world.live (perform (.recv r.dead (frameHeaderSize - 0)) >>= _) _ _ _
    rw [wpm_bind]
    refine live_op ⟨_, _, (hreads _ _ _ _).mpr ⟨rfl, rfl⟩⟩ fun answer s' hstep => ?_
    obtain ⟨rfl, rfl⟩ := (hreads _ _ _ _).mp hstep
    rw [hsock] at h
    exact h .closedByServer
  · rw [decide_eq_false haccepts, Bool.or_false] at h
    rw [if_neg haccepts]
    exact h .lostWhileSending

/-- Whether a mutating request on the dead socket is given up: the flag is up already, or the socket
takes the write. -/
def Restart.Stuck (r : Restart) (c : Connection) (s : Aftermath) : Bool :=
  c.requestInFlight || decide (r.accepts = some s.writes)

theorem stuck_of_flag (h : c.requestInFlight = true) : r.Stuck c s = true := by
  unfold Restart.Stuck
  rw [h]
  rfl

/-- A request on the dead socket fails when it is mutating and stuck; otherwise it reconnects and is
answered. -/
theorem live_withRetry_dead {Q : Except Exc Bytes → Connection → Aftermath → Prop} (rounds : ℕ)
    (hsock : c.sock = some r.dead) (hd : r.Within s d) (hreopens : r.Reopens c.settings info)
    (hbudget : policy.exhausted 1 = false) (hsize : command.payload.length ≤ c.maxMessageSize)
    (hfits : r.Fits info.maxMessageSize command)
    (hgiven : r.Stuck c s = true → command.readOnly = false → ∀ fault,
      Q (.error (.connectionError fault)) { c with requestInFlight := true }
        { s with writes := s.writes + 1 })
    (hhealed : r.Stuck c s = false ∨ command.readOnly = true → ∀ c' s', Serving r info c' s' →
      s'.turn = s.turn → Q (.ok (r.answer command.payload)) c' s') :
    wpm r.world.live
      (Sync.transport.withRetry policy command d Sync.transport.send (rounds + 2) 0) Q c s := by
  unfold Transport.withRetry
  rw [wpm_bind, wpm_attempt]
  refine live_send_dead hsock hd hsize hfits.requestFrame fun fault => ?_
  dsimp only [Transport.retryFailed]
  rw [wpm_bind, wpm_self]
  change wpm _ (if r.Stuck c s = true ∧ ¬ command.readOnly = true then _ else _) _ _ _
  by_cases hgive : r.Stuck c s = true ∧ ¬ command.readOnly = true
  · rw [if_pos hgive]
    have hstuck : (c.requestInFlight || decide (r.accepts = some s.writes)) = true := hgive.1
    rw [hstuck]
    exact hgiven hgive.1 (by simpa using hgive.2) fault
  · rw [if_neg hgive, hbudget]
    -- the request may be sent again: the socket has refused it, or it only reads
    have hcase : r.Stuck c s = false ∨ command.readOnly = true := by
      by_cases hstuck : r.Stuck c s = true
      · exact Or.inr (not_not.mp fun hno => hgive ⟨hstuck, hno⟩)
      · exact Or.inl (Bool.eq_false_iff.mpr hstuck)
    have hd' : r.Within { s with writes := s.writes + 1 } d := hd
    rw [if_neg Bool.false_ne_true, wpm_bind]
    refine live_backoff hd' ?_
    dsimp only [Transport.retryReconnect]
    rw [wpm_bind, wpm_attempt]
    refine live_reconnect hreopens fun c' s' hserving _ hturn hreopened => ?_
    have hd'' : r.Within s' d := by
      refine ⟨since_lt hreopens s', fun due hdue => ?_⟩
      rw [hturn]
      exact hd.2 due hdue
    exact live_withRetry_serving rounds 1 hserving hd'' hfits fun c'' hserving' =>
      hhealed hcase c'' s' hserving' hturn

end Call

/-! ## A session -/

section Session
variable {info : HelloInfo} {config : ClientConfig} {c : Connection}

/-- A call takes the connection of the slot and puts it back. -/
theorem live_request {command : Command} {timeout : Timeout}
    {Q : Except Exc Bytes → Unit → Aftermath → Prop} (rounds : ℕ) (hslot : s.slot = some c)
    (hclock : r.since s < r.ends s.turn)
    (htime : ∀ value, config.seconds timeout = some value → r.ends s.turn - r.since s ≤ value)
    (hbody : ∀ d, r.Within s d → wpm r.world.live
      (Sync.transport.withRetry config.reconnect command d Sync.transport.send rounds 0)
      (fun result c' s' => c'.closed = false ∧
        Q result () { s' with slot := some c', turn := s'.turn + 1, reopened := false }) c s) :
    wpm r.world.live (Sync.transport.request config rounds command timeout) Q () s := by
  unfold Transport.request
  rw [wpm_bind]
  refine live_start hclock htime fun d hd => ?_
  dsimp only [Transport.withConnection, Transport.acquire]
  rw [wpm_bind, wpm_bind]
  refine live_op ⟨false, s, rfl, rfl⟩ ?_
  rintro closed s' ⟨rfl, rfl⟩
  dsimp only
  rw [if_neg Bool.false_ne_true, wpm_bind]
  change wpm r.world.live (Sync.take d) _ () s'
  unfold Sync.take
  rw [wpm_bind]
  refine live_remaining hd fun remaining _ => ?_
  dsimp only
  rw [wpm_bind]
  refine live_op ⟨some s'.slot, s', rfl, rfl⟩ ?_
  rintro answer s₁ ⟨rfl, rfl⟩
  -- nobody else has the connection
  rw [hslot]
  dsimp only
  rw [wpm_pure]
  dsimp only
  rw [wpm_pure]
  dsimp only
  rw [wpm_bind, wpm_on]
  refine wpm_mono (hbody d hd) ?_
  rintro result c' s₂ ⟨hopen, hQ⟩
  dsimp only [Transport.release]
  rw [wpm_bind, wpm_bind]
  refine live_op ⟨false, s₂, rfl, rfl⟩ ?_
  rintro closed s₃ ⟨rfl, rfl⟩
  dsimp only
  rw [if_neg Bool.false_ne_true, hopen, if_neg Bool.false_ne_true]
  refine live_op ⟨(), _, rfl⟩ ?_
  rintro _ _ rfl
  exact hQ

theorem Serving.finish {s' : Aftermath} (hserving : Serving r info c s) (hnewest : s'.newest = s.newest)
    (hunread : s'.unread = s.unread) : Serving r info c s' := by
  obtain ⟨sock, hsock, halive⟩ := hserving.sock
  exact ⟨⟨sock, hsock, halive.fresh, hnewest.trans halive.newest⟩, hserving.size,
    hunread.trans hserving.unread⟩

theorem Serving.not_closed (hserving : Serving r info c s) : c.closed = false := by
  obtain ⟨sock, hsock, -⟩ := hserving.sock
  unfold Connection.closed
  rw [hsock]
  rfl

theorem since_begins (hreopened : s.reopened = false) : r.since s = r.begins s.turn := by
  unfold Restart.since
  rw [hreopened]
  rfl

/-- The calls on a connection with the restarted server are answered. -/
theorem session_serving (rounds : ℕ) (calls : List (Command × Timeout))
    (hclock : ∀ turn, r.begins turn < r.ends turn)
    (hfits : ∀ call ∈ calls, r.Fits info.maxMessageSize call.1) {c : Connection} {s : Aftermath}
    (hslot : s.slot = some c) (hserving : Serving r info c s) (hreopened : s.reopened = false)
    (htime : r.InTime config s.turn calls) :
    wpm r.world.live (session config (rounds + 2) calls)
      (fun results _ _ => results = .ok (calls.map fun call => .ok (r.answer call.1.payload)))
      () s := by
  induction calls generalizing c s with
  | nil => rfl
  | cons call calls ih =>
    have hsince : r.since s = r.begins s.turn := since_begins hreopened
    unfold session
    rw [wpm_bind, wpm_attempt]
    refine live_request rounds.succ.succ hslot (by rw [hsince]; exact hclock _)
      (by rw [hsince]; exact htime.1) fun d hd => ?_
    refine live_withRetry_serving _ 0 hserving hd (hfits call List.mem_cons_self)
      fun c' hserving' => ⟨hserving'.not_closed, ?_⟩
    dsimp only
    rw [wpm_bind]
    refine wpm_mono (ih (fun other hmem => hfits other (List.mem_cons_of_mem _ hmem)) rfl
      (hserving'.finish rfl rfl) rfl htime.2) ?_
    rintro results _ s' rfl
    rfl

/-- A call that failed. -/
def failed : Except Exc Bytes → Bool
  | .ok _ => false
  | .error _ => true

theorem countP_failed_answers (answers : List Bytes) :
    (answers.map fun answer => (.ok answer : Except Exc Bytes)).countP failed = 0 := by
  rw [List.countP_eq_zero]
  intro result hmem
  obtain ⟨answer, -, rfl⟩ := List.mem_map.mp hmem
  exact Bool.false_ne_true

/-- Every call is answered or loses its connection. -/
def Restart.Reported (r : Restart) (calls : List (Command × Timeout))
    (results : List (Except Exc Bytes)) : Prop :=
  List.Forall₂ (fun call result => result = .ok (r.answer call.1.payload) ∨
    ∃ fault, result = .error (.connectionError fault)) calls results

theorem reported_answers (calls : List (Command × Timeout)) :
    r.Reported calls (calls.map fun call => .ok (r.answer call.1.payload)) := by
  induction calls with
  | nil => exact .nil
  | cons call calls ih => exact .cons (Or.inl rfl) ih

/-- How many calls on the dead socket fail: every mutating one up to the first that reconnects. -/
theorem session_dead (rounds : ℕ) (calls : List (Command × Timeout))
    (hbudget : config.reconnect.exhausted 1 = false) {c : Connection} {s : Aftermath}
    (hreopens : r.Reopens c.settings info)
    (hfits : ∀ call ∈ calls,
      call.1.payload.length ≤ c.maxMessageSize ∧ r.Fits info.maxMessageSize call.1)
    (hslot : s.slot = some c) (hsock : c.sock = some r.dead) (hreopened : s.reopened = false)
    (htime : r.InTime config s.turn calls) :
    wpm r.world.live (session config (rounds + 2) calls) (fun results _ _ => ∃ list,
      results = .ok list ∧ r.Reported calls list ∧ list.countP failed =
        if r.Stuck c s then (calls.takeWhile fun call => !call.1.readOnly).length else 0) () s := by
  induction calls generalizing c s with
  | nil => exact ⟨[], rfl, .nil, by simp⟩
  | cons call calls ih =>
    have hsince : r.since s = r.begins s.turn := since_begins hreopened
    have hclock : ∀ turn, r.begins turn < r.ends turn := fun turn => (hreopens.clock turn).1
    obtain ⟨hsize, hfit⟩ := hfits call List.mem_cons_self
    unfold session
    rw [wpm_bind, wpm_attempt]
    refine live_request rounds.succ.succ hslot (by rw [hsince]; exact hclock _)
      (by rw [hsince]; exact htime.1) fun d hd => ?_
    refine live_withRetry_dead rounds hsock hd hreopens hbudget hsize hfit ?_ ?_
    · -- the connection goes back to the slot as it is, with the flag up
      intro hstuck hmutating fault
      refine ⟨by unfold Connection.closed; rw [hsock]; rfl, ?_⟩
      dsimp only
      rw [wpm_bind]
      refine wpm_mono (ih (c := { c with requestInFlight := true }) hreopens
        (fun other hmem => hfits other (List.mem_cons_of_mem _ hmem)) rfl hsock rfl htime.2) ?_
      rintro results _ s' ⟨list, rfl, hreported, hcount⟩
      refine ⟨.error (.connectionError fault) :: list, rfl, .cons (Or.inr ⟨fault, rfl⟩) hreported, ?_⟩
      rw [List.countP_cons_of_pos rfl, hcount, stuck_of_flag rfl, hstuck,
        List.takeWhile_cons_of_pos (by simp [hmutating])]
      rfl
    -- from here on the connection is a new one, and every later call is answered
    · intro hcase c' s' hserving hturn
      refine ⟨hserving.not_closed, ?_⟩
      dsimp only
      rw [wpm_bind]
      have htime' : r.InTime config (s'.turn + 1) calls := by
        rw [hturn]
        exact htime.2
      refine wpm_mono (session_serving rounds calls hclock
        (fun other hmem => (hfits other (List.mem_cons_of_mem _ hmem)).2) rfl
        (hserving.finish rfl rfl) rfl htime') ?_
      rintro results _ s₁ rfl
      refine ⟨_, rfl, .cons (Or.inl rfl) (reported_answers calls), ?_⟩
      have hnone : (calls.map fun call =>
          (.ok (r.answer call.1.payload) : Except Exc Bytes)).countP failed = 0 := by
        have h := countP_failed_answers (calls.map fun call => r.answer call.1.payload)
        rwa [List.map_map] at h
      rw [List.countP_cons_of_neg Bool.false_ne_true, hnone]
      rcases hcase with hfree | hread
      · rw [hfree]
        rfl
      · rw [List.takeWhile_cons_of_neg (by simp [hread])]
        split <;> rfl

end Session

end Rules

/-- Recovery of a pooled connection, whatever state it is in, once the server has restarted: every
call is answered or loses its connection, and at most one of them does so exactly when no two
mutating calls come before the first read-only one, or the flag is down and the dead socket does not
take the first write. -/
theorem at_most_one_call_fails_iff (r : Restart) (config : ClientConfig) (c : Connection)
    (info : HelloInfo) (calls : List (Command × Timeout)) (rounds : ℕ)
    (hdead : c.sock = some r.dead) (hhealthy : r.Healthy config c info calls) :
    Ends r.world (session config (rounds + 2) calls ()) (fun out _ => ∃ results,
      out.1 = .ok results ∧ r.Reported calls results ∧
      (results.countP failed ≤ 1 ↔
        (calls.takeWhile fun call => !call.1.readOnly).length ≤ 1 ∨
          c.requestInFlight = false ∧ r.accepts ≠ some 0)) ⟨some c, 0, false, 0, none, []⟩ := by
  have hsession := session_dead (r := r) (s := ⟨some c, 0, false, 0, none, []⟩) rounds calls
    hhealthy.budget hhealthy.reopens hhealthy.fits rfl hdead rfl hhealthy.time
  refine ends_of_live (wp_mono hsession ?_)
  rintro out s ⟨results, hresults, hreported, hcount⟩
  refine ⟨results, hresults, hreported, ?_⟩
  rw [hcount]
  unfold Restart.Stuck
  by_cases hfree : c.requestInFlight = false ∧ r.accepts ≠ some 0
  · simp [hfree]
  · have hstuck : (c.requestInFlight || decide (r.accepts = some 0)) = true := by
      by_contra hno
      simp only [Bool.or_eq_true, decide_eq_true_eq, not_or, Bool.not_eq_true] at hno
      exact hfree hno
    rw [if_pos hstuck]
    exact ⟨Or.inl, fun h => h.resolve_right hfree⟩

/-- A connection that a timeout has left in the pool with the flag up. -/
def staleConnection (flag : Bool) : Connection :=
  { Connection.pooled with requestInFlight := flag }

/-- A restarted server that accepts no further write on the old socket. -/
def restarted : Restart :=
  ⟨3, none, fun _ => encodeUtf8 "ok|1;4096;0;admin".toList, fun _ => 0, fun _ => 0, fun _ => 1⟩

theorem restarted_reopens :
    restarted.Reopens (staleConnection true).settings ⟨1, 4096, false, "admin".toList⟩ where
  address := ⟨("db".toList, 7), by decide⟩
  hello := ⟨⟨encodeUtf8 "HELLO 1".toList, true⟩, by decide⟩
  version := rfl
  clock _ := by norm_num [restarted, staleConnection, Connection.pooled]

theorem restarted_fits : restarted.Fits 4096 Command.incrHit :=
  ⟨by decide, by decide, by decide, by decide⟩

theorem restarted_inTime (timeout : ℚ) (h : 1 ≤ timeout) :
    restarted.InTime ⟨(staleConnection true).settings, some timeout, {}⟩ 0
      [(Command.incrHit, .default), (Command.incrHit, .default)] := by
  have hwindow : ∀ value : ℚ, some timeout = some value → (1 : ℚ) - 0 ≤ value := by
    intro value hvalue
    have he : timeout = value := Option.some.inj hvalue
    linarith
  exact ⟨hwindow, hwindow, trivial⟩

theorem incr_fails_at_most_once_with_flag_down :
    Ends restarted.world (session ⟨(staleConnection true).settings, some 5, {}⟩ 2
      [(Command.incrHit, .default), (Command.incrHit, .default)] ()) (fun out _ => ∃ results,
        out.1 = .ok results ∧ results.countP failed ≤ 1)
      ⟨some (staleConnection false), 0, false, 0, none, []⟩ := by
  have hends := at_most_one_call_fails_iff restarted
    ⟨(staleConnection true).settings, some 5, {}⟩ (staleConnection false)
    ⟨1, 4096, false, "admin".toList⟩ [(Command.incrHit, .default), (Command.incrHit, .default)] 0 rfl
    { reopens := restarted_reopens
      fits := fun call hmem => by
        have hcall : call = (Command.incrHit, .default) := by simpa using hmem
        rw [hcall]
        exact ⟨by decide, restarted_fits⟩
      time := restarted_inTime 5 (by norm_num)
      budget := rfl }
  refine Ends.mono hends ?_
  rintro out s ⟨results, hresults, -, hiff⟩
  exact ⟨results, hresults, hiff.mpr (Or.inr ⟨rfl, by decide⟩)⟩

/-- The pool has an idle connection, and its server does not answer in time. -/
def slowServer : (op : NetOp) → op.Answer
  | .getSlot _ => some (some (staleConnection false))
  | .recv _ _ => .error .timeout
  | op => op.calm

/-- A GET times out while reading, which leaves its connection in the pool with the flag up; then the
server restarts, and every INCR fails. -/
theorem timed_out_get_blocks_incr :
    (∃ log, Reaches (record Net) (Sync.transport.request
        ⟨(staleConnection true).settings, some 5, {}⟩ 2 ⟨encodeUtf8 "GET hit 60".toList, true⟩
        .default (), []) (.pure (.error (.timeoutError .whileReading), ()), log) ∧
      log.getLast?.map Sigma.fst = some (.putSlot (some (staleConnection true)))) ∧
    Ends restarted.world (session ⟨(staleConnection true).settings, some 5, {}⟩ 2
      [(Command.incrHit, .default), (Command.incrHit, .default)] ()) (fun out _ => ∃ results,
        out.1 = .ok results ∧ results.countP failed = 2)
      ⟨some (staleConnection true), 0, false, 0, none, []⟩ := by
  refine ⟨?_, ?_⟩
  · have hrun := reaches_of_outcome (List.replicate 20 slowServer)
      (p := Sync.transport.request ⟨(staleConnection true).settings, some 5, {}⟩ 2
        ⟨encodeUtf8 "GET hit 60".toList, true⟩ .default ())
      (a := (.error (.timeoutError .whileReading), ())) (by decide +kernel)
    exact ⟨_, hrun, by decide +kernel⟩
  · have hsession := session_dead (r := restarted)
      (c := staleConnection true) (s := ⟨some (staleConnection true), 0, false, 0, none, []⟩) 0
      [(Command.incrHit, .default), (Command.incrHit, .default)] rfl restarted_reopens
      (fun call hmem => by
        have hcall : call = (Command.incrHit, .default) := by simpa using hmem
        rw [hcall]
        exact ⟨by decide, restarted_fits⟩) rfl rfl rfl (restarted_inTime 5 (by norm_num))
    refine ends_of_live (wp_mono hsession ?_)
    rintro out s ⟨results, hresults, -, hcount⟩
    exact ⟨results, hresults, hcount⟩

end ServerRestart

end FqClient
