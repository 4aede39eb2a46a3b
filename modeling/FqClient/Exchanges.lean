import FqClient.Aio.Parts
import FqClient.Executions
import FqClient.Sync.Reading

namespace FqClient

open Effects

/-! Rules of what is the same in both packages, from what they do in their own ways. -/

/-- Where a new connection stands: opened, in its handshake once HELLO is written, or in use. -/
inductive Stage
  | opened
  | greeting
  | settled
  deriving DecidableEq

/-- `Connection.send` and `Connection.send_chunked`. -/
inductive SentBy (t : Transport) : (Command → Deadline → ConnM Bytes) → Prop
  | send : SentBy t t.send
  | chunked (rounds : ℕ) : SentBy t (t.sendChunked rounds)

namespace Connection

/-- The connection with a new socket, before its handshake. -/
def dialed (c : Connection) (sock : SockId) : Connection :=
  { c with sock := some sock, maxMessageSize := defaultMaxMessageSize, requestInFlight := false }

/-- The connection once its handshake is complete. -/
def welcomed (c : Connection) (info : HelloInfo) : Connection :=
  { c with maxMessageSize := info.maxMessageSize, authRequired := info.authRequired, role := info.role }

end Connection

/-! ## Requests and frames, in their parts -/

namespace Package

/-- What is left until the deadline becomes the timeout of the socket, or the limit of the task. -/
def setLimit : Package → SockId → Option ℚ → ConnM Unit
  | .sync, sock, remaining => do
    if remaining.any (· < 0) then throw .valueError
    else do
      match ← perform (.settimeout sock remaining) with
      | .ok _ => return ()
      | .error .osError => throw (.connectionError .unusable)
      | .error .overflow => throw (.overflowError .timeout)
  | .aio, _, remaining => perform (.enterTimeout remaining)

/-- What precedes an operation on a socket. -/
def arm (p : Package) (sock : SockId) (d : Deadline) : ConnM Unit := do
  d.check
  p.setLimit sock (← d.remaining)

def writeFrame : Package → SockId → Bytes → ConnM Unit
  | .sync, sock, frame => do
    match ← perform (.sendall sock frame) with
    | .ok _ => setInFlight true
    | .error .timeout => do
      setInFlight true
      throw (.timeoutError .whileSending)
    | .error .other => throw (.connectionError .lostWhileSending)
  | .aio, sock, frame => do
    match ← perform (.writeDrain sock frame) with
    | .ok _ => setInFlight true
    | .error .timeout => do
      setInFlight true
      throw (.timeoutError .whileSending)
    | .error .other => throw (.connectionError .lostWhileSending)
    | .error .cancelled => throw .cancelled

/-- How the answer to a read fails it. -/
def readFault : (p : Package) → {sock : SockId} → {size : ℕ} → (p.readOp sock size).Answer → Option Exc
  | .sync, _, _, a => Sync.failedRead a
  | .aio, _, _, .ok _ => none
  | .aio, _, _, .error .timeout => some (.timeoutError .whileReading)
  | .aio, _, _, .error .incomplete => some (.connectionError .closedByServer)
  | .aio, _, _, .error .other => some (.connectionError .lostWhileReading)
  | .aio, _, _, .error .cancelled => some .cancelled

theorem writeRequest_eq (p : Package) (command : Command) (d : Deadline) :
    p.transport.writeRequest command d = (do
      Method.ofExcept (checkRequestSize command.payload (← Method.self).maxMessageSize)
      let sock ← requireSocket
      p.arm sock d
      let frame ← Method.ofExcept (encodeFrame command.payload)
      p.writeFrame sock frame) := by
  cases p with
  | sync => rfl
  | aio => exact Aio.writeRequest_eq command d

theorem readFrame_eq (p : Package) (d : Deadline) : p.transport.readFrame d = (do
    let sock ← requireSocket
    p.arm sock d
    p.receive sock) := by
  cases p with
  | sync => exact Sync.readFrame_eq d
  | aio => exact Aio.readFrame_eq d

end Package

section Parts
variable {σ : Type} {W : World Net σ} {J : σ → Prop} {K : Exc → σ → Prop} {c : Connection} {s : σ}
  {sock : SockId}

/-- A request is refused or has no socket, or it writes its frame once the limit is set. -/
theorem wpm_writeRequest_of (p : Package) {command : Command} {d : Deadline}
    {Q : Except Exc Unit → Connection → σ → Prop}
    (hrefused : c.maxMessageSize < command.payload.length →
      Q (.error (requestTooLarge command.payload.length c.maxMessageSize)) c s)
    (hclosed : command.payload.length ≤ c.maxMessageSize → c.sock = none →
      Q (.error (.connectionError .closed)) c s)
    (hopen : ∀ sock, command.payload.length ≤ c.maxMessageSize → c.sock = some sock →
      wpm W (p.arm sock d) (fun r c' s' => match r with
        | .error e => Q (.error e) c' s'
        | .ok _ => Q (.error (.overflowError .frameLength)) c' s' ∧
            ∀ frame, W.permits s' (p.writeOp sock frame) ∧ ∀ a s'',
              W.step s' (p.writeOp sock frame) a s'' →
                Q (p.wrote a) (c'.noteWrite (p.wrote a)) s'') c s) :
    wpm W (p.transport.writeRequest command d) Q c s := by
  rw [p.writeRequest_eq, wpm_bind, wpm_self]
  dsimp only
  rw [wpm_bind, wpm_ofExcept]
  by_cases hfits : command.payload.length ≤ c.maxMessageSize
  · rw [show checkRequestSize command.payload c.maxMessageSize = .ok () from if_neg (not_lt.mpr hfits)]
    dsimp only
    rw [wpm_bind, wpm_requireSocket]
    cases hsock : c.sock with
    | none => exact hclosed hfits hsock
    | some sock =>
      dsimp only
      rw [wpm_bind]
      refine wpm_mono (hopen sock hfits hsock) ?_
      intro r c₁ s₁ hr
      cases r with
      | error e => exact hr
      | ok _ =>
        rw [wpm_bind, wpm_ofExcept]
        by_cases hlength : command.payload.length < 2 ^ 32
        · rw [encodeFrame_ok hlength]
          obtain ⟨hpermits, hstep⟩ := hr.2 (beBytes command.payload.length ++ command.payload)
          dsimp only
          cases p with
          | sync =>
            refine ⟨hpermits, fun a s₂ h => ?_⟩
            have hQ := hstep a s₂ h
            match a with
            | .ok _ => exact hQ
            | .error .timeout => exact hQ
            | .error .other => exact hQ
          | aio =>
            refine ⟨hpermits, fun a s₂ h => ?_⟩
            have hQ := hstep a s₂ h
            match a with
            | .ok _ => exact hQ
            | .error .timeout => exact hQ
            | .error .other => exact hQ
            | .error .cancelled => exact hQ
        · rw [show encodeFrame command.payload = .error
            (.overflowError .frameLength) from if_neg hlength]
          exact hr.1
  · rw [show checkRequestSize command.payload c.maxMessageSize =
      .error (requestTooLarge command.payload.length c.maxMessageSize) from if_pos (not_le.mp hfits)]
    exact hrefused (not_le.mp hfits)

/-- A frame is read once the limit is set. -/
theorem wpm_readFrame_of (p : Package) {d : Deadline} {Q : Except Exc Bytes → Connection → σ → Prop}
    (hclosed : c.sock = none → Q (.error (.connectionError .closed)) c s)
    (hopen : ∀ sock, c.sock = some sock → wpm W (p.arm sock d) (fun r c' s' => match r with
      | .error e => Q (.error e) c' s'
      | .ok _ => wpm W (p.receive sock) Q c' s') c s) : wpm W (p.transport.readFrame d) Q c s := by
  rw [p.readFrame_eq, wpm_bind, wpm_requireSocket]
  cases hsock : c.sock with
  | none => exact hclosed hsock
  | some sock =>
    dsimp only
    rw [wpm_bind]
    refine wpm_mono (hopen sock hsock) ?_
    intro r c₁ s₁ hr
    cases r with
    | error e => exact hr
    | ok _ => exact hr

theorem wpm_check_due {κ : Type} {Q : Except Exc Unit → κ → σ → Prop} {k : κ} (due : ℚ)
    (h : W.permits s .monotonic ∧ ∀ now s₁, W.step s .monotonic now s₁ →
      if due ≤ now then Q (.error (.timeoutError .deadlineExceeded)) k s₁ else Q (.ok ()) k s₁) :
    wpm W (Deadline.check ⟨some due⟩) Q k s := by
  unfold Deadline.check Deadline.expired Deadline.remaining
  dsimp only
  rw [wpm_bind, wpm_bind, wpm_bind, wpm_perform_op]
  refine ⟨h.1, fun now s₁ hstep => ?_⟩
  have hQ := h.2 now s₁ hstep
  dsimp only
  rw [wpm_pure]
  dsimp only
  rw [wpm_pure]
  dsimp only
  rw [wpm_ite]
  split
  next hleft =>
    rw [if_pos (sub_nonpos.mp (of_decide_eq_true hleft))] at hQ
    exact hQ
  next hleft =>
    rw [if_neg fun hdue => hleft (decide_eq_true (sub_nonpos.mpr hdue))] at hQ
    exact hQ

/-- Setting the limit reads the clock twice, when there is a deadline: to check it, and to see how much
is left. -/
theorem wpm_arm_due (p : Package) {Q : Except Exc Unit → Connection → σ → Prop} (due : ℚ)
    (h : W.permits s .monotonic ∧ ∀ now s₁, W.step s .monotonic now s₁ →
      if due ≤ now then Q (.error (.timeoutError .deadlineExceeded)) c s₁
      else W.permits s₁ .monotonic ∧ ∀ now₁ s₂, W.step s₁ .monotonic now₁ s₂ →
        wpm W (p.setLimit sock (some (due - now₁))) Q c s₂) : wpm W (p.arm sock ⟨some due⟩) Q c s := by
  unfold Package.arm
  rw [wpm_bind]
  apply wpm_check_due
  refine ⟨h.1, fun now s₁ hstep => ?_⟩
  have hQ := h.2 now s₁ hstep
  split
  next hdue =>
    rw [if_pos hdue] at hQ
    exact hQ
  next hdue =>
    rw [if_neg hdue] at hQ
    unfold Deadline.remaining
    dsimp only
    rw [wpm_bind, wpm_bind, wpm_perform_op]
    refine ⟨hQ.1, fun now₁ s₂ hstep₁ => ?_⟩
    exact hQ.2 now₁ s₂ hstep₁

theorem wpm_arm_unlimited (p : Package) {Q : Except Exc Unit → Connection → σ → Prop}
    (h : wpm W (p.setLimit sock none) Q c s) : wpm W (p.arm sock Deadline.unlimited) Q c s := h

/-- What setting the limit keeps, and what it leaves when it fails. -/
theorem wpm_arm_of (p : Package) {d : Deadline} (hclock : Keeps W (· = .monotonic) J)
    (henter : ∀ s delay, J s → W.permits s (.enterTimeout delay) ∧
      ∀ a s', W.step s (.enterTimeout delay) a s' → J s')
    (hset : ∀ s timeout, J s → W.permits s (.settimeout sock timeout) ∧
      ∀ a s', W.step s (.settimeout sock timeout) a s' → match a with
        | .ok _ => J s'
        | .error .osError => K (.connectionError .unusable) s'
        | .error .overflow => K (.overflowError .timeout) s')
    (hlate : ∀ s, J s → K (.timeoutError .deadlineExceeded) s)
    (hnegative : ∀ s, J s → K .valueError s) (hs : J s) :
    wpm W (p.arm sock d) (fun r c' s' => c' = c ∧ match r with
      | .ok _ => J s'
      | .error e => K e s') c s := by
  unfold Package.arm
  rw [wpm_bind]
  refine wpm_mono (wpm_of_leaves hclock (clocks_check d) hs) ?_
  intro r c₁ s₁ ⟨⟨hc₁, hr⟩, hs₁⟩
  rw [hc₁]
  cases r with
  | error e =>
    rw [hr e rfl]
    exact ⟨rfl, hlate s₁ hs₁⟩
  | ok _ =>
    dsimp only
    rw [wpm_bind]
    refine wpm_mono (wpm_of_leaves hclock (clocks_remaining d) hs₁) ?_
    intro r c₂ s₂ ⟨⟨hc₂, hr⟩, hs₂⟩
    rw [hc₂]
    cases r with
    | error e =>
      rw [hr e rfl]
      exact ⟨rfl, hlate s₂ hs₂⟩
    | ok remaining =>
      dsimp only
      cases p with
      | aio =>
        obtain ⟨hpermits, hstep⟩ := henter s₂ remaining hs₂
        exact ⟨hpermits, fun a s₃ h => ⟨rfl, hstep a s₃ h⟩⟩
      | sync =>
        change wpm W (if remaining.any (· < 0) = true then throw Exc.valueError else _) _ c s₂
        rw [wpm_ite]
        split
        · exact ⟨rfl, hnegative s₂ hs₂⟩
        · obtain ⟨hpermits, hstep⟩ := hset s₂ remaining hs₂
          rw [wpm_bind, wpm_perform_op]
          refine ⟨hpermits, fun a s₃ h => ?_⟩
          have hJ := hstep a s₃ h
          cases a with
          | ok _ => exact ⟨rfl, hJ⟩
          | error fault => cases fault <;> exact ⟨rfl, hJ⟩

/-- What reading keeps, and what it leaves when it fails. -/
theorem wpm_receive_of (p : Package) (hread : ∀ size s, J s → W.permits s (p.readOp sock size) ∧
      ∀ a s', W.step s (p.readOp sock size) a s' → match p.readFault a with
        | none => J s'
        | some e => K e s')
    (hcorrupted : ∀ what s, J s → K (.corruptedResponse what) s) (hs : J s) :
    wpm W (p.receive sock) (fun r c' s' => c' = c ∧ match r with
      | .ok _ => J s'
      | .error e => K e s') c s := by
  -- header and body are read by one function: asyncio asks once, the loop for what is missing
  have hexactly : ∀ size s, J s → wpm W (p.readExactly sock size) (fun r c' s' => c' = c ∧ match r with
      | .ok _ => J s'
      | .error e => K e s') c s := by
    intro size s hs
    cases p with
    | aio =>
      obtain ⟨hpermits, hstep⟩ := hread size s hs
      change wpm W (Aio.readExactly sock size) _ c s
      unfold Aio.readExactly
      rw [wpm_bind, wpm_perform_op]
      refine ⟨hpermits, fun a s' h => ?_⟩
      have hJ := hstep a s' h
      rcases a with fault | data
      · cases fault <;> exact ⟨rfl, hJ⟩
      · exact ⟨rfl, hJ⟩
    | sync =>
      change wpm W (Sync.readLoop sock size size []) _ c s
      refine Sync.wpm_readLoop_of (I := fun _ => J) (fun _ _ _ hs => ⟨rfl, hs⟩) ?_ size hs
        (Nat.zero_le _) (by simp)
      intro buffer s _ hs
      obtain ⟨hpermits, hstep⟩ := hread (size - buffer.length) s hs
      refine ⟨hpermits, fun answer s' h => ?_⟩
      have hafter := hstep answer s' h
      dsimp only [Package.readFault] at hafter
      cases hfailed : Sync.failedRead answer with
      | some e =>
        rw [hfailed] at hafter
        exact ⟨rfl, hafter⟩
      | none =>
        rw [hfailed] at hafter
        exact hafter
  unfold Package.receive
  rw [wpm_bind]
  refine wpm_mono (hexactly _ s hs) ?_
  intro r c₁ s₁ hpost
  obtain ⟨hc₁, hs₁⟩ := hpost
  rw [hc₁]
  cases r with
  | error e => exact ⟨rfl, hs₁⟩
  | ok header =>
    dsimp only at hs₁ ⊢
    rw [wpm_bind, wpm_self]
    dsimp only
    rw [wpm_bind, wpm_ofExcept]
    cases hsize : decodeFrameSize header c.maxMessageSize with
    | error e =>
      obtain ⟨what, rfl⟩ := decodeFrameSize_error hsize
      exact ⟨rfl, hcorrupted what s₁ hs₁⟩
    | ok size =>
      dsimp only
      rw [wpm_ite]
      split
      · exact ⟨rfl, hs₁⟩
      · exact hexactly size s₁ hs₁

end Parts

section Rules
variable {σ : Type} {W : World Net σ} {t : Transport} {Q : Except Exc Unit → Connection → σ → Prop}
  {c : Connection} {s : σ}

/-- A call writes its request and reads a frame. -/
theorem wpm_send_of {Q : Except Exc Bytes → Connection → σ → Prop} {command : Command} {d : Deadline}
    (h : wpm W (t.writeRequest command d) (fun r c' s' => match r with
      | .error e => Q (.error e) c' s'
      | .ok _ => wpm W (t.readFrame d) (fun r c'' s'' => match r with
          | .error e => Q (.error e) c'' s''
          | .ok frame => Q (.ok frame) { c'' with requestInFlight := false } s'') c' s') c s) :
    wpm W (t.send command d) Q c s := by
  unfold Transport.send
  rw [wpm_bind]
  refine wpm_mono h ?_
  intro r c₁ s₁ hr
  cases r with
  | error e => exact hr
  | ok _ =>
    dsimp only at hr ⊢
    rw [wpm_bind]
    refine wpm_mono hr ?_
    intro r c₂ s₂ hr
    cases r with
    | error e => exact hr
    | ok frame => exact hr

/-- Reading the frames of an answer keeps what reading one of them does. -/
theorem wpm_readChunks_keeps {J : Connection → σ → Prop} (hhalts : W.halts) {d : Deadline}
    (hframe : ∀ c s, J c s → wpm W (t.readFrame d) (fun _ c' s' => J c' s') c s)
    (hflag : ∀ c s, J c s → J { c with requestInFlight := false } s) (rounds : ℕ)
    (body : ChunkAssembler) (hs : J c s) :
    wpm W (t.readChunks d rounds body) (fun _ c' s' => J c' s') c s := by
  induction rounds generalizing body c s with
  | zero => exact hhalts
  | succ rounds ih =>
    unfold Transport.readChunks
    rw [wpm_bind]
    refine wpm_mono (hframe c s hs) ?_
    intro r c₁ s₁ hs₁
    cases r with
    | error e => exact hs₁
    | ok frame =>
      dsimp only
      rw [wpm_bind, wpm_ofExcept]
      cases body.feed frame with
      | error e => exact hs₁
      | ok fed =>
        obtain ⟨_ | response, body'⟩ := fed
        · exact ih body' hs₁
        · exact hflag c₁ s₁ hs₁

/-- How the answer to HELLO ends the handshake. -/
def Greeted (Q : Except Exc Unit → Connection → σ → Prop) : Except Exc Bytes → Connection → σ → Prop
  | .error e, c, s => Q (.error e) c s
  | .ok response, c, s => match parseHello response with
    | .error e => Q (.error e) c s
    | .ok info =>
      if info.version ≠ protocolVersion then
        Q (.error (.corruptedResponse (.negotiatedVersion info.version))) c s
      else Q (.ok ()) (c.welcomed info) s

theorem Greeted.response {response : Bytes} (herror : ∀ e, Q (.error e) c s)
    (hok : ∀ info, parseHello response = .ok info → Q (.ok ()) (c.welcomed info) s) :
    Greeted Q (.ok response) c s := by
  change match parseHello response with
    | .error e => Q (.error e) c s
    | .ok info => _
  cases hinfo : parseHello response with
  | error e => exact herror e
  | ok info =>
    dsimp only
    split
    · exact herror _
    · exact hok info hinfo

/-- A handshake sends HELLO under a deadline of its own. -/
theorem wpm_handshake_of (hhello : ∀ e, Commands.hello c.settings.token = .error e → Q (.error e) c s)
    (hsend : ∀ command, Commands.hello c.settings.token = .ok command → W.permits s .monotonic ∧
      ∀ now s', W.step s .monotonic now s' →
        wpm W (t.send command ⟨some (now + c.settings.connectTimeout)⟩) (Greeted Q) c s') :
    wpm W t.handshake Q c s := by
  unfold Transport.handshake
  rw [wpm_bind, wpm_self]
  dsimp only
  rw [wpm_bind, wpm_ofExcept]
  cases hcommand : Commands.hello c.settings.token with
  | error e => exact hhello e hcommand
  | ok command =>
    dsimp only
    obtain ⟨hpermits, hstep⟩ := hsend command hcommand
    unfold Deadline.start
    dsimp only
    rw [wpm_bind, wpm_bind, wpm_perform_op]
    refine ⟨hpermits, fun now s₁ h => ?_⟩
    dsimp only
    rw [wpm_pure]
    dsimp only
    rw [wpm_bind]
    refine wpm_mono (hstep now s₁ h) ?_
    intro r c₂ s₂ hr
    cases r with
    | error e => exact hr
    | ok response =>
      dsimp only
      rw [wpm_bind, wpm_ofExcept]
      change match parseHello response with
        | .error e => Q (.error e) c₂ s₂
        | .ok info => _ at hr
      cases hinfo : parseHello response with
      | error e =>
        rw [hinfo] at hr
        exact hr
      | ok info =>
        rw [hinfo] at hr
        dsimp only at hr ⊢
        rw [wpm_ite]
        split
        next hversion =>
          rw [if_pos hversion] at hr
          exact hr
        next hversion =>
          rw [if_neg hversion] at hr
          exact hr

/-- A connect dials, runs the handshake, and closes the socket when that fails. -/
theorem wpm_connect_of (haddress : ∀ e, splitAddress c.settings.address = .error e → Q (.error e) c s)
    (hdial : ∀ host port, wpm W (t.dial host port) (fun r c' s' => match r with
      | .error e => Q (.error e) c' s'
      | .ok sock => wpm W t.handshake (fun r c'' s'' => match r with
          | .ok _ => Q (.ok ()) c'' s''
          | .error e => wpm W closeConnection (fun r => Q (r.bind fun _ => .error e)) c'' s'')
          (c'.dialed sock) s') c s) : wpm W t.connect Q c s := by
  unfold Transport.connect
  rw [wpm_bind, wpm_self]
  dsimp only
  rw [wpm_bind, wpm_ofExcept]
  cases htarget : splitAddress c.settings.address with
  | error e => exact haddress e htarget
  | ok target =>
    dsimp only
    rw [wpm_bind]
    refine wpm_mono (hdial target.1 target.2) ?_
    intro r c₁ s₁ hr
    cases r with
    | error e => exact hr
    | ok sock =>
      dsimp only at hr ⊢
      rw [wpm_bind, wpm_update]
      dsimp only
      rw [wpm_bind, wpm_attempt]
      refine wpm_mono hr ?_
      intro r c₂ s₂ hr
      cases r with
      | ok _ => exact hr
      | error e =>
        dsimp only at hr ⊢
        rw [wpm_bind]
        refine wpm_mono hr ?_
        intro r c₃ s₃ hr
        cases r with
        | ok _ => exact hr
        | error e => exact hr

/-- A connect with a socket for every environment that opens one: it fails before that, or the handshake
follows. -/
theorem wpm_connect_by {Idle : σ → Prop} {Opened : SockId → σ → Prop} (p : Package)
    (hdialer : Dialer W Idle Opened) (hs : Idle s) (hfailed : ∀ e s', Idle s' → Q (.error e) c s')
    (hshake : ∀ sock s', Opened sock s' → wpm W p.transport.handshake (fun r c' s'' => match r with
      | .ok _ => Q (.ok ()) c' s''
      | .error e => wpm W closeConnection (fun r => Q (r.bind fun _ => .error e)) c' s'')
      (c.dialed sock) s') : wpm W p.transport.connect Q c s := by
  apply wpm_connect_of
  · exact fun e _ => hfailed e s hs
  · intro host port
    refine wpm_mono (wpm_dial p hdialer host port hs) ?_
    intro r c₁ s₁ hpost
    obtain ⟨hc₁, hr⟩ := hpost
    rw [hc₁]
    cases r with
    | error e => exact hfailed e s₁ hr
    | ok sock => exact hshake sock s₁ hr

/-- Closing a connection leaves it without a socket, whether it had one or not. -/
theorem wpm_close_of (hclose : ∀ sock, c.sock = some sock → W.permits s (.closeSocket sock) ∧
      ∀ s', W.step s (.closeSocket sock) () s' → Q (.ok ()) { c with sock := none } s')
    (hclosed : c.sock = none → Q (.ok ()) { c with sock := none } s) :
    wpm W closeConnection Q c s := by
  rw [wpm_closeConnection]
  cases hsock : c.sock with
  | none => exact hclosed hsock
  | some sock => exact hclose sock hsock

/-- A reconnect closes the connection and connects it again. -/
theorem wpm_reconnect_of (hclose : ∀ sock, c.sock = some sock → W.permits s (.closeSocket sock) ∧
      ∀ s', W.step s (.closeSocket sock) () s' → wpm W t.connect Q { c with sock := none } s')
    (hclosed : c.sock = none → wpm W t.connect Q { c with sock := none } s) :
    wpm W t.reconnect Q c s := by
  unfold Transport.reconnect
  rw [wpm_bind]
  exact wpm_close_of hclose hclosed

end Rules

section Borrowing
variable {σ : Type} {W : World Net σ} {t : Transport} {J : σ → Prop} {s : σ} {settings : Settings}
  {d : Deadline}

/-- Once the time left is known, the slot is waited for over the queue or inside a timeout scope. -/
theorem wpm_take_of (p : Package) {Q : Except Exc (Option Connection) → Unit → σ → Prop}
    (hremaining : wpm W (d.remaining : Method Net Unit Exc (Option ℚ)) (fun r _ s' => match r with
      | .error e => Q (.error e) () s'
      | .ok _ => J s') () s)
    (hget : ∀ timeout s', J s' → wpm W (perform (.getSlot timeout)) (fun r _ s₂ => match r with
      | .error e => Q (.error e) () s₂
      | .ok none => Q (.error (.timeoutError .noFreeConnection)) () s₂
      | .ok (some slot) => Q (.ok slot) () s₂) () s')
    (hwait : ∀ delay s', J s' → wpm W (perform (.enterTimeout delay)) (fun _ _ s₂ =>
      wpm W (perform .awaitSlot) (fun r _ s₃ => match r with
        | .error e => Q (.error e) () s₃
        | .ok (.error .timeout) => Q (.error (.timeoutError .noFreeConnection)) () s₃
        | .ok (.error .cancelled) => Q (.error .cancelled) () s₃
        | .ok (.ok slot) => Q (.ok slot) () s₃) () s₂) () s') :
    wpm W (p.transport.take d) Q () s := by
  cases p with
  | sync =>
    change wpm W (Sync.take d) Q () s
    unfold Sync.take
    rw [wpm_bind]
    refine wpm_mono hremaining ?_
    intro r _ s₁ hr
    cases r with
    | error e => exact hr
    | ok remaining =>
      dsimp only at hr ⊢
      rw [wpm_bind]
      refine wpm_mono (hget _ s₁ hr) ?_
      intro r _ s₂ hr
      cases r with
      | error e => exact hr
      | ok slot => cases slot <;> exact hr
  | aio =>
    change wpm W (Aio.take d) Q () s
    unfold Aio.take
    rw [wpm_bind]
    refine wpm_mono hremaining ?_
    intro r _ s₁ hr
    cases r with
    | error e => exact hr
    | ok remaining =>
      dsimp only at hr ⊢
      rw [wpm_bind]
      have hscope := hwait remaining s₁ hr
      rw [wpm_perform_op] at hscope ⊢
      refine ⟨hscope.1, fun _ s₂ hstep => ?_⟩
      dsimp only
      rw [wpm_bind]
      refine wpm_mono (hscope.2 _ s₂ hstep) ?_
      intro r _ s₃ hr
      cases r with
      | error e => exact hr
      | ok slot =>
        cases slot with
        | ok slot => exact hr
        | error fault => cases fault <;> exact hr

/-- A connection is the one in the slot, or it is opened for an empty slot, which goes back when that
fails. -/
theorem wpm_acquire_of {Q : Except Exc Connection → Unit → σ → Prop}
    (hflag : wpm W (perform .poolClosed) (fun r _ s' => match r with
      | .error e => Q (.error e) () s'
      | .ok flag => if flag then Q (.error .poolClosed) () s' else J s') () s)
    (htake : ∀ s', J s' → wpm W (t.take d) (fun r _ s₂ => match r with
      | .error e => Q (.error e) () s₂
      | .ok (some connection) => Q (.ok connection) () s₂
      | .ok none => wpm W t.connect (fun outcome connection s₃ => match outcome with
          | .ok _ => Q (.ok connection) () s₃
          | .error e => wpm W (perform (.putSlot none)) (fun r => Q (r.bind fun _ => .error e)) () s₃)
          (Connection.new settings) s₂) () s') :
    wpm W (t.acquire settings d) Q () s := by
  unfold Transport.acquire
  rw [wpm_bind]
  refine wpm_mono hflag ?_
  intro r _ s₁ hr
  cases r with
  | error e => exact hr
  | ok flag =>
    dsimp only at hr ⊢
    rw [wpm_ite]
    split
    next hflag =>
      rw [if_pos hflag] at hr
      exact hr
    next hflag =>
      rw [if_neg hflag] at hr
      rw [wpm_bind]
      refine wpm_mono (htake s₁ hr) ?_
      intro r _ s₂ hr
      cases r with
      | error e => exact hr
      | ok slot =>
        cases slot with
        | some connection => exact hr
        | none =>
          dsimp only at hr ⊢
          rw [wpm_bind, wpm_on]
          refine wpm_mono hr ?_
          intro outcome connection s₃ hr
          cases outcome with
          | ok _ => exact hr
          | error e =>
            dsimp only at hr ⊢
            rw [wpm_bind]
            refine wpm_mono hr ?_
            intro r _ s₄ hr
            cases r with
            | error e => exact hr
            | ok _ => exact hr

/-- A connection is closed when its pool is, and put back otherwise. -/
theorem wpm_release_of {Q : Except Exc Unit → Unit → σ → Prop} {c : Connection}
    (hflag : wpm W (perform .poolClosed) (fun r _ s' => match r with
      | .error e => Q (.error e) () s'
      | .ok _ => J s') () s)
    (hclose : ∀ s', J s' → wpm W closeConnection (fun _ _ => Q (.ok ()) ()) c s')
    (hput : ∀ s', J s' →
      wpm W (perform (.putSlot (if c.closed = true then none else some c))) Q () s') :
    wpm W (Transport.release c) Q () s := by
  unfold Transport.release
  rw [wpm_bind]
  refine wpm_mono hflag ?_
  intro r _ s₁ hr
  cases r with
  | error e => exact hr
  | ok flag =>
    dsimp only at hr ⊢
    rw [wpm_ite]
    split
    · rw [wpm_bind, wpm_on]
      refine wpm_mono (hclose s₁ hr) ?_
      exact fun _ _ _ h => h
    · exact hput s₁ hr

/-- A connection is taken, used, and given back whatever came of it. -/
theorem wpm_withConnection_of {α : Type} {body : ConnM α} {Q : Except Exc α → Unit → σ → Prop}
    (h : wpm W (t.acquire settings d) (fun r _ s₁ => match r with
      | .error e => Q (.error e) () s₁
      | .ok connection => wpm W body (fun outcome connection' s₂ =>
          wpm W (Transport.release connection') (fun r _ s₃ => match r with
            | .error e => Q (.error e) () s₃
            | .ok _ => Q outcome () s₃) () s₂) connection s₁) () s) :
    wpm W (t.withConnection settings d body) Q () s := by
  unfold Transport.withConnection
  rw [wpm_bind]
  refine wpm_mono h ?_
  intro r _ s₁ hr
  cases r with
  | error e => exact hr
  | ok connection =>
    dsimp only at hr ⊢
    rw [wpm_bind, wpm_on]
    refine wpm_mono hr ?_
    intro outcome connection' s₂ hr
    dsimp only
    rw [wpm_bind]
    refine wpm_mono hr ?_
    intro r _ s₃ hr
    cases r with
    | error e => exact hr
    | ok _ =>
      dsimp only
      rw [wpm_ofExcept]
      exact hr

end Borrowing

end FqClient
