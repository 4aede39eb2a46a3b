import FqClient.Exchanges

namespace FqClient.HelloFirst

open Effects

/-! ## Sockets and what passes over them -/

/-- What was written to a socket and read from it, and whether it was closed. -/
structure Transcript where
  written : List Bytes
  received : Bytes
  closed : Bool

/-- The sockets that were opened. -/
abbrev Sockets := SockId → Option Transcript

namespace Sockets

def alter (s : Sockets) (sock : SockId) (f : Transcript → Transcript) : Sockets :=
  fun other => if other = sock then (s other).map f else s other

def opened (s : Sockets) (sock : SockId) : Sockets :=
  fun other => if other = sock then some ⟨[], [], false⟩ else s other

theorem alter_self {s : Sockets} {sock : SockId} {t : Transcript} (h : s sock = some t)
    (f : Transcript → Transcript) : s.alter sock f sock = some (f t) := by
  unfold alter
  rw [if_pos rfl, h]
  rfl

theorem opened_self (s : Sockets) (sock : SockId) : s.opened sock sock = some ⟨[], [], false⟩ :=
  if_pos rfl

end Sockets

/-- The frame of HELLO with the token. -/
def IsHello (token : Option Str) (frame : Bytes) : Prop :=
  ∃ command, Commands.hello token = .ok command ∧ encodeFrame command.payload = .ok frame

/-- What was received begins with the frame of a response that accepts HELLO. -/
def Welcomed (received : Bytes) : Prop :=
  ∃ header payload more info, received = header ++ payload ++ more ∧
    decodeFrameSize header defaultMaxMessageSize = .ok payload.length ∧
    parseHello payload = .ok info ∧ info.version = protocolVersion

theorem Welcomed.append {received : Bytes} (h : Welcomed received) (more : Bytes) :
    Welcomed (received ++ more) := by
  obtain ⟨header, payload, rest, info, hreceived, hrest⟩ := h
  refine ⟨header, payload, rest ++ more, info, ?_, hrest⟩
  rw [hreceived, List.append_assoc]

/-- A frame may be written to this socket: HELLO first, and others after its response. -/
def Transcript.Admits (token : Option Str) (t : Transcript) (frame : Bytes) : Prop :=
  t.closed = false ∧ (t.written = [] → IsHello token frame) ∧ (t.written ≠ [] → Welcomed t.received)

def permits (token : Option Str) (s : Sockets) : NetOp → Prop
  | .sendall sock frame | .writeDrain sock frame => ∃ t, s sock = some t ∧ t.Admits token frame
  | _ => True

/-- Sockets are new when they are opened; apart from that any operation may end in any way. -/
def step (s : Sockets) : (op : NetOp) → op.Answer → Sockets → Prop
  | .createConnection _ _ _, .ok sock, s' => s sock = none ∧ s' = s.opened sock
  | .openConnection _ _ _, .ok sock, s' => s sock = none ∧ s' = s.opened sock
  | .sendall sock frame, _, s' =>
    s' = s.alter sock fun t => { t with written := t.written ++ [frame] }
  | .writeDrain sock frame, _, s' =>
    s' = s.alter sock fun t => { t with written := t.written ++ [frame] }
  | .recv sock _, .ok chunk, s' =>
    s' = s.alter sock fun t => { t with received := t.received ++ chunk.1 }
  | .readexactly sock _, .ok data, s' =>
    s' = s.alter sock fun t => { t with received := t.received ++ data.1 }
  | .readexactly sock _, .error _, s' => ∃ more,
    s' = s.alter sock fun t => { t with received := t.received ++ more }
  | .closeSocket sock, _, s' => s' = s.alter sock fun t => { t with closed := true }
  | _, _, s' => s' = s

def world (token : Option Str) : World Net Sockets where
  permits := permits token
  step := step

section Rules
variable {token : Option Str}

theorem keeps_setting (J : Sockets → Prop) : Keeps (world token) NetOp.Setting J := by
  intro s op hop hs
  cases op with
  | monotonic => exact ⟨trivial, fun a s' h => h ▸ hs⟩
  | settimeout sock timeout => exact ⟨trivial, fun a s' h => h ▸ hs⟩
  | enterTimeout delay => exact ⟨trivial, fun a s' h => h ▸ hs⟩
  | _ => exact hop.elim

/-- The socket is open, something was written to it, and these bytes were read from it. -/
def Reads (sock : SockId) (received : Bytes) (s : Sockets) : Prop :=
  ∃ t, s sock = some t ∧ t.closed = false ∧ t.written ≠ [] ∧ t.received = received

theorem Reads.receive {sock : SockId} {received : Bytes} {s : Sockets} (h : Reads sock received s)
    (more : Bytes) :
    Reads sock (received ++ more) (s.alter sock fun t =>
      { t with received := t.received ++ more }) := by
  obtain ⟨t, hsock, hopen, hwritten, hreceived⟩ := h
  refine ⟨_, Sockets.alter_self hsock _, hopen, hwritten, ?_⟩
  rw [hreceived]

theorem reader (sock : SockId) : Reader (world token) sock (Reads sock) where
  setting _ := keeps_setting _
  recv b s size h := by
    refine ⟨trivial, fun answer s' hstep => ?_⟩
    match answer, hstep with
    | .ok chunk, hstep => exact hstep ▸ h.receive chunk.1
    | .error _, hstep => exact hstep ▸ h
  readexactly b s size h := by
    refine ⟨trivial, fun answer s' hstep => ?_⟩
    match answer, hstep with
    | .ok data, hstep => exact hstep ▸ h.receive data.1
    | .error _, ⟨more, hstep⟩ => exact ⟨more, hstep ▸ h.receive more⟩

/-- The handshake of the socket is complete. -/
def Ready (sock : SockId) (s : Sockets) : Prop := ∃ received, Welcomed received ∧ Reads sock received s

theorem Reads.write {sock : SockId} {received : Bytes} {s : Sockets} (h : Reads sock received s)
    (frame : Bytes) :
    Reads sock received (s.alter sock fun t => { t with written := t.written ++ [frame] }) := by
  obtain ⟨t, hsock, hopen, -, hreceived⟩ := h
  exact ⟨_, Sockets.alter_self hsock _, hopen, by simp, hreceived⟩

theorem Reads.admits {sock : SockId} {received : Bytes} {s : Sockets} (h : Reads sock received s)
    (hwelcome : Welcomed received) (frame : Bytes) :
    ∃ t, s sock = some t ∧ t.Admits token frame := by
  obtain ⟨t, hsock, hopen, hwritten, hreceived⟩ := h
  exact ⟨t, hsock, hopen, fun hnil => absurd hnil hwritten, fun _ => hreceived ▸ hwelcome⟩

theorem step_writeOp (p : Package) {sock : SockId} {frame : Bytes} {s s' : Sockets}
    {a : (p.writeOp sock frame).Answer} (h : step s (p.writeOp sock frame) a s') :
    s' = s.alter sock fun t => { t with written := t.written ++ [frame] } := by
  cases p <;> exact h

theorem permits_writeOp (p : Package) {sock : SockId} {frame : Bytes} {s : Sockets} :
    permits token s (p.writeOp sock frame) ↔ ∃ t, s sock = some t ∧ t.Admits token frame := by
  cases p <;> exact Iff.rfl

/-! ## A connection between its operations -/

/-- The connection has these settings, and its socket, if it has one, is past the handshake. -/
def Settled (settings : Settings) (c : Connection) (s : Sockets) : Prop :=
  c.settings = settings ∧ ∀ sock, c.sock = some sock → Ready sock s

section Settled
variable {settings : Settings} (p : Package)

theorem settled_update {f : Connection → Connection} (hsettings : ∀ c, (f c).settings = c.settings)
    (hsock : ∀ c, (f c).sock = c.sock) : Method.Preserves (world token) (Settled settings)
      (Method.update f : ConnM Unit) := by
  refine .update fun c s hs => ⟨(hsettings c).trans hs.1, fun sock h => hs.2 sock ?_⟩
  rw [← hsock c]
  exact h

theorem settled_setInFlight (flag : Bool) :
    Method.Preserves (world token) (Settled settings) (setInFlight flag) :=
  settled_update (fun _ => rfl) fun _ => rfl

theorem noteWrite_settled {c : Connection} {s : Sockets} (hs : Settled settings c s)
    (r : Except Exc Unit) : Settled settings (c.noteWrite r) s := by
  unfold Connection.noteWrite
  split <;> exact hs

theorem settled_writeRequest (command : Command) (d : Deadline) :
    Method.Preserves (world token) (Settled settings) (p.transport.writeRequest command d) := by
  intro c s hs
  apply wpm_writeRequest p (keeps_setting (Settled settings c)) command d hs
  · exact fun e s' _ hs' => hs'
  · intro sock frame s' hs' hsock _ _
    obtain ⟨received, hwelcome, hreads⟩ := hs'.2 sock hsock
    refine ⟨(permits_writeOp p).mpr (hreads.admits hwelcome frame), fun a s₁ h => ?_⟩
    have hs₁ : Settled settings c s₁ := by
      refine ⟨hs'.1, fun sock' hsock' => ?_⟩
      have heq : sock = sock' := Option.some.inj (hsock.symm.trans hsock')
      rw [step_writeOp p h, ← heq]
      exact ⟨received, hwelcome, hreads.write frame⟩
    exact noteWrite_settled hs₁ _

theorem settled_readFrame (d : Deadline) :
    Method.Preserves (world token) (Settled settings) (p.transport.readFrame d) := by
  intro c s hs
  cases hsock : c.sock with
  | none => exact wpm_readFrame_closed p hsock hs
  | some sock =>
    obtain ⟨received, hwelcome, hreads⟩ := hs.2 sock hsock
    refine wpm_mono (wpm_readFrame p (reader sock) d hsock hreads) ?_
    intro r c' s' ⟨hc, hr⟩
    obtain ⟨more, hgot⟩ := hr.got
    rw [hc]
    refine ⟨hs.1, fun sock' hsock' => ?_⟩
    have heq : sock = sock' := Option.some.inj (hsock.symm.trans hsock')
    rw [← heq]
    exact ⟨_, hwelcome.append more, hgot⟩

theorem settled_send (command : Command) (d : Deadline) :
    Method.Preserves (world token) (Settled settings) (p.transport.send command d) :=
  (settled_writeRequest p command d).bind fun _ => (settled_readFrame p d).bind fun _ =>
    (settled_setInFlight false).bind fun _ => .pure _

theorem settled_sendChunked (rounds : ℕ) (command : Command) (d : Deadline) :
    Method.Preserves (world token) (Settled settings) (p.transport.sendChunked rounds command d) := by
  refine (settled_writeRequest p command d).bind fun _ => ?_
  generalize ([] : ChunkAssembler) = body
  induction rounds generalizing body with
  | zero => exact .halt trivial
  | succ rounds ih =>
    refine (settled_readFrame p d).bind fun frame => .bind (.ofExcept _) fun out => ?_
    obtain ⟨_ | response, body'⟩ := out
    · exact ih body'
    · exact (settled_setInFlight false).bind fun _ => .pure _

theorem settled_nextFrame (pollInterval : Option ℚ) :
    Method.Preserves (world token) (Settled settings) (p.transport.nextFrame pollInterval) := by
  cases pollInterval with
  | none => exact (settled_readFrame p _).bind fun _ => .pure _
  | some interval =>
    refine .bind ?_ fun d => (settled_readFrame p d).attempt.bind fun r => ?_
    · intro c s hs
      refine wpm_mono (wpm_of_leaves (keeps_setting (Settled settings c))
        (clocks_start (some interval)).sets hs) ?_
      intro r c' s' ⟨⟨hc, _⟩, hs'⟩
      rw [hc]
      exact hs'
    · split
      · exact .pure _
      · exact .pure _
      · exact .throw _

/-- The socket was just opened. -/
def Fresh (sock : SockId) (s : Sockets) : Prop := s sock = some ⟨[], [], false⟩

theorem dialer : Dialer (world token) (fun _ => True) Fresh where
  timeout _ _ _ := ⟨trivial, fun _ _ _ => trivial⟩
  create s host port timeout _ := by
    refine ⟨trivial, fun answer s' h => ?_⟩
    match answer, h with
    | .ok sock, h => exact h.2 ▸ s.opened_self sock
    | .error _, _ => trivial
  openTo s host port hostname _ := by
    refine ⟨trivial, fun answer s' h => ?_⟩
    match answer, h with
    | .ok sock, h => exact h.2 ▸ s.opened_self sock
    | .error _, _ => trivial
  wrap s sock hostname hs := ⟨trivial, fun _ _ h => h ▸ hs⟩
  close _ _ _ := ⟨trivial, fun _ _ _ => trivial⟩

/-- The handshake writes HELLO first, and succeeds only when the response accepts it. -/
theorem wpm_handshake {c : Connection} {s : Sockets} {sock : SockId} (hsock : c.sock = some sock)
    (hlimit : c.maxMessageSize = defaultMaxMessageSize) (hs : Fresh sock s) :
    wpm (world c.settings.token) p.transport.handshake (fun r c' s' => c'.settings = c.settings ∧
      c'.sock = some sock ∧ ∀ u, r = .ok u → Ready sock s') c s := by
  have hfailed : ∀ {e : Exc} {c' : Connection} {s' : Sockets}, c'.settings = c.settings →
      c'.sock = some sock → c'.settings = c.settings ∧ c'.sock = some sock ∧
        ∀ u, (Except.error e : Except Exc Unit) = .ok u → Ready sock s' := by
    intro e c' s' hsettings' hsock'
    exact ⟨hsettings', hsock', fun u h => by cases h⟩
  apply wpm_handshake_of
  · exact fun _ _ => hfailed rfl hsock
  · intro command hhello
    refine ⟨trivial, fun now s₁ h₁ => ?_⟩
    rw [show s₁ = s from h₁]
    apply wpm_send_of
    apply wpm_writeRequest p (keeps_setting (Fresh sock)) command _ hs
    · exact fun e s' _ _ => hfailed rfl hsock
    · intro sock' frame s₂ hs₂ hsock' _ hframe
      have heq : sock = sock' := Option.some.inj (hsock.symm.trans hsock')
      rw [← heq]
      refine ⟨(permits_writeOp p).mpr ⟨_, hs₂, rfl, fun _ => ⟨command, hhello, hframe⟩,
        fun h => absurd rfl h⟩, fun a s₃ h => ?_⟩
      have hs₃ : Reads sock [] s₃ := by
        rw [step_writeOp p h]
        exact ⟨_, Sockets.alter_self hs₂ _, rfl, by simp, rfl⟩
      have hsettings' := c.settings_noteWrite (p.wrote a)
      have hsock' : (c.noteWrite (p.wrote a)).sock = some sock := by rw [c.sock_noteWrite, hsock]
      have hlimit' : (c.noteWrite (p.wrote a)).maxMessageSize = defaultMaxMessageSize := by
        rw [c.maxMessageSize_noteWrite, hlimit]
      -- of the connection only its settings, its socket and its limit matter from here on
      generalize c.noteWrite (p.wrote a) = c₁ at hsettings' hsock' hlimit'
      cases p.wrote a with
      | error e => exact hfailed hsettings' hsock'
      | ok u =>
        refine wpm_mono (wpm_readFrame p (reader sock) _ hsock' hs₃) ?_
        intro r c' s₄ ⟨hc, hr⟩
        rw [hc]
        cases r with
        | error e => exact hfailed hsettings' hsock'
        | ok payload =>
          obtain ⟨header, hheader, hreads⟩ := hr
          rw [hlimit'] at hheader
          unfold Greeted
          dsimp only
          cases hinfo : parseHello payload with
          | error e => exact hfailed hsettings' hsock'
          | ok info =>
            dsimp only
            by_cases hversion : info.version = protocolVersion
            · rw [if_neg (not_not.mpr hversion)]
              refine ⟨hsettings', hsock', fun _ _ => ⟨_, ?_, hreads⟩⟩
              exact ⟨header, payload, [], info, (List.append_nil _).symm, hheader, hinfo, hversion⟩
            · rw [if_pos hversion]
              exact hfailed hsettings' hsock'

/-- A connect ends with a completed handshake, or with the connection closed. -/
theorem wpm_connect {c : Connection} {s : Sockets} (hclosed : c.sock = none) :
    wpm (world c.settings.token) p.transport.connect (fun r c' s' => Settled c.settings c' s' ∧
      ∀ e, r = .error e → c'.sock = none) c s := by
  have hleft : ∀ {r : Except Exc Unit} {c' : Connection} {s' : Sockets}, c'.settings = c.settings →
      c'.sock = none → Settled c.settings c' s' ∧ ∀ e, r = .error e → c'.sock = none := by
    intro r c' s' hsettings hsock
    refine ⟨⟨hsettings, fun sock h => ?_⟩, fun e _ => hsock⟩
    rw [hsock] at h
    cases h
  refine wpm_connect_by p dialer trivial (fun _ _ _ => hleft rfl hclosed) fun sock s₁ hs₁ => ?_
  refine wpm_mono (wpm_handshake p (c := c.dialed sock) rfl rfl hs₁) ?_
  intro r c' s₂ ⟨hsettings, hsock, hready⟩
  cases r with
  | error e =>
    exact wpm_close_of (fun _ _ => ⟨trivial, fun _ _ => hleft hsettings rfl⟩) fun _ =>
      hleft hsettings rfl
  | ok u =>
    refine ⟨⟨hsettings, fun sock' h => ?_⟩, fun e h => by cases h⟩
    have heq : sock = sock' := Option.some.inj (hsock.symm.trans h)
    rw [← heq]
    exact hready u rfl

theorem wpm_reconnect {c : Connection} {s : Sockets} :
    wpm (world c.settings.token) p.transport.reconnect (fun r c' s' => Settled c.settings c' s' ∧
      ∀ e, r = .error e → c'.sock = none) c s :=
  wpm_reconnect_of (fun _ _ => ⟨trivial, fun _ _ => wpm_connect p (c := { c with sock := none }) rfl⟩)
    fun _ => wpm_connect p (c := { c with sock := none }) rfl

end Settled

end Rules

/-! ## The life of a connection -/

/-- What the pool and the client do with a connection. -/
inductive ConnOp
  | connect
  | reconnect
  | close
  | send (command : Command) (deadline : Deadline)
  | sendChunked (rounds : ℕ) (command : Command) (deadline : Deadline)
  | openStream (command : Command)
  | nextFrame (pollInterval : Option ℚ)
  deriving DecidableEq

namespace ConnOp

def Opens (op : ConnOp) : Prop := op = .connect ∨ op = .reconnect

def run (t : Transport) : ConnOp → ConnM Unit
  | .connect => t.connect
  | .reconnect => t.reconnect
  | .close => closeConnection
  | .send command d => do
    let _ ← t.send command d
    return ()
  | .sendChunked rounds command d => do
    let _ ← t.sendChunked rounds command d
    return ()
  | .openStream command => t.openStream command
  | .nextFrame pollInterval => do
    let _ ← t.nextFrame pollInterval
    return ()

end ConnOp

/-- An operation, how it ended, and whether the connection was closed then. -/
structure Done where
  op : ConnOp
  result : Except Exc Unit
  closed : Bool

/-- Operations one after the other. A connect is only issued on a closed connection: by the factory
of the pool, and by `reconnect`. -/
def life (t : Transport) : List ConnOp → ConnM (List Done)
  | [] => return []
  | op :: ops => do
    if op = .connect ∧ (← Method.self).closed = false then life t ops
    else do
      let result ← Method.attempt (op.run t)
      let closed := (← Method.self).closed
      let later ← life t ops
      return ⟨op, result, closed⟩ :: later

/-- Operations keep a connection settled, and one that fails to open leaves it closed. -/
theorem wpm_run (p : Package) (op : ConnOp) {c : Connection} {s : Sockets}
    (hs : Settled c.settings c s) (hconnect : op = .connect → c.sock = none) :
    wpm (world c.settings.token) (op.run p.transport) (fun r c' s' => Settled c.settings c' s' ∧
      (op.Opens → ∀ e, r = .error e → c'.sock = none)) c s := by
  have hother : ¬ op.Opens → Method.Preserves (world c.settings.token) (Settled c.settings)
      (op.run p.transport) → wpm (world c.settings.token) (op.run p.transport)
        (fun r c' s' => Settled c.settings c' s' ∧
          (op.Opens → ∀ e, r = .error e → c'.sock = none)) c s := by
    intro hnot hkeeps
    exact wpm_mono (hkeeps c s hs) fun r c' s' h => ⟨h, fun hop => absurd hop hnot⟩
  cases op with
  | connect => exact wpm_mono (wpm_connect p (hconnect rfl)) fun r c' s' h => ⟨h.1, fun _ => h.2⟩
  | reconnect => exact wpm_mono (wpm_reconnect p) fun r c' s' h => ⟨h.1, fun _ => h.2⟩
  | close =>
    have hclosed : ∀ s', Settled c.settings { c with sock := none } s' ∧
        (ConnOp.close.Opens → ∀ e, (.ok () : Except Exc Unit) = .error e →
          (none : Option SockId) = none) :=
      fun _ => ⟨⟨rfl, fun sock h => by cases h⟩, fun _ _ _ => rfl⟩
    exact wpm_close_of (fun _ _ => ⟨trivial, fun s' _ => hclosed s'⟩) fun _ => hclosed s
  | send command d =>
    apply hother (by simp [ConnOp.Opens])
    exact (settled_send p command d).bind fun _ => .pure _
  | sendChunked rounds command d =>
    apply hother (by simp [ConnOp.Opens])
    exact (settled_sendChunked p rounds command d).bind fun _ => .pure _
  | openStream command =>
    apply hother (by simp [ConnOp.Opens])
    exact settled_writeRequest p command Deadline.unlimited
  | nextFrame pollInterval =>
    apply hother (by simp [ConnOp.Opens])
    exact (settled_nextFrame p pollInterval).bind fun _ => .pure _

theorem wpm_life (p : Package) (settings : Settings) (ops : List ConnOp) {c : Connection}
    {s : Sockets} (hs : Settled settings c s) :
    wpm (world settings.token) (life p.transport ops) (fun r _ _ => ∃ list, r = .ok list ∧
      ∀ done ∈ list, done.op.Opens → ∀ e, done.result = .error e → done.closed = true) c s := by
  induction ops generalizing c s with
  | nil => exact ⟨[], rfl, by simp⟩
  | cons op ops ih =>
    unfold life
    rw [wpm_bind, wpm_self]
    dsimp only
    by_cases hskip : op = .connect ∧ c.closed = false
    · rw [if_pos hskip]
      exact ih hs
    · rw [if_neg hskip, wpm_bind, wpm_attempt]
      have hconnect : op = .connect → c.sock = none := by
        intro hop
        by_contra hsock
        refine hskip ⟨hop, ?_⟩
        unfold Connection.closed
        rwa [Option.isNone_eq_false_iff, Option.isSome_iff_ne_none]
      obtain ⟨hsettings, hready⟩ := hs
      rw [← hsettings]
      refine wpm_mono (wpm_run p op ⟨rfl, hready⟩ hconnect) ?_
      intro r c' s' ⟨hs', hleft⟩
      dsimp only
      rw [wpm_bind, wpm_self]
      dsimp only
      rw [wpm_bind]
      rw [hsettings] at hs' ⊢
      refine wpm_mono (ih hs') ?_
      intro r' c₁ s₁ ⟨list, hr', hlist⟩
      rw [hr']
      refine ⟨_, rfl, List.forall_mem_cons.mpr ⟨fun hop e he => ?_, hlist⟩⟩
      change c'.sock.isNone = true
      rw [hleft hop e he]
      rfl

section Closed
variable (p : Package) {c : Connection}

theorem keeps_anything {P : NetOp → Prop} (J : Unit → Prop) : Keeps (anything P) P J :=
  fun _ _ hop hs => ⟨hop, fun _ _ _ => hs⟩

theorem closed_writeRequest (command : Command) (d : Deadline) (hclosed : c.sock = none) :
    wpm (anything NetOp.Setting) (p.transport.writeRequest command d)
      (fun r c' _ => (∃ e, r = .error e) ∧ c'.sock = none) c () := by
  apply wpm_writeRequest p (keeps_anything fun _ => True) command d trivial
  · exact fun e _ _ _ => ⟨⟨e, rfl⟩, hclosed⟩
  · intro sock frame _ _ hsock _ _
    rw [hclosed] at hsock
    cases hsock

/-- A closed connection writes nothing, and only a connect opens it: the other operations do no more
than read the clock. -/
theorem closed_run (op : ConnOp) (hop : ¬ op.Opens) (hclosed : c.sock = none) :
    wpm (anything NetOp.Setting) (op.run p.transport) (fun _ c' _ => c'.sock = none) c () := by
  -- a request that cannot be written goes no further
  have hwrite : ∀ {α : Type} (command : Command) (d : Deadline) (f : Unit → ConnM α),
      wpm (anything NetOp.Setting) (p.transport.writeRequest command d >>= f)
        (fun r c' _ => (∃ e, r = .error e) ∧ c'.sock = none) c () := by
    intro α command d f
    rw [wpm_bind]
    refine wpm_mono (closed_writeRequest p command d hclosed) ?_
    intro r c' s' ⟨⟨e, he⟩, hsock⟩
    rw [he]
    exact ⟨⟨e, rfl⟩, hsock⟩
  cases op with
  | connect => exact absurd (Or.inl rfl) hop
  | reconnect => exact absurd (Or.inr rfl) hop
  | close =>
    change wpm _ closeConnection _ _ _
    rw [wpm_closeConnection, hclosed]
  | send command d =>
    change wpm _ (p.transport.send command d >>= _) _ _ _
    rw [wpm_bind]
    refine wpm_mono (hwrite command d _) ?_
    intro r c' s' ⟨⟨e, he⟩, hsock⟩
    rw [he]
    exact hsock
  | sendChunked rounds command d =>
    change wpm _ (p.transport.sendChunked rounds command d >>= _) _ _ _
    rw [wpm_bind]
    refine wpm_mono (hwrite command d _) ?_
    intro r c' s' ⟨⟨e, he⟩, hsock⟩
    rw [he]
    exact hsock
  | openStream command =>
    exact wpm_mono (closed_writeRequest p command _ hclosed) fun r c' _ h => h.2
  | nextFrame pollInterval =>
    change wpm _ (p.transport.nextFrame pollInterval >>= _) _ _ _
    have hread : ∀ d, wpm (anything NetOp.Setting) (p.transport.readFrame d)
        (fun r c' _ => r = .error (.connectionError .closed) ∧ c'.sock = none) c () :=
      fun d => wpm_readFrame_closed p hclosed ⟨rfl, hclosed⟩
    rw [wpm_bind]
    cases pollInterval with
    | none =>
      change wpm _ (p.transport.readFrame _ >>= _) _ _ _
      rw [wpm_bind]
      refine wpm_mono (hread _) ?_
      intro r c' s' ⟨hr, hsock⟩
      rw [hr]
      exact hsock
    | some interval =>
      unfold Transport.nextFrame
      dsimp only
      rw [wpm_bind]
      refine wpm_mono (wpm_of_leaves (keeps_anything fun _ => True)
        (clocks_start (some interval)).sets trivial) ?_
      intro r c' s' ⟨⟨hc, _⟩, _⟩
      rw [hc]
      cases r with
      | error e => exact hclosed
      | ok d =>
        dsimp only
        rw [wpm_bind, wpm_attempt]
        refine wpm_mono (hread d) ?_
        intro r c' s' ⟨hr, hsock⟩
        rw [hr]
        exact hsock

end Closed

/-- No command before a completed handshake. Over the whole life of a connection, HELLO with the
configured token is the first frame on every socket, and another frame is written only where the
HELLO response was received and accepted. A connect or reconnect that raises leaves the connection
closed, and a closed connection writes nothing. -/
theorem no_command_before_handshake (p : Package) (settings : Settings) :
    (∀ ops : List ConnOp, wp (world settings.token)
      (life p.transport ops (Connection.new settings))
      (fun out _ => ∃ list, out.1 = .ok list ∧
        ∀ done ∈ list, done.op.Opens → ∀ e, done.result = .error e → done.closed = true)
      fun _ => none) ∧
    ∀ (op : ConnOp) (c : Connection), ¬ op.Opens → c.sock = none →
      wp (anything NetOp.Setting) (op.run p.transport c) (fun out _ => out.2.sock = none) () := by
  constructor
  · intro ops
    exact wpm_life p settings ops (c := Connection.new settings)
      ⟨rfl, fun sock h => by cases h⟩
  · exact fun op c hop hclosed => closed_run p op hop hclosed

end FqClient.HelloFirst
