import FqClient.Exchanges

namespace FqClient

open Effects

/-- `_execute` and `inspect`, up to the parsing of the payload. -/
def Transport.call (t : Transport) (config : ClientConfig) (sender : Sender) (rounds : ℕ)
    (command : Command) (timeout : Timeout) : ClientM Bytes := do
  let deadline ← config.deadline timeout
  t.withConnection config.settings deadline
    (t.withRetry config.reconnect command deadline (t.sender rounds sender) rounds 0)

namespace MalformedAnswers

/-! ## Where an answer is malformed -/

/-- The answer is malformed, and `rest` follows the place where that shows: behind the header of a
frame that is too long, or behind the first chunk that is not one. -/
inductive Malformed (limit : ℕ) : Sender → ChunkAssembler → (answer rest : Bytes) → Prop
  | header {sender : Sender} {body : ChunkAssembler} {header rest : Bytes} {e : Exc}
      (hlength : header.length = frameHeaderSize) (hsize : decodeFrameSize header limit = .error e) :
      Malformed limit sender body (header ++ rest) rest
  | chunk {body : ChunkAssembler} {header payload rest : Bytes} {what : Corruption}
      (hsize : decodeFrameSize header limit = .ok payload.length)
      (hfeed : body.feed payload = .error (.corruptedResponse what)) :
      Malformed limit .sendChunked body (header ++ payload ++ rest) rest
  | next {body body' : ChunkAssembler} {header payload answer rest : Bytes}
      (hsize : decodeFrameSize header limit = .ok payload.length)
      (hfeed : body.feed payload = .ok (none, body'))
        (h : Malformed limit .sendChunked body' answer rest) :
      Malformed limit .sendChunked body (header ++ payload ++ answer) rest

/-- Nothing is wrong with the request itself. -/
structure Fits (limit : ℕ) (command : Command) : Prop where
  limit : command.payload.length ≤ limit
  frame : command.payload.length < 2 ^ 32

/-- The request cannot be sent, or nothing follows the place where its answer is malformed. -/
def EndsThere (limit : ℕ) (sender : Sender) (command : Command) (answer : Bytes) : Prop :=
  Fits limit command → ∀ rest, Malformed limit sender [] answer rest → rest = []

/-! ## An answer on a connection of the pool -/

/-- The answer to a request on the connection: whether the request was written, the connection's
socket closed and the connection given back, and which bytes of the answer are unread and were read
after that. -/
structure Exchange where
  asked : Bool := false
  gone : Bool := false
  released : Bool := false
  unread : Bytes := []
  late : Bytes := []

namespace Exchange

/-- Bytes are read on the socket. Other bytes only follow the answer when the connection is used
again. -/
def Reads (s : Exchange) (data : Bytes) (s' : Exchange) : Prop :=
  if s.gone then s' = s
  else (data <+: s.unread ∨ s.released ∧ s.unread <+: data) ∧
    s' = { s with unread := s.unread.drop data.length,
                  late := if s.released then s.late ++ s.unread.take data.length else s.late }

def Writes (s : Exchange) (answer : Bytes) (s' : Exchange) : Prop :=
  if s.asked ∨ s.gone then s' = s else s' = { s with asked := true, unread := answer }

end Exchange

/-- The server answers the first request on the connection with these bytes. Otherwise anything may
happen, on the socket of the connection and on others. -/
def step (connection : Connection) (sock : SockId) (answer : Bytes) (s : Exchange) :
    (op : NetOp) → op.Answer → Exchange → Prop
  | .getSlot _, slot, s' => s' = s ∧ (s.released = false → slot = none ∨ slot = some (some connection))
  | .awaitSlot, .ok slot, s' => s' = s ∧ (s.released = false → slot = some connection)
  | .putSlot _, _, s' => s' = { s with released := true }
  | .sendall target _, .ok _, s' | .writeDrain target _, .ok _, s' =>
    if target = sock then s.Writes answer s' else s' = s
  | .recv source _, .ok chunk, s' => if source = sock then s.Reads chunk.1 s' else s' = s
  | .readexactly source _, .ok data, s' => if source = sock then s.Reads data.1 s' else s' = s
  | .readexactly source _, .error _, s' =>
    if source = sock then ∃ data, s.Reads data s' else s' = s
  | .createConnection _ _ _, .ok new, s' | .openConnection _ _ _, .ok new, s' =>
    s' = s ∧ (new = sock → s.gone)
  | .closeSocket closed, _, s' =>
    if closed = sock then s' = { s with gone := true, unread := [] } else s' = s
  | _, _, s' => s' = s

def world (connection : Connection) (sock : SockId) (answer : Bytes) : World Net Exchange where
  permits _ _ := True
  step := step connection sock answer

/-- A call whose answer turned out to be malformed leaves no byte of it to any later call. -/
def Harmless (p : Package) (connection : Connection) (sock : SockId) (sender : Sender)
    (command : Command) (answer : Bytes) : Prop :=
  ∀ config rounds timeout what s,
    (p.transport.call config sender rounds command timeout).Can (world connection sock answer)
      () {} (.error (.corruptedResponse what)) () s →
    ∀ config' sender' rounds' command' timeout',
      ¬ (p.transport.call config' sender' rounds' command' timeout').Meets
        (world connection sock answer) (·.late ≠ []) () s

/-! ## What a step leaves -/

/-- The answer is behind the connection: nothing of it is unread, and nothing was read late. -/
structure Settled (s : Exchange) : Prop where
  ended : s.asked = true ∨ s.gone = true
  unread : s.unread = []
  late : s.late = []

section Steps
variable {connection : Connection} {sock : SockId} {answer : Bytes} {s s' : Exchange}

theorem Settled.reads (hs : Settled s) {data : Bytes} (h : s.Reads data s') : Settled s' := by
  unfold Exchange.Reads at h
  split at h
  · rw [h]
    exact hs
  · rw [h.2, hs.unread, List.drop_nil, List.take_nil, List.append_nil, hs.late, ite_self]
    exact ⟨hs.ended, rfl, rfl⟩

theorem Settled.step (hs : Settled s) {op : NetOp} {a : op.Answer}
    (h : step connection sock answer s op a s') : Settled s' := by
  have hsame : s' = s → Settled s' := fun heq => heq ▸ hs
  have hwrite : ∀ {target : SockId}, (if target = sock then s.Writes answer s' else s' = s) →
      Settled s' := by
    intro target h
    split at h
    · unfold Exchange.Writes at h
      -- the server has answered once and answers no other write
      rw [if_pos hs.ended] at h
      exact hsame h
    · exact hsame h
  have hread : ∀ {source : SockId} {data : Bytes},
      (if source = sock then s.Reads data s' else s' = s) → Settled s' := by
    intro source data h
    split at h
    · exact hs.reads h
    · exact hsame h
  cases op with
  | getSlot | createConnection | openConnection | awaitSlot =>
    cases a <;> first | exact hsame h.1 | exact hsame h
  | putSlot =>
    rw [show s' = _ from h]
    exact ⟨hs.ended, hs.unread, hs.late⟩
  | sendall | writeDrain =>
    cases a with
    | ok => exact hwrite h
    | error => exact hsame h
  | recv =>
    cases a with
    | ok => exact hread h
    | error => exact hsame h
  | readexactly source =>
    cases a with
    | ok => exact hread h
    | error =>
      replace h : if source = sock then ∃ data, s.Reads data s' else s' = s := h
      split at h
      · obtain ⟨data, h⟩ := h
        exact hs.reads h
      · exact hsame h
  | closeSocket closed =>
    replace h : if closed = sock then s' = { s with gone := true, unread := [] } else s' = s := h
    split at h
    · rw [h]
      exact ⟨Or.inr rfl, rfl, hs.late⟩
    · exact hsame h
  | monotonic | random | sleep | asyncSleep | wrapSocket | settimeout | enterTimeout | poolClosed
  | shouldStop | yieldEvent => exact hsame h

/-- Whatever happens once the answer is behind the connection, it stays there. -/
theorem wpm_settled {κ α : Type} (m : Method Net κ Exc α) {c : κ} (hs : Settled s) :
    wpm (world connection sock answer) m (fun _ _ s' => Settled s') c s :=
  wp_of_invariant (fun _ _ => trivial) trivial (fun _ _ _ _ hs h => hs.step h) (m c) hs

end Steps

/-! ## The call -/

section Call
variable {connection : Connection} {sock : SockId} {answer : Bytes}

/-- An operation that neither reads, writes or closes a socket nor gives a connection back. -/
theorem keeps_aside {P : NetOp → Prop} (J : Exchange → Prop)
    (hP : ∀ op, P op → op.Setting ∨ op.Waiting) : Keeps (world connection sock answer) P J := by
  intro s op hop hs
  refine ⟨trivial, fun a s' hstep => ?_⟩
  have hsame : s' = s := by
    rcases hP op hop with h | h
    · cases op <;> first | exact h.elim | exact hstep
    · cases op <;> first | exact h.elim | exact hstep
  rw [hsame]
  exact hs

/-- So many bytes of the answer are read, all of them by the call itself. -/
def Got (answer b : Bytes) (s : Exchange) : Prop :=
  ∃ unread, answer = b ++ unread ∧ s = { asked := true, unread := unread }

theorem Got.reads {b data : Bytes} {s s' : Exchange} (hs : Got answer b s) (h : s.Reads data s') :
    Got answer (b ++ data) s' := by
  obtain ⟨unread, hanswer, rfl⟩ := hs
  unfold Exchange.Reads at h
  rw [if_neg Bool.false_ne_true] at h
  obtain ⟨hinitial | ⟨hreleased, _⟩, hs'⟩ := h
  · obtain ⟨rest, rfl⟩ := hinitial
    refine ⟨rest, ?_, ?_⟩
    · rw [hanswer, List.append_assoc]
    · rw [hs', List.drop_left]
      rfl
  · cases hreleased

theorem reader : Reader (world connection sock answer) sock (Got answer) where
  setting b := keeps_aside _ fun _ => Or.inl
  recv b s size hs := by
    refine ⟨trivial, fun a s' h => ?_⟩
    cases a with
    | ok chunk =>
      replace h : if sock = sock then s.Reads chunk.1 s' else s' = s := h
      rw [if_pos rfl] at h
      exact hs.reads h
    | error fault =>
      rw [show s' = s from h]
      exact hs
  readexactly b s size hs := by
    refine ⟨trivial, fun a s' h => ?_⟩
    cases a with
    | ok data =>
      replace h : if sock = sock then s.Reads data.1 s' else s' = s := h
      rw [if_pos rfl] at h
      exact hs.reads h
    | error fault =>
      replace h : if sock = sock then ∃ data, s.Reads data s' else s' = s := h
      rw [if_pos rfl] at h
      obtain ⟨data, h⟩ := h
      exact ⟨data, hs.reads h⟩

/-- The connection is open and held by the call. -/
structure Live (s : Exchange) : Prop where
  gone : s.gone = false
  late : s.late = []

/-- How a request ends: when its answer turns out to be malformed, what follows is unread. -/
structure Sent (limit : ℕ) (sender : Sender) (answer : Bytes) (r : Except Exc Bytes) (s : Exchange) :
    Prop where
  live : Live s
  malformed : ∀ what, r = .error (.corruptedResponse what) →
    s.asked = true ∧ Malformed limit sender [] answer s.unread

theorem Got.live {b : Bytes} {s : Exchange} (hs : Got answer b s) : Live s := by
  obtain ⟨unread, _, rfl⟩ := hs
  exact ⟨rfl, rfl⟩

theorem sent_of_ne {limit : ℕ} {sender : Sender} {r : Except Exc Bytes} {s : Exchange} (hs : Live s)
    (hne : ∀ what, r ≠ .error (.corruptedResponse what)) : Sent limit sender answer r s :=
  ⟨hs, fun what h => absurd h (hne what)⟩

theorem wpm_readChunks (p : Package) {d : Deadline} (rounds : ℕ) {body : ChunkAssembler}
    {b tail : Bytes} {c : Connection} {s : Exchange} (hsock : c.sock = some sock) (hs : Got answer b s)
    (hanswer : answer = b ++ tail)
    (hmalformed : ∀ rest, Malformed c.maxMessageSize .sendChunked body tail rest →
      Malformed c.maxMessageSize .sendChunked [] answer rest) :
    wpm (world connection sock answer) (p.transport.readChunks d rounds body)
      (fun r c' s' => c'.sock = some sock ∧ Sent c.maxMessageSize .sendChunked answer r s') c s := by
  induction rounds generalizing body b tail s with
  | zero => exact trivial
  | succ rounds ih =>
    unfold Transport.readChunks
    rw [wpm_bind]
    refine wpm_mono (wpm_readFrame p reader d hsock hs) ?_
    intro r c' s₁ hpost
    obtain ⟨hc, hr⟩ := hpost
    rw [hc]
    cases r with
    | error e =>
      obtain ⟨more, hgot, hcorrupted⟩ := hr
      refine ⟨hsock, hgot.live, fun what he => ?_⟩
      obtain ⟨hlength, hsize⟩ := hcorrupted what (Except.error.inj he)
      obtain ⟨unread, hanswer', rfl⟩ := hgot
      refine ⟨rfl, hmalformed unread ?_⟩
      rw [hanswer, List.append_assoc] at hanswer'
      rw [List.append_cancel_left hanswer']
      exact .header hlength hsize
    | ok payload =>
      obtain ⟨header, hsize, hgot⟩ := hr
      have hgot' := hgot
      obtain ⟨unread, hanswer', rfl⟩ := hgot'
      have htail : tail = header ++ payload ++ unread := by
        rw [hanswer, List.append_assoc, List.append_assoc] at hanswer'
        rw [List.append_cancel_left hanswer', List.append_assoc]
      dsimp only
      rw [wpm_bind, wpm_ofExcept]
      cases hfeed : body.feed payload with
      | error e =>
        refine ⟨hsock, ⟨rfl, rfl⟩, fun what he => ⟨rfl, hmalformed unread ?_⟩⟩
        rw [htail]
        exact .chunk hsize (hfeed.trans (congrArg _ (Except.error.inj he)))
      | ok fed =>
        obtain ⟨_ | response, body'⟩ := fed
        · refine ih hgot hanswer' fun rest h => hmalformed rest ?_
          rw [htail]
          exact .next hsize hfeed h
        · exact ⟨hsock, sent_of_ne ⟨rfl, rfl⟩ fun what he => by cases he⟩

/-- What was asked for can be sent. -/
def Asked (limit : ℕ) (sender : Sender) (command : Command) (answer : Bytes) (r : Except Exc Bytes)
    (s : Exchange) : Prop :=
  Sent limit sender answer r s ∧ ∀ what, r = .error (.corruptedResponse what) → Fits limit command

/-- What follows the writing of the request. -/
theorem wpm_asked (p : Package) {d : Deadline} {command : Command} {m : ConnM Bytes} {sender : Sender}
    {c : Connection} (hsock : c.sock = some sock)
    (hread : ∀ c' s, c'.sock = some sock → c'.maxMessageSize = c.maxMessageSize → Got answer [] s →
      wpm (world connection sock answer) m
        (fun r c₁ s' => c₁.sock = some sock ∧ Sent c.maxMessageSize sender answer r s') c' s) :
    wpm (world connection sock answer) (do
      p.transport.writeRequest command d
      m) (fun r c' s' => c'.sock = some sock ∧ Asked c.maxMessageSize sender command answer r s')
      c {} := by
  have hfresh : ∀ r : Except Exc Bytes, (∀ what, r ≠ .error (.corruptedResponse what)) →
      Asked c.maxMessageSize sender command answer r {} :=
    fun r hne => ⟨sent_of_ne ⟨rfl, rfl⟩ hne, fun what h => absurd h (hne what)⟩
  rw [wpm_bind]
  apply wpm_writeRequest p (J := (· = ({} : Exchange))) (keeps_aside _ fun _ => Or.inl) command d rfl
  · intro e s hne hs
    rw [hs]
    exact ⟨hsock, hfresh _ fun what he => hne what (Except.error.inj he)⟩
  · intro sock' frame s hs hsock' hlimit hframe
    have hfits : Fits c.maxMessageSize command := ⟨hlimit, lt_of_encodeFrame hframe⟩
    refine ⟨trivial, fun a s' h => ?_⟩
    rw [hs] at h
    have hsock₁ : (c.noteWrite (p.wrote a)).sock = some sock := by rw [c.sock_noteWrite, hsock]
    have hlimit₁ : (c.noteWrite (p.wrote a)).maxMessageSize = c.maxMessageSize := by
      rw [c.maxMessageSize_noteWrite]
    have hfailed : ∀ {e : Exc}, p.wrote a = .error e → s' = {} →
        (∀ what, e ≠ .corruptedResponse what) → (c.noteWrite (p.wrote a)).sock = some sock ∧
          Asked c.maxMessageSize sender command answer (.error e) s' := by
      intro e _ hs' hne
      rw [hs']
      exact ⟨hsock₁, hfresh _ fun what he => hne what (Except.error.inj he)⟩
    have hwritten : (if sock' = sock then Exchange.Writes {} answer s' else s' = {}) →
        Got answer [] s' := by
      intro h
      rw [if_pos (Option.some.inj (hsock'.symm.trans hsock)), Exchange.Writes,
        if_neg (by decide)] at h
      exact ⟨answer, rfl, h⟩
    have hrest : Got answer [] s' → wpm (world connection sock answer) m
        (fun r c₁ s' => c₁.sock = some sock ∧ Asked c.maxMessageSize sender command answer r s')
        (c.noteWrite (p.wrote a)) s' :=
      fun hgot => wpm_mono (hread _ s' hsock₁ hlimit₁ hgot)
        fun _ _ _ hsent => ⟨hsent.1, hsent.2, fun _ _ => hfits⟩
    cases p with
    | sync =>
      match a, h with
      | .ok _, h => exact hrest (hwritten h)
      | .error .timeout, h => exact hfailed rfl h fun what he => by cases he
      | .error .other, h => exact hfailed rfl h fun what he => by cases he
    | aio =>
      match a, h with
      | .ok _, h => exact hrest (hwritten h)
      | .error .timeout, h => exact hfailed rfl h fun what he => by cases he
      | .error .other, h => exact hfailed rfl h fun what he => by cases he
      | .error .cancelled, h => exact hfailed rfl h fun what he => by cases he

theorem wpm_sender (p : Package) (sender : Sender) (rounds : ℕ) (command : Command) (d : Deadline)
    {c : Connection} (hsock : c.sock = some sock) :
    wpm (world connection sock answer) (p.transport.sender rounds sender command d)
      (fun r c' s' => c'.sock = some sock ∧ Asked c.maxMessageSize sender command answer r s')
      c {} := by
  cases sender with
  | sendChunked =>
    refine wpm_asked p hsock fun c' s hsock' hlimit hgot => ?_
    rw [← hlimit]
    exact wpm_readChunks p rounds hsock' hgot rfl fun _ => id
  | send =>
    refine wpm_asked p hsock fun c' s hsock' hlimit hgot => ?_
    rw [wpm_bind]
    refine wpm_mono (wpm_readFrame p reader d hsock' hgot) ?_
    intro r c₁ s' ⟨hc, hr⟩
    rw [hc]
    cases r with
    | ok payload =>
      obtain ⟨header, _, hgot'⟩ := hr
      exact ⟨hsock', sent_of_ne hgot'.live fun what he => by cases he⟩
    | error e =>
      obtain ⟨more, hgot', hcorrupted⟩ := hr
      refine ⟨hsock', hgot'.live, fun what he => ?_⟩
      obtain ⟨hlength, hsize⟩ := hcorrupted what (Except.error.inj he)
      obtain ⟨unread, hanswer, rfl⟩ := hgot'
      refine ⟨rfl, ?_⟩
      rw [hanswer]
      rw [hlimit] at hsize
      exact .header hlength hsize

/-- When the answer turned out to be malformed, it is behind the connection. -/
def Over (r : Except Exc Bytes) (s : Exchange) : Prop :=
  ∀ what, r = .error (.corruptedResponse what) → Settled s

theorem over_of_ne {e : Exc} {s : Exchange} (hne : ∀ what, e ≠ .corruptedResponse what) :
    Over (.error e) s := fun what he => absurd (Except.error.inj he) (hne what)

theorem Asked.ended {limit : ℕ} {sender : Sender} {command : Command} {r : Except Exc Bytes}
    {s : Exchange} (hends : EndsThere limit sender command answer)
    (hs : Asked limit sender command answer r s) : Over r s := by
  intro what he
  obtain ⟨hasked, hmalformed⟩ := hs.1.malformed what he
  exact ⟨Or.inl hasked, hends (hs.2 what he) _ hmalformed, hs.1.live.late⟩

/-- A reconnect leaves the answer behind. -/
theorem wpm_retryReconnect (p : Package) (again : ConnM Bytes) {c : Connection} {s : Exchange}
    (hsock : c.sock = some sock) (hs : Live s) :
    wpm (world connection sock answer) (p.transport.retryReconnect again)
      (fun _ _ s' => Settled s') c s := by
  unfold Transport.retryReconnect Transport.reconnect
  rw [wpm_bind, wpm_attempt, wpm_bind, wpm_closeConnection, hsock]
  refine ⟨trivial, fun s₁ h => ?_⟩
  replace h : if sock = sock then s₁ = { s with gone := true, unread := [] } else s₁ = s := h
  rw [if_pos rfl] at h
  have hs₁ : Settled s₁ := by
    rw [h]
    exact ⟨Or.inr rfl, rfl, hs.late⟩
  refine wpm_mono (wpm_settled p.transport.connect hs₁) ?_
  intro r c₂ s₂ hs₂
  match r with
  | .ok _ => exact wpm_settled again hs₂
  | .error e => exact wpm_settled _ hs₂

theorem wpm_withRetry (p : Package) (policy : ReconnectPolicy) (command : Command) (d : Deadline)
    (sender : Sender) (chunks rounds : ℕ) {c : Connection} (hsock : c.sock = some sock)
    (hends : EndsThere c.maxMessageSize sender command answer) :
    wpm (world connection sock answer)
      (p.transport.withRetry policy command d (p.transport.sender chunks sender) rounds 0)
      (fun r _ s' => Over r s') c {} := by
  cases rounds with
  | zero => exact trivial
  | succ rounds =>
    unfold Transport.withRetry
    rw [wpm_bind, wpm_attempt]
    refine wpm_mono (wpm_sender p sender chunks command d hsock) ?_
    intro r c₁ s₁ ⟨hsock₁, hsent⟩
    cases r with
    | ok response => exact fun what he => by cases he
    | error e =>
      cases e with
      | connectionError fault =>
        have hfault : Over (.error (.connectionError fault)) s₁ :=
          over_of_ne fun what he => by cases he
        dsimp only
        unfold Transport.retryFailed
        rw [wpm_bind, wpm_self]
        dsimp only
        rw [wpm_ite]
        split
        · exact hfault
        rw [wpm_ite]
        split
        · exact hfault
        rw [wpm_bind]
        refine wpm_mono (wpm_of_leaves (keeps_aside (· = s₁) fun _ => Or.inr)
          (p.backoff_raises policy _ d) rfl) ?_
        intro r c₂ s₂ ⟨⟨hc₂, hr⟩, hs₂⟩
        rw [hc₂, hs₂]
        cases r with
        | error e =>
          refine over_of_ne fun what he => ?_
          have hwaiting := hr e rfl
          rw [he] at hwaiting
          exact hwaiting
        | ok _ =>
          -- a reconnect closes the socket with the answer on it, and no later round reads it
          refine wpm_mono (wpm_retryReconnect p _ hsock₁ hsent.1.live) ?_
          exact fun _ _ _ hs _ _ => hs
      | _ => exact hsent.ended hends

/-- The pool hands out the connection, or the call ends before it has one. -/
theorem wpm_take (p : Package) (d : Deadline) :
    wpm (world connection sock answer) (p.transport.take d) (fun r _ s' => s' = {} ∧
      match r with
      | .ok slot => slot = some connection
      | .error e => ∀ what, e ≠ .corruptedResponse what) () {} := by
  apply wpm_take_of (J := fun s' => s' = {}) p
  · refine wpm_mono (wpm_of_leaves (keeps_aside (· = ({} : Exchange)) fun _ => Or.inl)
      (clocks_remaining d).sets rfl) ?_
    intro r _ s₁ hpost
    cases r with
    | error e => exact ⟨hpost.2, hpost.1.2 e rfl⟩
    | ok _ => exact hpost.2
  · intro timeout s₁ hs₁
    rw [hs₁]
    refine ⟨trivial, fun slot s₂ h => ?_⟩
    obtain ⟨hs₂, hslot⟩ := h
    rw [hs₂]
    rcases hslot rfl with rfl | rfl
    · exact ⟨rfl, fun what he => by cases he⟩
    · exact ⟨rfl, rfl⟩
  · intro delay s₁ hs₁
    rw [hs₁]
    refine ⟨trivial, fun _ s₂ h₂ => ?_⟩
    rw [show s₂ = {} from h₂]
    refine ⟨trivial, fun slot s₃ h₃ => ?_⟩
    cases slot with
    | ok slot => exact ⟨h₃.1, h₃.2 rfl⟩
    | error fault => cases fault <;> exact ⟨h₃, fun what he => by cases he⟩

theorem wpm_acquire (p : Package) (settings : Settings) (d : Deadline) :
    wpm (world connection sock answer) (p.transport.acquire settings d) (fun r _ s' => s' = {} ∧
      match r with
      | .ok c => c = connection
      | .error e => ∀ what, e ≠ .corruptedResponse what) () {} := by
  apply wpm_acquire_of (J := fun s' => s' = {})
  · rw [wpm_perform_op]
    refine ⟨trivial, fun closed s₁ h₁ => ?_⟩
    rw [show s₁ = {} from h₁]
    dsimp only
    split
    · exact ⟨rfl, fun what he => by cases he⟩
    · rfl
  · intro s₁ hs₁
    rw [hs₁]
    refine wpm_mono (wpm_take p d) ?_
    intro r _ s₂ hpost
    obtain ⟨hs₂, hr⟩ := hpost
    cases r with
    | error e => exact ⟨hs₂, hr⟩
    | ok slot =>
      rw [show slot = _ from hr]
      exact ⟨hs₂, rfl⟩

theorem wpm_release (c : Connection) (s : Exchange) :
    wpm (world connection sock answer) (Transport.release c) (fun r _ _ => r = .ok ()) () s := by
  apply wpm_release_of (J := fun _ => True)
  · exact ⟨trivial, fun _ _ _ => trivial⟩
  · intro s₁ _
    rw [wpm_closeConnection]
    cases c.sock with
    | none => rfl
    | some sock' => exact ⟨trivial, fun _ _ => rfl⟩
  · exact fun _ _ => ⟨trivial, fun _ _ _ => rfl⟩

theorem wpm_call (p : Package) (config : ClientConfig) (sender : Sender) (rounds : ℕ)
    (command : Command) (timeout : Timeout) (hsock : connection.sock = some sock)
    (hends : EndsThere connection.maxMessageSize sender command answer) :
    wpm (world connection sock answer) (p.transport.call config sender rounds command timeout)
      (fun r _ s' => Over r s') () {} := by
  unfold Transport.call ClientConfig.deadline
  rw [wpm_bind]
  refine wpm_mono (wpm_of_leaves (keeps_aside (· = ({} : Exchange)) fun _ => Or.inl)
    (clocks_start (κ := Unit) _).sets rfl) ?_
  intro r _ s₁ ⟨⟨_, hr⟩, hs₁⟩
  rw [hs₁]
  cases r with
  | error e => exact over_of_ne (hr e rfl)
  | ok d =>
    dsimp only
    apply wpm_withConnection_of
    refine wpm_mono (wpm_acquire p config.settings d) ?_
    intro r _ s₂ ⟨hs₂, hr⟩
    rw [hs₂]
    cases r with
    | error e => exact over_of_ne hr
    | ok c =>
      rw [show c = connection from hr]
      refine wpm_mono (wpm_withRetry p config.reconnect command d sender rounds rounds hsock hends) ?_
      intro r c₃ s₃ hover
      by_cases hcorrupted : ∃ what, r = .error (.corruptedResponse what)
      · obtain ⟨what, hr⟩ := hcorrupted
        refine wpm_mono (wpm_settled (Transport.release c₃) (hover what hr)) ?_
        intro r' _ s₄ hs₄
        cases r' with
        | error e => exact fun _ _ => hs₄
        | ok _ => exact fun _ _ => hs₄
      · refine wpm_mono (wpm_release c₃ s₃) ?_
        intro r' _ s₄ hr'
        rw [hr']
        exact fun what he => absurd ⟨what, he⟩ hcorrupted

/-- An answer that ends where it is malformed harms no later call. -/
theorem harmless_of_endsThere {p : Package} {sender : Sender} {command : Command}
    (hsock : connection.sock = some sock)
    (hends : EndsThere connection.maxMessageSize sender command answer) :
    Harmless p connection sock sender command answer := by
  intro config rounds timeout what s hcan config' sender' rounds' command' timeout' hmeets
  have hsettled : Settled s :=
    wp_result (wpm_call p config sender rounds command timeout hsock hends) hcan what rfl
  obtain ⟨q, s', hreaches, hlate⟩ := hmeets
  exact hlate (reaches_of_invariant (fun _ _ _ _ hs h => hs.step h) hsettled hreaches).late

end Call

/-! ## The call that finds the rest -/

section Harm
variable {connection : Connection} {sock : SockId} {answer : Bytes}

/-- The request was written, and these bytes of the answer are unread. -/
def asking (unread : Bytes) : Exchange := { asked := true, unread := unread }

theorem unhurried (s : Exchange) : Unhurried (world connection sock answer) sock s := ⟨rfl, rfl⟩

theorem step_write (p : Package) (frame : Bytes) :
    step connection sock answer {} (p.writeOp sock frame) p.written (asking answer) := by
  have hwrites : Exchange.Writes {} answer (asking answer) := by
    unfold Exchange.Writes
    rw [if_neg (by decide)]
    rfl
  cases p <;> exact (if_pos rfl).mpr hwrites

theorem step_read (p : Package) {size : ℕ} {data : Bytes} (h : data.length = size) (unread : Bytes) :
    step connection sock answer (asking (data ++ unread)) (p.readOp sock size) (p.delivered data h)
      (asking unread) := by
  have hreads : (asking (data ++ unread)).Reads data (asking unread) := by
    refine ⟨Or.inl (List.prefix_append _ _), ?_⟩
    unfold asking
    dsimp only
    rw [List.drop_left]
    rfl
  cases p <;> exact (if_pos rfl).mpr hreads

/-- A frame that is too long. -/
theorem can_reject (p : Package) {c : Connection} (hsock : c.sock = some sock)
    {header : Bytes} {e : Exc}
    (hlength : header.length = frameHeaderSize)
    (hsize : decodeFrameSize header c.maxMessageSize = .error e)
    (rest : Bytes) :
    (p.transport.readFrame Deadline.unlimited).Can (world connection sock answer) c
      (asking (header ++ rest)) (.error e) c (asking rest) :=
  can_readFrame p hsock (unhurried _) (can_receive_error p hlength (step_read p hlength rest) hsize)

/-- A frame that is not. -/
theorem can_accept (p : Package) {c : Connection} (hsock : c.sock = some sock) {header payload : Bytes}
    (hsize : decodeFrameSize header c.maxMessageSize = .ok payload.length) (rest : Bytes) :
    (p.transport.readFrame Deadline.unlimited).Can (world connection sock answer) c
      (asking (header ++ payload ++ rest)) (.ok payload) c (asking rest) := by
  have hlength := (decodeFrameSize_ok hsize).1
  rw [List.append_assoc]
  refine can_readFrame p hsock (unhurried _) (can_receive p hlength (step_read p hlength _) hsize ?_ ?_)
  · exact fun _ => step_read p rfl rest
  · intro hempty
    rw [hempty]
    rfl

theorem can_readChunks (p : Package) {c : Connection} (hsock : c.sock = some sock)
    {sender : Sender} {body : ChunkAssembler} {tail rest : Bytes}
    (h : Malformed c.maxMessageSize sender body tail rest) (hsender : sender = .sendChunked) :
    ∃ rounds what, (p.transport.readChunks Deadline.unlimited (rounds + 1) body).Can
      (world connection sock answer) c (asking tail) (.error (.corruptedResponse what)) c
      (asking rest) := by
  induction h with
  | @header sender body header rest e hlength hsize =>
    obtain ⟨what, rfl⟩ := decodeFrameSize_error hsize
    exact ⟨0, what, (can_reject p hsock hlength hsize rest).bind_error⟩
  | @chunk body header payload rest what hsize hfeed =>
    refine ⟨0, what, (can_accept p hsock hsize rest).bind ?_⟩
    rw [hfeed]
    exact (can_ofExcept _ _ _).bind_error
  | @next body body' header payload answer rest hsize hfeed _ ih =>
    obtain ⟨rounds, what, hcan⟩ := ih rfl
    refine ⟨rounds + 1, what, (can_accept p hsock hsize answer).bind ?_⟩
    rw [hfeed]
    exact (can_ofExcept _ _ _).bind hcan

/-- The connection once its request is in flight. -/
def asked (connection : Connection) : Connection := { connection with requestInFlight := true }

theorem can_sender (p : Package) {command : Command} {sender : Sender} {rest : Bytes}
    (hsock : connection.sock = some sock) (hfits : Fits connection.maxMessageSize command)
    (h : Malformed connection.maxMessageSize sender [] answer rest) :
    ∃ rounds what, (p.transport.sender (rounds + 1) sender command Deadline.unlimited).Can
      (world connection sock answer) connection {} (.error (.corruptedResponse what))
      (asked connection) (asking rest) := by
  have hwrite : (p.transport.writeRequest command Deadline.unlimited).Can (world connection sock answer)
      connection {} (.ok ()) (asked connection) (asking answer) :=
    can_writeRequest p hsock hfits.limit (encodeFrame_ok hfits.frame) (unhurried _) (step_write p _)
  cases sender with
  | sendChunked =>
    obtain ⟨rounds, what, hcan⟩ := can_readChunks (c := asked connection) p hsock h rfl
    exact ⟨rounds, what, hwrite.bind hcan⟩
  | send =>
    cases h with
    | @header _ _ header _ e hlength hsize =>
      obtain ⟨what, rfl⟩ := decodeFrameSize_error hsize
      exact ⟨0, what, hwrite.bind (can_reject (c := asked connection) p hsock hlength
        hsize rest).bind_error⟩

/-- The pool hands out this connection. -/
theorem can_acquire (p : Package) (settings : Settings) {c : Connection} {s : Exchange}
    (hc : s.released = false → c = connection) :
    (p.transport.acquire settings Deadline.unlimited).Can (world connection sock answer) () s (.ok c)
      () s := by
  have htake : (p.transport.take Deadline.unlimited).Can (world connection sock answer) () s
      (.ok (some c)) () s := by
    cases p with
    | sync =>
      have hslot : step connection sock answer s (.getSlot none) (some (some c)) s :=
        ⟨rfl, fun h => Or.inr (by rw [hc h])⟩
      refine Method.Can.bind (b := none) (d := ()) (t := s) .refl ?_
      exact Method.Can.bind (b := some (some c)) (d := ()) (t := s) (can_perform_op hslot) .refl
    | aio =>
      have hslot : step connection sock answer s .awaitSlot (.ok (some c)) s :=
        ⟨rfl, fun h => by rw [hc h]⟩
      refine Method.Can.bind (b := none) (d := ()) (t := s) .refl ?_
      refine Method.Can.bind (b := ()) (d := ()) (t := s) (can_perform_op rfl) ?_
      exact Method.Can.bind (b := (.ok (some c) : Except TakeFault (Option Connection))) (d := ())
        (t := s) (can_perform_op hslot) .refl
  unfold Transport.acquire
  refine Method.Can.bind (b := false) (can_perform_op rfl) ?_
  rw [if_neg Bool.false_ne_true]
  exact htake.bind (can_pure _ _ _)

theorem can_release (c : Connection) {s : Exchange} :
    (Transport.release c).Can (world connection sock answer) () s (.ok ()) ()
      { s with released := true } := by
  unfold Transport.release
  refine Method.Can.bind (b := false) (can_perform_op rfl) ?_
  rw [if_neg Bool.false_ne_true]
  exact can_perform_op rfl

/-- Some call finds the answer malformed and gives the connection back with the rest unread. -/
theorem can_call (p : Package) {command : Command} {sender : Sender} {rest : Bytes}
    (config : ClientConfig) (hsock : connection.sock = some sock)
    (hfits : Fits connection.maxMessageSize command)
    (h : Malformed connection.maxMessageSize sender [] answer rest) :
    ∃ rounds what, (p.transport.call config sender rounds command .unlimited).Can
      (world connection sock answer) () {} (.error (.corruptedResponse what)) ()
      { asking rest with released := true } := by
  obtain ⟨rounds, what, hcan⟩ := can_sender p hsock hfits h
  refine ⟨rounds + 1, what, ?_⟩
  have hretry : (p.transport.withRetry config.reconnect command Deadline.unlimited
      (p.transport.sender (rounds + 1) sender) (rounds + 1) 0).Can (world connection sock answer)
      connection {} (.error (.corruptedResponse what)) (asked connection) (asking rest) := by
    unfold Transport.withRetry
    exact hcan.attempt.bind (can_throw _ _ _)
  refine Method.Can.bind (b := Deadline.unlimited) (d := ()) (t := {}) (can_pure _ _ _) ?_
  unfold Transport.withConnection
  refine (can_acquire p config.settings fun _ => rfl).bind (hretry.on.bind ?_)
  exact (can_release _).bind (can_ofExcept _ _ _)

/-- A call that is handed the connection then reads from the rest. -/
theorem meets_call (p : Package) {command : Command} {rest : Bytes} (config : ClientConfig)
    (hsock : connection.sock = some sock) (hfits : Fits connection.maxMessageSize command)
    (hrest : rest ≠ []) :
    (p.transport.call config .send 1 command .unlimited).Meets (world connection sock answer)
      (·.late ≠ []) () { asking rest with released := true } := by
  -- the bytes of the rest, and others behind them when there are fewer than a header has
  obtain ⟨data, hlength, hinitial⟩ : ∃ data : Bytes, data.length = frameHeaderSize ∧
      (data <+: rest ∨ rest <+: data) := by
    refine ⟨(rest ++ [0, 0, 0, 0]).take frameHeaderSize, ?_, ?_⟩
    · rw [List.length_take, List.length_append]
      exact Nat.min_eq_left (Nat.le_add_left _ _)
    · exact List.prefix_or_prefix_of_prefix (List.take_prefix _ _) (List.prefix_append _ _)
  let s : Exchange := { asking rest with released := true }
  let s' : Exchange := { s with unread := rest.drop data.length, late := rest.take data.length }
  have hreads : s.Reads data s' := ⟨hinitial.imp_right fun h => ⟨rfl, h⟩, rfl⟩
  have hread : step connection sock answer s (p.readOp sock frameHeaderSize)
      (p.delivered data hlength) s' := by
    cases p <;> exact (if_pos rfl).mpr hreads
  have hlate : s'.late ≠ [] := by
    cases rest with
    | nil => exact absurd rfl hrest
    | cons byte rest =>
      change (byte :: rest).take data.length ≠ []
      rw [hlength]
      exact List.cons_ne_nil _ _
  obtain ⟨frame, hframe⟩ : ∃ frame, encodeFrame command.payload = .ok frame :=
    ⟨_, encodeFrame_ok hfits.frame⟩
  have hwrite : step connection sock answer s (p.writeOp sock frame) p.written s := by
    cases p <;> exact (if_pos rfl).mpr rfl
  have hsend : (p.transport.send command Deadline.unlimited).Meets (world connection sock answer)
      (·.late ≠ []) (asked connection) s := by
    refine .bind_after (can_writeRequest p hsock hfits.limit hframe (unhurried _) hwrite) ?_
    exact (meets_readFrame (c := asked connection) p hsock (unhurried _) hread hlate).bind
  have hretry : (p.transport.withRetry config.reconnect command Deadline.unlimited
      (p.transport.sender 1 .send) 1 0).Meets (world connection sock answer) (·.late ≠ [])
      (asked connection) s := by
    unfold Transport.withRetry
    exact hsend.attempt.bind
  refine .bind_after (b := Deadline.unlimited) (d := ()) (t := s) (can_pure _ _ _) ?_
  unfold Transport.withConnection
  refine .bind_after (can_acquire p config.settings fun h => ?_) hretry.on.bind
  cases h

/-- An answer with bytes behind the place where it is malformed harms a later call. -/
theorem endsThere_of_harmless {p : Package} {command : Command} {sender : Sender}
    (hsock : connection.sock = some sock) (h : Harmless p connection sock sender command answer) :
    EndsThere connection.maxMessageSize sender command answer := by
  intro hfits rest hmalformed
  let config : ClientConfig := { settings := connection.settings }
  obtain ⟨rounds, what, hcan⟩ := can_call p config hsock hfits hmalformed
  by_contra hrest
  exact h config rounds .unlimited what _ hcan config .send 1 command .unlimited
    (meets_call p config hsock hfits hrest)

end Harm

/-- A malformed answer harms no later call if and only if nothing of it follows the place where it is
malformed. -/
theorem malformed_answer_harmless_iff (p : Package) {connection : Connection} {sock : SockId}
    (sender : Sender) (command : Command) (answer : Bytes) (hsock : connection.sock = some sock) :
    Harmless p connection sock sender command answer ↔
      EndsThere connection.maxMessageSize sender command answer :=
  ⟨endsThere_of_harmless hsock, harmless_of_endsThere hsock⟩

/-- A connection of the pool, and a request on it. -/
def idle : Connection := { Connection.pooled with maxMessageSize := 1048576 }

/-- The header of a frame that is too long. -/
def longHeader : Bytes := beBytes (2 ^ 31 - 1)

theorem decodeFrameSize_longHeader : decodeFrameSize longHeader idle.maxMessageSize =
    .error (.corruptedResponse (.frameTooLong (2 ^ 31 - 1) idle.maxMessageSize)) := by
  decide

theorem long_header_harmless : Harmless .sync idle 3 .send Command.getHit longHeader := by
  refine (malformed_answer_harmless_iff .sync .send Command.getHit longHeader rfl).mpr ?_
  intro _ rest h
  have hheader : ∀ {answer : Bytes}, Malformed idle.maxMessageSize .send [] answer rest →
      frameHeaderSize + rest.length = answer.length := by
    intro answer h
    cases h with
    | header hlength _ => rw [List.length_append, hlength]
  have hlength : frameHeaderSize + rest.length = frameHeaderSize := hheader h
  exact List.eq_nil_of_length_eq_zero (Nat.add_left_cancel hlength)

/-- The frame of another answer behind such a header is read by the next call. -/
theorem bytes_behind_long_header_harm :
    ¬ Harmless .sync idle 3 .send Command.getHit (longHeader ++ [0, 0, 0, 2, 111, 107]) ∧
    ¬ Harmless .aio idle 3 .sendChunked Command.getHit (longHeader ++ [0, 0, 0, 2, 111, 107]) := by
  have hfits : Fits idle.maxMessageSize Command.getHit := ⟨by decide, by decide⟩
  constructor
  · intro h
    have hrest := endsThere_of_harmless rfl h hfits _ (.header rfl decodeFrameSize_longHeader)
    cases hrest
  · intro h
    have hrest := endsThere_of_harmless rfl h hfits _ (.header rfl decodeFrameSize_longHeader)
    cases hrest

end MalformedAnswers

end FqClient
