import FqClient.AtMostOnce
import FqClient.Sync.Reading
import Mathlib.Data.List.Induction

namespace FqClient

/-- An operation that the account of a call leaves out. -/
def NetOp.Unnoted : NetOp → Prop
  | .createConnection _ _ _ | .sendall _ _ | .settimeout _ _ | .recv _ _ => False
  | _ => True

theorem NetOp.Waiting.unnoted (op : NetOp) (h : op.Waiting) : op.Unnoted := by
  cases op <;> first | exact h.elim | trivial

namespace LostHandshake

open Effects

/-! ## What the log of a call says -/

/-- Where the last HELLO stands: nothing open, a new socket, HELLO written, its response awaited on
the socket, and the connection lost between the two. -/
inductive HelloPhase
  | idle
  | opened
  | sent
  | reading
  | lost
  deriving DecidableEq

/-- A new socket carries HELLO first; the next request on it sets the timeout of the socket anew. -/
def HelloPhase.next : HelloPhase → Event Net → HelloPhase
  | .lost, _ => .lost
  | _, ⟨.createConnection _ _ _, .ok _⟩ => .opened
  | _, ⟨.createConnection _ _ _, .error _⟩ => .idle
  | .opened, ⟨.sendall _ _, .ok _⟩ => .sent
  | .opened, ⟨.sendall _ _, .error _⟩ => .idle
  | .sent, ⟨.settimeout _ _, .ok _⟩ => .reading
  | .sent, ⟨.settimeout _ _, .error .osError⟩ => .lost
  | .reading, ⟨.settimeout _ _, _⟩ => .idle
  | .reading, ⟨.recv _ _, .ok chunk⟩ => if chunk.1 = [] then .lost else .reading
  | .reading, ⟨.recv _ _, .error .other⟩ => .lost
  | phase, _ => phase

/-- The frame of the command is written in full. -/
def writesInFull (command : Command) : Event Net → Bool
  | ⟨.sendall _ data, .ok _⟩ => encodeFrame command.payload = .ok data
  | _ => false

/-- What a call has done so far. -/
structure Attempts where
  phase : HelloPhase
  /-- Whether the own frame of the command was written in full. -/
  sent : Bool
  /-- The TCP connects of the call. -/
  connects : ℕ

def Attempts.note (command : Command) (s : Attempts) (event : Event Net) : Attempts where
  phase := s.phase.next event
  sent := writesInFull command event || s.sent
  connects := match event.1 with
    | .createConnection _ _ _ => s.connects + 1
    | _ => s.connects

def attempts (command : Command) (log : List (Event Net)) : Attempts :=
  log.foldl (Attempts.note command) ⟨.idle, false, 0⟩

/-- The own frame of the command was written in full. -/
def SentInFull (command : Command) (log : List (Event Net)) : Prop :=
  log.any (writesInFull command) = true

/-- A handshake of the call lost its connection after HELLO was written in full. -/
def HelloLost (command : Command) (log : List (Event Net)) : Prop :=
  (attempts command log).phase = .lost

/-- The next failure is one more than the policy allows. -/
def BudgetUsed (policy : ReconnectPolicy) (command : Command) (log : List (Event Net)) : Prop :=
  policy.exhausted ((attempts command log).connects + 1) = true

instance (command : Command) (log : List (Event Net)) : Decidable (HelloLost command log) :=
  inferInstanceAs (Decidable (_ = _))

instance (policy : ReconnectPolicy) (command : Command) (log : List (Event Net)) :
    Decidable (BudgetUsed policy command log) := inferInstanceAs (Decidable (_ = _))

instance (command : Command) (log : List (Event Net)) : Decidable (SentInFull command log) :=
  inferInstanceAs (Decidable (_ = _))

theorem attempts_concat (command : Command) (log : List (Event Net)) (event : Event Net) :
    attempts command (log ++ [event]) = (attempts command log).note command event :=
  List.foldl_append

theorem sent_iff (command : Command) (log : List (Event Net)) :
    (attempts command log).sent = true ↔ SentInFull command log := by
  unfold SentInFull
  induction log using List.reverseRecOn with
  | nil => exact Iff.rfl
  | append_singleton log event ih =>
    rw [attempts_concat]
    simp only [Attempts.note, List.any_append, List.any_cons, List.any_nil, Bool.or_eq_true,
      Bool.or_false, ih, or_comm]

section Note
variable {command : Command} {s : Attempts}

theorem note_unnoted {op : NetOp} (h : op.Unnoted) (answer : op.Answer) :
    s.note command ⟨op, answer⟩ = s := by
  have hphase : s.phase.next ⟨op, answer⟩ = s.phase := by
    cases op <;> first | exact h.elim | (cases s.phase <;> rfl)
  unfold Attempts.note
  rw [hphase]
  cases op <;> first | exact h.elim | rfl

end Note

section Contracts
variable {command : Command} {s : Attempts} {c : Connection}

/-- What comes before and is not noted. -/
theorem noted_bind_unnoted {κ α β : Type} {E : Exc → Prop} {m : Method Net κ Exc β}
    {f : β → Method Net κ Exc α} {Q : Except Exc α → κ → Attempts → Prop} {k : κ}
    (hm : m.Leaves NetOp.Unnoted E) (hf : ∀ b, wpm (monitor (Attempts.note command)) (f b) Q k s)
    (herror : ∀ e, E e → Q (.error e) k s) :
    wpm (monitor (Attempts.note command)) (m >>= f) Q k s := by
  rw [wpm_bind]
  have hframe := wpm_of_anything (W := monitor (Attempts.note command))
    (Q := fun r k' => k' = k ∧ Raises E r) (J := fun s' => s' = s) (fun _ _ _ _ => trivial)
    (fun s₁ op answer s₂ hop hs₁ hs₂ => by rw [hs₂, note_unnoted hop, hs₁]) (hm k) rfl
  refine wpm_mono hframe ?_
  rintro r k' s' ⟨⟨rfl, hr⟩, rfl⟩
  cases r with
  | error e => exact herror e (hr e rfl)
  | ok b => exact hf b

theorem unnoted_of_clocks {κ α : Type} {m : Method Net κ Exc α} (hm : Clocks m) :
    m.Leaves NetOp.Unnoted Exc.NotLost := by
  refine hm.mono (fun op h => ?_) fun e h => ?_
  · rw [h]
    trivial
  · rw [h]
    trivial

theorem noted_applyTimeout {Q : Except Exc Unit → Connection → Attempts → Prop} {sock : SockId}
    {d : Deadline}
    (hok : ∀ t, Q (.ok ()) c (s.note command ⟨.settimeout sock t, .ok ()⟩))
    (hlost : ∀ t, Q (.error (.connectionError .unusable)) c
      (s.note command ⟨.settimeout sock t, .error .osError⟩))
    (hoverflow : ∀ t, Q (.error (.overflowError .timeout)) c
      (s.note command ⟨.settimeout sock t, .error .overflow⟩))
    (hother : ∀ e : Exc, e.NotLost → Q (.error e) c s) :
    wpm (monitor (Attempts.note command)) (Sync.applyTimeout sock d) Q c s := by
  refine noted_bind_unnoted (unnoted_of_clocks (clocks_check d)) (fun _ => ?_) hother
  refine noted_bind_unnoted (unnoted_of_clocks (clocks_remaining d)) (fun remaining => ?_) hother
  split
  · exact hother _ trivial
  · rw [wpm_bind, wpm_perform_op]
    refine ⟨trivial, fun answer s' hs' => ?_⟩
    subst hs'
    cases answer with
    | error fault =>
      cases fault with
      | osError => exact hlost _
      | overflow => exact hoverflow _
    | ok => exact hok _

theorem computed_notLost {α : Type} {r : Except Exc α} (h : Raises Exc.Computed r) :
    Raises Exc.NotLost r := by
  refine h.mono fun e he => ?_
  cases e with
  | connectionError => exact he.elim
  | _ => trivial

theorem not_lost_settimeout {phase : HelloPhase} (h : phase ≠ .lost) (sock : SockId)
    (t : Option ℚ) {answer : Except SetFault Unit} (hanswer : answer ≠ .error .osError) :
    phase.next ⟨.settimeout sock t, answer⟩ ≠ .lost := by
  rcases answer with (_ | _) | _
  · exact absurd rfl hanswer
  · cases phase <;> first | exact absurd rfl h | exact HelloPhase.noConfusion
  · cases phase <;> first | exact absurd rfl h | exact HelloPhase.noConfusion

theorem not_lost_sendall {phase : HelloPhase} (h : phase ≠ .lost) (sock : SockId) (data : Bytes)
    (answer : Except OSFault Unit) : phase.next ⟨.sendall sock data, answer⟩ ≠ .lost := by
  cases phase <;> cases answer <;> first | exact absurd rfl h | exact HelloPhase.noConfusion

/-- A request on an open connection. -/
theorem noted_writeRequest {request : Command} {sock : SockId} {d : Deadline}
    {Q : Except Exc Unit → Connection → Attempts → Prop} (hsock : c.sock = some sock)
    (hphase : s.phase ≠ .lost)
    (hok : ∀ t frame, encodeFrame request.payload = .ok frame →
      Q (.ok ()) { c with requestInFlight := true }
        ((s.note command ⟨.settimeout sock t, .ok ()⟩).note command ⟨.sendall sock frame, .ok ()⟩))
    (hunusable : ∀ t, Q (.error (.connectionError .unusable)) c
      (s.note command ⟨.settimeout sock t, .error .osError⟩))
    (hlost : ∀ t frame, Q (.error (.connectionError .lostWhileSending)) c
      ((s.note command ⟨.settimeout sock t, .ok ()⟩).note command
        ⟨.sendall sock frame, .error .other⟩))
    (hother : ∀ (e : Exc) c' s', e.NotLost → s'.phase ≠ .lost → Q (.error e) c' s') :
    wpm (monitor (Attempts.note command)) (Sync.writeRequest request d) Q c s := by
  unfold Sync.writeRequest
  rw [wpm_bind, wpm_self]
  refine noted_bind_unnoted (.ofExcept (computed_notLost (raises_checkRequestSize _ _)))
    (fun _ => ?_) fun e he => hother e c s he hphase
  rw [wpm_bind, wpm_requireSocket, hsock]
  dsimp only
  rw [wpm_bind]
  refine noted_applyTimeout (fun t => ?_) hunusable
    (fun t => hother _ c _ trivial (not_lost_settimeout hphase sock t (fun h => by cases h)))
    fun e he => hother e c s he hphase
  have hset : s.phase.next ⟨.settimeout sock t, .ok ()⟩ ≠ .lost :=
    not_lost_settimeout hphase sock t fun h => by cases h
  dsimp only
  rw [wpm_bind, wpm_ofExcept]
  cases hframe : encodeFrame request.payload with
  | error e =>
    exact hother e c _ (computed_notLost (raises_encodeFrame _) e hframe) hset
  | ok frame =>
    dsimp only
    rw [wpm_bind, wpm_perform_op]
    refine ⟨trivial, fun answer s' hs' => ?_⟩
    subst hs'
    cases answer with
    | ok => exact hok t frame hframe
    | error fault =>
      cases fault with
      | timeout => exact hother _ _ _ trivial (not_lost_sendall hset sock frame _)
      | other => exact hlost t frame

/-- A request on a closed connection. -/
theorem noted_writeRequest_closed {request : Command} {d : Deadline}
    {Q : Except Exc Unit → Connection → Attempts → Prop} (hsock : c.sock = none)
    (hfits : request.payload.length ≤ c.maxMessageSize → Q (.error (.connectionError .closed)) c s)
    (hother : ∀ e : Exc, e.NotLost → ¬ request.payload.length ≤ c.maxMessageSize →
      Q (.error e) c s) :
    wpm (monitor (Attempts.note command)) (Sync.writeRequest request d) Q c s := by
  unfold Sync.writeRequest
  rw [wpm_bind, wpm_self]
  dsimp only
  rw [wpm_bind, wpm_ofExcept]
  by_cases h : request.payload.length ≤ c.maxMessageSize
  · have hsize : checkRequestSize request.payload c.maxMessageSize = .ok () := if_neg (by omega)
    rw [hsize]
    dsimp only
    rw [wpm_bind, wpm_requireSocket, hsock]
    exact hfits h
  · have hsize : checkRequestSize request.payload c.maxMessageSize =
        .error (requestTooLarge request.payload.length c.maxMessageSize) := if_pos (by omega)
    rw [hsize]
    exact hother _ trivial h

/-! ## The handshake -/

/-- How reading the response to HELLO ends: it is awaited no more, or its connection is lost, or
the call ends for another reason. -/
def Answered {α : Type} (r : Except Exc α) (phase : HelloPhase) : Prop :=
  match r with
  | .ok _ => phase = .reading
  | .error (.connectionError _) => phase = .lost
  | .error _ => phase ≠ .lost

theorem answered_of_notLost {α : Type} {e : Exc} {phase : HelloPhase} (he : e.NotLost)
    (h : phase ≠ .lost) : Answered (.error e : Except Exc α) phase := by
  cases e <;> first | exact h | exact he.elim

/-- What reading changes: the phase. -/
def ReadsHello {α : Type} (c : Connection) (s : Attempts) (r : Except Exc α) (c' : Connection)
    (s' : Attempts) : Prop :=
  c' = c ∧ s' = { s with phase := s'.phase } ∧ Answered r s'.phase

theorem noted_readExactly {sock : SockId} {size : ℕ} (sent : Bool) (connects : ℕ) :
    wpm (monitor (Attempts.note command)) (Sync.readExactly sock size)
      (ReadsHello c ⟨.reading, sent, connects⟩) c ⟨.reading, sent, connects⟩ := by
  refine Sync.wpm_readLoop_of (I := fun _ t => t = ⟨.reading, sent, connects⟩) ?_ ?_ size rfl
    (Nat.zero_le _) (by simp)
  · rintro buffer t - rfl
    exact ⟨rfl, rfl, rfl⟩
  · rintro buffer t - rfl
    refine ⟨trivial, fun answer s' hs' => ?_⟩
    subst hs'
    match answer with
    | .error .timeout => exact ⟨rfl, rfl, HelloPhase.noConfusion⟩
    | .error .other => exact ⟨rfl, rfl, rfl⟩
    | .ok chunk =>
      by_cases hchunk : chunk.1 = []
      · rw [Sync.failedRead_nil hchunk]
        exact ⟨rfl, rfl, if_pos hchunk⟩
      · rw [Sync.failedRead_chunk hchunk]
        simp [Attempts.note, HelloPhase.next, hchunk, writesInFull]

theorem noted_readFrame {sock : SockId} {d : Deadline} (hsock : c.sock = some sock)
    (hphase : s.phase = .sent) :
    wpm (monitor (Attempts.note command)) (Sync.readFrame d) (ReadsHello c s) c s := by
  obtain ⟨phase, sent, connects⟩ := s
  dsimp only at hphase
  subst hphase
  unfold Sync.readFrame
  rw [wpm_bind, wpm_requireSocket, hsock]
  dsimp only
  rw [wpm_bind]
  refine noted_applyTimeout (fun t => ?_) (fun t => ⟨rfl, rfl, rfl⟩)
    (fun t => ⟨rfl, rfl, HelloPhase.noConfusion⟩) fun e he => ?_
  · dsimp only
    rw [wpm_bind]
    refine wpm_mono (noted_readExactly sent connects) ?_
    rintro r c' s' ⟨rfl, hs', hr⟩
    cases r with
    | error e =>
      refine ⟨rfl, ?_, hr⟩
      rw [hs']
    | ok header =>
      have hread : s' = ⟨.reading, sent, connects⟩ := by
        rw [hs']
        exact congrArg (fun phase => Attempts.mk phase sent connects) hr
      dsimp only
      rw [wpm_bind, wpm_self]
      refine noted_bind_unnoted
        (.ofExcept (computed_notLost (raises_decodeFrameSize _ _))) (fun size => ?_) ?_
      · rw [hread]
        split
        · exact ⟨rfl, rfl, rfl⟩
        · refine wpm_mono (noted_readExactly sent connects) ?_
          rintro r c'' s'' ⟨rfl, hs'', hr''⟩
          refine ⟨rfl, ?_, hr''⟩
          rw [hs'']
      · intro e he
        rw [hread]
        exact ⟨rfl, rfl, answered_of_notLost he HelloPhase.noConfusion⟩
  · exact ⟨rfl, rfl, answered_of_notLost he HelloPhase.noConfusion⟩

/-- How a handshake on a new socket ends. The flag is left up exactly when the connection was lost
after HELLO had been written. -/
def Handshaken (c : Connection) (s : Attempts) : Except Exc Unit → Connection → Attempts → Prop
  | .ok _, c', s' => c'.sock = c.sock ∧ c'.requestInFlight = false ∧ s' = { s with phase := .reading }
  | .error (.connectionError _), c', s' =>
    c'.maxMessageSize = c.maxMessageSize ∧ s' = { s with phase := s'.phase } ∧
      (s'.phase = .lost ∧ c'.requestInFlight = true ∨
        (s'.phase = .idle ∨ s'.phase = .opened) ∧ c'.requestInFlight = false)
  | .error _, _, s' => s'.phase ≠ .lost

theorem handshaken_of_notLost {e : Exc} {c' : Connection} {s' : Attempts} (he : e.NotLost)
    (h : s'.phase ≠ .lost) : Handshaken c s (.error e) c' s' := by
  cases e <;> first | exact h | exact he.elim

theorem noted_handshake {sock : SockId} (hsock : c.sock = some sock)
    (hflag : c.requestInFlight = false) (hphase : s.phase = .opened)
    (hhello : ∀ token m frame, Commands.hello token = .ok m → encodeFrame m.payload = .ok frame →
      encodeFrame command.payload ≠ .ok frame) :
    wpm (monitor (Attempts.note command)) Sync.transport.handshake (Handshaken c s) c s := by
  obtain ⟨phase, sent, connects⟩ := s
  dsimp only at hphase
  subst hphase
  have hother : ∀ (e : Exc), e.NotLost →
      Handshaken c ⟨.opened, sent, connects⟩ (.error e) c ⟨.opened, sent, connects⟩ :=
    fun e he => handshaken_of_notLost he HelloPhase.noConfusion
  unfold Transport.handshake
  rw [wpm_bind, wpm_self]
  dsimp only
  rw [wpm_bind, wpm_ofExcept]
  cases hm : Commands.hello c.settings.token with
  | error e => exact hother e (computed_notLost (raises_hello _) e hm)
  | ok m =>
    refine noted_bind_unnoted (unnoted_of_clocks (clocks_start _)) (fun d => ?_) hother
    rw [wpm_bind]
    unfold Transport.send
    rw [wpm_bind]
    refine noted_writeRequest hsock HelloPhase.noConfusion ?_ ?_ ?_ ?_
    · intro t frame hframe
      -- HELLO is out: only now does the flag speak of it
      have hsent : Attempts.note command (Attempts.note command ⟨.opened, sent, connects⟩
          ⟨.settimeout sock t, .ok ()⟩) ⟨.sendall sock frame, .ok ()⟩ = ⟨.sent, sent, connects⟩ := by
        have hno : writesInFull command ⟨.sendall sock frame, .ok ()⟩ = false :=
          decide_eq_false (hhello _ m frame hm hframe)
        unfold Attempts.note
        rw [hno]
        rfl
      rw [hsent]
      dsimp only
      rw [wpm_bind]
      refine wpm_mono (noted_readFrame hsock rfl) ?_
      rintro r c' s' ⟨rfl, hs', hr⟩
      cases r with
      | error e =>
        cases e with
        | connectionError fault => exact ⟨rfl, hs', Or.inl ⟨hr, rfl⟩⟩
        | _ => exact hr
      | ok response =>
        have hreading : s' = ⟨.reading, sent, connects⟩ := by
          rw [hs']
          exact congrArg (fun phase => Attempts.mk phase sent connects) hr
        rw [hreading]
        dsimp only
        rw [wpm_bind]
        refine noted_bind_unnoted (.ofExcept (computed_notLost (raises_parseHello response)))
          (fun info => ?_) fun e he => handshaken_of_notLost he HelloPhase.noConfusion
        split
        · rw [wpm_throw]
          exact handshaken_of_notLost trivial HelloPhase.noConfusion
        · exact ⟨rfl, rfl, rfl⟩
    · exact fun t => ⟨rfl, rfl, Or.inr ⟨Or.inr rfl, hflag⟩⟩
    · exact fun t frame => ⟨rfl, rfl, Or.inr ⟨Or.inl rfl, hflag⟩⟩
    · exact fun e c' s' he hs' => handshaken_of_notLost he hs'

/-! ## The reconnect -/

/-- How a reconnect ends. -/
def Reconnected (s : Attempts) : Except Exc Unit → Connection → Attempts → Prop
  | .ok _, c', s' => c'.closed = false ∧ c'.requestInFlight = false ∧
      s' = ⟨.reading, s.sent, s.connects + 1⟩
  | .error (.connectionError _), c', s' =>
    c'.closed = true ∧ s' = ⟨s'.phase, s.sent, s.connects + 1⟩ ∧
      (s'.phase = .lost ∧ c'.requestInFlight = true ∧ c'.maxMessageSize = defaultMaxMessageSize ∨
        (s'.phase = .idle ∨ s'.phase = .opened) ∧ c'.requestInFlight = false)
  | .error _, _, s' => s'.phase ≠ .lost

theorem reconnected_of_notLost {e : Exc} {c' : Connection} {s' : Attempts} (he : e.NotLost)
    (h : s'.phase ≠ .lost) : Reconnected s (.error e) c' s' := by
  cases e <;> first | exact h | exact he.elim

theorem noted_closeConnection {Q : Except Exc Unit → Connection → Attempts → Prop}
    (h : Q (.ok ()) { c with sock := none } s) :
    wpm (monitor (Attempts.note command)) closeConnection Q c s := by
  rw [wpm_closeConnection]
  cases c.sock with
  | none => exact h
  | some sock =>
    refine ⟨trivial, fun s' hs' => ?_⟩
    rw [hs', note_unnoted (by exact trivial)]
    exact h

theorem noted_dial {host : Str} {port : ℕ} {Q : Except Exc SockId → Connection → Attempts → Prop}
    (hphase : s.phase ≠ .lost)
    (hok : ∀ sock, Q (.ok sock) c ⟨.opened, s.sent, s.connects + 1⟩)
    (hlost : ∀ fault phase, phase = .idle ∨ phase = .opened →
      Q (.error (.connectionError fault)) c ⟨phase, s.sent, s.connects + 1⟩) :
    wpm (monitor (Attempts.note command)) (Sync.dial host port) Q c s := by
  unfold Sync.dial
  rw [wpm_bind, wpm_self]
  dsimp only
  rw [wpm_bind, wpm_perform_op]
  refine ⟨trivial, fun answer s' hs' => ?_⟩
  cases answer with
  | error fault =>
    have hidle : s' = ⟨.idle, s.sent, s.connects + 1⟩ := by
      rw [hs']
      cases h : s.phase <;> first | exact absurd h hphase | (unfold Attempts.note; rw [h]; rfl)
    rw [hidle]
    exact hlost _ _ (Or.inl rfl)
  | ok sock =>
    have hopened : s' = ⟨.opened, s.sent, s.connects + 1⟩ := by
      rw [hs']
      cases h : s.phase <;> first | exact absurd h hphase | (unfold Attempts.note; rw [h]; rfl)
    rw [hopened]
    dsimp only
    split
    · refine noted_bind_unnoted (E := fun _ => False) (.perform (by exact trivial))
        (fun wrapped => ?_) fun e he => he.elim
      cases wrapped with
      | ok => exact hok sock
      | error fault =>
        refine noted_bind_unnoted (E := fun _ => False) (.perform (by exact trivial))
          (fun _ => ?_) fun e he => he.elim
        exact hlost _ _ (Or.inr rfl)
    · exact hok sock

theorem noted_reconnect (hflag : c.requestInFlight = false) (hphase : s.phase ≠ .lost)
    (hhello : ∀ token m frame, Commands.hello token = .ok m → encodeFrame m.payload = .ok frame →
      encodeFrame command.payload ≠ .ok frame) :
    wpm (monitor (Attempts.note command)) Sync.transport.reconnect (Reconnected s) c s := by
  unfold Transport.reconnect
  rw [wpm_bind]
  refine noted_closeConnection ?_
  unfold Transport.connect
  dsimp only
  rw [wpm_bind, wpm_self]
  dsimp only
  refine noted_bind_unnoted (.ofExcept (computed_notLost (raises_splitAddress _)))
    (fun address => ?_) fun e he => reconnected_of_notLost he hphase
  rw [wpm_bind]
  refine noted_dial hphase (fun sock => ?_) fun fault phase h => ?_
  · dsimp only
    rw [wpm_bind, wpm_update]
    dsimp only
    rw [wpm_bind, wpm_attempt]
    refine wpm_mono (noted_handshake rfl rfl rfl hhello) ?_
    intro r c' s' h
    cases r with
    | ok =>
      obtain ⟨hsock, hdown, hs'⟩ := h
      refine ⟨?_, hdown, hs'⟩
      rw [Connection.closed, hsock]
      rfl
    | error e =>
      dsimp only
      rw [wpm_bind]
      refine noted_closeConnection ?_
      cases e with
      | connectionError fault =>
        obtain ⟨hsize, hs', hcase⟩ := h
        refine ⟨rfl, hs', ?_⟩
        rcases hcase with ⟨hlost, hup⟩ | hearly
        · exact Or.inl ⟨hlost, hup, hsize⟩
        · exact Or.inr hearly
      | _ => exact h
  · exact ⟨rfl, rfl, Or.inr ⟨h, hflag⟩⟩

/-! ## The call -/

/-- How a call ends: one that lost its connection in a handshake ends with it, unless the request
no longer fits; any other lost connection comes after the request was written or the budget was
used. -/
def Verdict (policy : ReconnectPolicy) (command : Command) (r : Except Exc Bytes) (s : Attempts) :
    Prop :=
  (s.phase = .lost → s.sent = false ∧
    (command.payload.length ≤ defaultMaxMessageSize ↔
      ∃ fault, r = .error (.connectionError fault))) ∧
  (s.phase ≠ .lost → ∀ fault, r = .error (.connectionError fault) →
    s.sent = true ∨ policy.exhausted (s.connects + 1) = true)

theorem verdict_of_not_lost {policy : ReconnectPolicy} {r : Except Exc Bytes}
    (h : s.phase ≠ .lost) (hr : ∀ fault, r = .error (.connectionError fault) → s.sent = true ∨
      policy.exhausted (s.connects + 1) = true) : Verdict policy command r s :=
  ⟨fun hlost => absurd hlost h, fun _ => hr⟩

theorem verdict_of_notLost {policy : ReconnectPolicy} {e : Exc} (he : e.NotLost)
    (h : s.phase ≠ .lost) : Verdict policy command (.error e) s := by
  refine verdict_of_not_lost h fun fault hr => ?_
  cases hr
  exact he.elim

/-- Before a round that may still go on: nothing of the command is out, the flag is down. -/
structure Ready (attempt : ℕ) (c : Connection) (s : Attempts) : Prop where
  flag : c.requestInFlight = false
  sent : s.sent = false
  connects : s.connects = attempt
  phase : s.phase = .idle ∨ s.phase = .reading ∨ s.phase = .opened ∧ c.sock = none

/-- Before the round that gives up: a handshake was lost, and the flag still speaks of its HELLO. -/
structure Doomed (attempt : ℕ) (c : Connection) (s : Attempts) : Prop where
  flag : c.requestInFlight = true
  sent : s.sent = false
  connects : s.connects = attempt
  phase : s.phase = .lost
  sock : c.sock = none
  size : c.maxMessageSize = defaultMaxMessageSize

theorem Ready.not_lost {attempt : ℕ} (h : Ready attempt c s) : s.phase ≠ .lost := by
  intro hlost
  rcases h.phase with h | h | h
  · exact HelloPhase.noConfusion (h.symm.trans hlost)
  · exact HelloPhase.noConfusion (h.symm.trans hlost)
  · exact HelloPhase.noConfusion (h.1.symm.trans hlost)

/-- Reading the own response leaves the account alone. -/
theorem noted_reads {α : Type} {m : ConnM α} (hm : Reads m) (hphase : s.phase = .idle) :
    wpm (monitor (Attempts.note command)) m (fun _ c' s' => c' = c ∧ s' = s) c s := by
  have hstep : ∀ (op : NetOp) (answer : op.Answer), op.Reading →
      s.note command ⟨op, answer⟩ = s := by
    intro op answer hop
    obtain ⟨phase, sent, connects⟩ := s
    dsimp only at hphase
    subst hphase
    cases op <;> first | exact hop.elim | rfl
  refine wpm_mono (wpm_of_anything (W := monitor (Attempts.note command))
    (Q := fun r k' => k' = c ∧ Raises Exc.NotDelay r) (J := fun s' => s' = s)
    (fun _ _ _ _ => trivial) ?_ (hm c) rfl) fun _ _ _ h => ⟨h.1.1, h.2⟩
  intro s₁ op answer s₂ hop hs₁ hs₂
  rw [hs₂, hs₁]
  exact hstep op answer hop

/-- How one round of the command ends, before the failure is handled. -/
def Sent (attempt : ℕ) : Except Exc Bytes → Connection → Attempts → Prop
  | .error (.connectionError _), c', s' =>
    Ready attempt c' s' ∨ s'.phase ≠ .lost ∧ s'.sent = true ∧ c'.requestInFlight = true
  | _, _, s' => s'.phase ≠ .lost

theorem sent_of_notLost {attempt : ℕ} {e : Exc} {c' : Connection} {s' : Attempts} (he : e.NotLost)
    (h : s'.phase ≠ .lost) : Sent attempt (.error e) c' s' := by
  cases e <;> first | exact h | exact he.elim

theorem noted_send {attempt : ℕ} {d : Deadline} (hready : Ready attempt c s) :
    wpm (monitor (Attempts.note command)) (Sync.transport.send command d) (Sent attempt) c s := by
  unfold Transport.send
  rw [wpm_bind]
  cases hsock : c.sock with
  | none =>
    refine noted_writeRequest_closed hsock (fun _ => Or.inl hready) fun e he _ => ?_
    exact sent_of_notLost he hready.not_lost
  | some sock =>
    -- the settimeout of the own request closes the account of the last handshake
    have hset : ∀ t answer, s.note command ⟨.settimeout sock t, answer⟩ =
        ⟨.idle, false, attempt⟩ := by
      intro t answer
      obtain ⟨phase, sent, connects⟩ := s
      obtain ⟨-, rfl, rfl, hphase⟩ := hready
      rcases hphase with h | h | h
      · dsimp only at h
        subst h
        rfl
      · dsimp only at h
        subst h
        rfl
      · rw [hsock] at h
        cases h.2
    have hidle : Ready attempt c ⟨.idle, false, attempt⟩ := ⟨hready.flag, rfl, rfl, Or.inl rfl⟩
    refine noted_writeRequest hsock hready.not_lost ?_ ?_ ?_ ?_
    · intro t frame hframe
      have hwritten : Attempts.note command ⟨.idle, false, attempt⟩ ⟨.sendall sock frame, .ok ()⟩ =
          ⟨.idle, true, attempt⟩ := by
        have hyes : writesInFull command ⟨.sendall sock frame, .ok ()⟩ = true :=
          decide_eq_true hframe
        unfold Attempts.note
        rw [hyes]
        rfl
      rw [hset, hwritten]
      dsimp only
      rw [wpm_bind]
      refine wpm_mono (noted_reads (Sync.reads_readFrame d) rfl) ?_
      rintro r c' s' ⟨rfl, rfl⟩
      cases r with
      | ok response => exact HelloPhase.noConfusion
      | error e =>
        cases e with
        | connectionError fault => exact Or.inr ⟨HelloPhase.noConfusion, rfl, rfl⟩
        | _ => exact HelloPhase.noConfusion
    · intro t
      rw [hset]
      exact Or.inl hidle
    · intro t frame
      rw [hset]
      exact Or.inl hidle
    · exact fun e c' s' he hs' => sent_of_notLost he hs'

section Call
variable (policy : ReconnectPolicy) (d : Deadline)
  (hhello : ∀ token m frame, Commands.hello token = .ok m → encodeFrame m.payload = .ok frame →
    encodeFrame command.payload ≠ .ok frame)

/-- A failure with the flag up ends the call of a mutating command. -/
theorem retryFailed_gives_up (hmutating : command.readOnly = false) {σ : Type} {W : World Net σ}
    {Q : Except Exc Bytes → Connection → σ → Prop}
    {t : σ} {fault : ConnectionFault} {attempt : ℕ} {again : ConnM Bytes}
    (hflag : c.requestInFlight = true) (h : Q (.error (.connectionError fault)) c t) :
    wpm W (Sync.transport.retryFailed policy command d fault attempt again) Q c t := by
  unfold Transport.retryFailed
  rw [wpm_bind, wpm_self]
  dsimp only
  rw [if_pos ⟨hflag, by simp [hmutating]⟩]
  exact h

include hhello

theorem verdict_retryFailed {attempt : ℕ} {fault : ConnectionFault} {again : ConnM Bytes}
    (hready : Ready attempt c s)
    (hagain : ∀ c' s', Ready (attempt + 1) c' s' ∨ Doomed (attempt + 1) c' s' →
      wpm (monitor (Attempts.note command)) again (fun r _ s' => Verdict policy command r s')
        c' s') :
    wpm (monitor (Attempts.note command))
      (Sync.transport.retryFailed policy command d fault attempt again)
      (fun r _ s' => Verdict policy command r s') c s := by
  unfold Transport.retryFailed
  rw [wpm_bind, wpm_self]
  dsimp only
  rw [if_neg (by simp [hready.flag])]
  split
  · rename_i hused
    refine verdict_of_not_lost hready.not_lost fun _ _ => Or.inr ?_
    rw [hready.connects]
    exact hused
  · refine noted_bind_unnoted
      ((Package.sync.backoff_waits policy (attempt + 1) d).mono NetOp.Waiting.unnoted fun _ => id)
      (fun _ => ?_) fun e he => verdict_of_notLost he hready.not_lost
    unfold Transport.retryReconnect
    rw [wpm_bind, wpm_attempt]
    refine wpm_mono (noted_reconnect hready.flag hready.not_lost hhello) ?_
    intro r c' s' h
    cases r with
    | ok =>
      obtain ⟨_, hdown, hs'⟩ := h
      refine hagain c' s' (Or.inl ⟨hdown, ?_, ?_, ?_⟩)
      · rw [hs']
        exact hready.sent
      · rw [hs']
        exact congrArg (· + 1) hready.connects
      · rw [hs']
        exact Or.inr (Or.inl rfl)
    | error e =>
      cases e with
      | connectionError fault =>
        obtain ⟨hclosed, hs', hcase⟩ := h
        have hsock : c'.sock = none := by simpa [Connection.closed] using hclosed
        have hsent : s'.sent = false := by
          rw [hs']
          exact hready.sent
        have hconnects : s'.connects = attempt + 1 := by
          rw [hs']
          exact congrArg (· + 1) hready.connects
        -- the flag is up only when HELLO was sent on the new socket
        rcases hcase with ⟨hlost, hup, hsize⟩ | ⟨hphase, hdown⟩
        · exact hagain c' s' (Or.inr ⟨hup, hsent, hconnects, hlost, hsock, hsize⟩)
        · refine hagain c' s' (Or.inl ⟨hdown, hsent, hconnects, ?_⟩)
          rcases hphase with h | h
          · exact Or.inl h
          · exact Or.inr (Or.inr ⟨h, hsock⟩)
      | _ => exact verdict_of_notLost trivial h

theorem verdict_withRetry (hmutating : command.readOnly = false) (rounds attempt : ℕ)
    (h : Ready attempt c s ∨ Doomed attempt c s) :
    wpm (monitor (Attempts.note command))
      (Sync.transport.withRetry policy command d Sync.transport.send rounds attempt)
      (fun r _ s' => Verdict policy command r s') c s := by
  -- a round begins with nothing sent; the flag may be up from the HELLO of a lost handshake
  induction rounds generalizing attempt c s with
  | zero => trivial
  | succ rounds ih =>
    unfold Transport.withRetry
    rw [wpm_bind, wpm_attempt]
    rcases h with hready | hdoomed
    · refine wpm_mono (noted_send hready) ?_
      intro r c' s' h
      cases r with
      | ok response =>
        refine verdict_of_not_lost h fun fault hr => ?_
        cases hr
      | error e =>
        cases e with
        | connectionError fault =>
          rcases h with hready' | ⟨hphase, hsent, hup⟩
          · exact verdict_retryFailed policy d hhello hready' fun c'' s'' => ih (attempt + 1)
          · refine retryFailed_gives_up policy d hmutating hup ?_
            exact verdict_of_not_lost hphase fun _ _ => Or.inl hsent
        | _ => exact verdict_of_notLost trivial h
    · unfold Transport.send
      rw [wpm_bind]
      refine noted_writeRequest_closed hdoomed.sock (fun hfits => ?_) fun e he hfits => ?_
      · refine retryFailed_gives_up policy d hmutating hdoomed.flag ⟨fun _ => ⟨hdoomed.sent, ?_⟩, ?_⟩
        · rw [hdoomed.size] at hfits
          exact ⟨fun _ => ⟨_, rfl⟩, fun _ => hfits⟩
        · exact fun hphase => absurd hdoomed.phase hphase
      · have hverdict : Verdict policy command (.error e) s := by
          refine ⟨fun _ => ⟨hdoomed.sent, ?_⟩, fun hphase => absurd hdoomed.phase hphase⟩
          rw [← hdoomed.size]
          refine ⟨fun hle => absurd hle hfits, ?_⟩
          rintro ⟨fault, hr⟩
          cases hr
          exact he.elim
        cases e <;> first | exact hverdict | exact he.elim

end Call

end Contracts

/-- In every finished call of a mutating command that starts with the flag down, a lost connection
is raised only after the own frame was written in full or the budget was used, exactly unless a
handshake lost its connection after HELLO was written, with budget left and a request that fits the
default size limit. -/
theorem connection_error_after_write_iff (policy : ReconnectPolicy) (call : Call)
    (command : Command) (hcall : call.encode = .ok command) (hmutating : command.readOnly = false)
    (d : Deadline) (rounds : ℕ) (c : Connection) (hflag : c.requestInFlight = false)
    {r : Except Exc Bytes} {c' : Connection} {log : List (Event Net)}
    (hrun : Reaches (record Net)
      (Sync.transport.withRetry policy command d Sync.transport.send rounds 0 c, [])
      (.pure (r, c'), log)) :
    (∀ fault, r = .error (.connectionError fault) →
      SentInFull command log ∨ BudgetUsed policy command log) ↔
    ¬ (HelloLost command log ∧ command.payload.length ≤ defaultMaxMessageSize ∧
      ¬ BudgetUsed policy command log) := by
  have hhello : ∀ token m frame, Commands.hello token = .ok m → encodeFrame m.payload = .ok frame →
      encodeFrame command.payload ≠ .ok frame := by
    intro token m frame hm hframe hown
    exact hello_frame_ne hcall hmutating hown token m hm hframe
  have hstart : Ready 0 c ⟨.idle, false, 0⟩ := ⟨hflag, rfl, rfl, Or.inl rfl⟩
  have hcontract := verdict_withRetry policy d hhello hmutating rounds 0 (Or.inl hstart)
  have hrecord : wp (record Net)
      (Sync.transport.withRetry policy command d Sync.transport.send rounds 0 c)
      (fun rc log' => Verdict policy command rc.1 (attempts command log')) [] :=
    wp_record_of_monitor hcontract
  have hverdict : Verdict policy command r (attempts command log) :=
    wp_result (Q := fun rc log' => Verdict policy command rc.1 (attempts command log')) hrecord hrun
  rw [← sent_iff]
  unfold HelloLost BudgetUsed
  by_cases hlost : (attempts command log).phase = .lost
  · obtain ⟨hsent, hfits⟩ := hverdict.1 hlost
    rw [hfits]
    constructor
    · rintro h ⟨-, ⟨fault, hr⟩, hbudget⟩
      rcases h fault hr with hs | hb
      · rw [hsent] at hs
        cases hs
      · exact hbudget hb
    · intro h fault hr
      by_contra hno
      exact h ⟨hlost, ⟨fault, hr⟩, fun hb => hno (Or.inr hb)⟩
  · exact ⟨fun _ h => hlost h.1, fun _ => hverdict.2 hlost⟩

/-- An INCR whose connection is lost after the write. -/
theorem incr_sent_before_connection_error : ∃ c' log,
    Reaches (record Net) (Sync.transport.withRetry {} Command.incrHit Deadline.unlimited
      Sync.transport.send 2
      0 Connection.pooled, []) (.pure (.error (.connectionError .closedByServer), c'), log) ∧
    ¬ (HelloLost Command.incrHit log ∧ Command.incrHit.payload.length ≤ defaultMaxMessageSize ∧
      ¬ BudgetUsed {} Command.incrHit log) := by
  have hrun := reaches_of_outcome (List.replicate 9 NetOp.calm)
    (p := Sync.transport.withRetry {} Command.incrHit Deadline.unlimited Sync.transport.send 2
      0 Connection.pooled)
    (a := (.error (.connectionError .closedByServer),
      { Connection.pooled with requestInFlight := true }))
    (by decide +kernel)
  refine ⟨_, _, hrun, ?_⟩
  refine (connection_error_after_write_iff {} ⟨.incr, ⟨"hit".toList, 60⟩⟩ Command.incrHit rfl rfl
    Deadline.unlimited 2 Connection.pooled rfl hrun).mp ?_
  exact fun _ _ => Or.inl (by decide +kernel)

/-- The first write of an INCR fails, and the handshake of the reconnect meets the end of the
stream: the INCR is given up, though it was never sent and any number of attempts is left. -/
theorem unsent_incr_is_given_up : ∃ c' log,
    Reaches (record Net) (Sync.transport.withRetry {} Command.incrHit Deadline.unlimited
      Sync.transport.send 2
      0 Connection.pooled, []) (.pure (.error (.connectionError .closed), c'), log) ∧
    ¬ (SentInFull Command.incrHit log ∨ BudgetUsed {} Command.incrHit log) := by
  have hrun := reaches_of_outcome ([NetOp.calm, fun
      | .sendall _ _ => .error .other
      | op => NetOp.calm op] ++ List.replicate 20 NetOp.calm)
    (p := Sync.transport.withRetry {} Command.incrHit Deadline.unlimited Sync.transport.send 2
      0 Connection.pooled)
    (a := (.error (.connectionError .closed),
      { Connection.pooled with sock := none, requestInFlight := true })) (by decide +kernel)
  exact ⟨_, _, hrun, by decide +kernel⟩

end LostHandshake

end FqClient
