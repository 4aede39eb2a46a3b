import FqClient.HeldLines

namespace FqClient.SocketCustody

open Effects

/-! Rules for what depends on a connection only through its socket. -/

/-- A transfer on this socket. -/
def On (sock : SockId) : NetOp → Prop
  | .sendall sock' _ | .recv sock' _ | .writeDrain sock' _ | .readexactly sock' _ => sock' = sock
  | _ => False

/-- What holds of a connection with this socket: transfers on it and operations on no socket keep it, and
opening and closing a socket lead from one to the other. -/
structure Custody {σ : Type} (W : World Net σ) (J : Option SockId → σ → Prop) : Prop where
  halts : W.halts
  aside : ∀ sock, Keeps W NetOp.Aside (J sock)
  transfer : ∀ sock, Keeps W (On sock) (J (some sock))
  dialer : Dialer W (J none) fun sock => J (some sock)

/-- The method keeps it, with the socket that its connection then has. -/
abbrev Safe {σ α : Type} (W : World Net σ) (J : Option SockId → σ → Prop) (m : ConnM α) : Prop :=
  m.Preserves W fun c s => J c.sock s

section Rules
variable {σ : Type} {W : World Net σ} {J : Option SockId → σ → Prop} (h : Custody W J) (p : Package)
  {c : Connection} {s : σ}
include h

theorem Custody.of_leaves {P : NetOp → Prop} {E : Exc → Prop} {α : Type} {m : ConnM α}
    (hm : m.Leaves P E) (hP : ∀ op, P op → op.Aside) : Safe W J m := by
  intro c s hs
  refine wpm_mono (wpm_of_leaves ((h.aside c.sock).mono hP) hm hs) ?_
  intro r c' s' hpost
  obtain ⟨⟨hc', _⟩, hs'⟩ := hpost
  rw [hc']
  exact hs'

theorem Custody.perform {op : NetOp} (hop : op.Aside) : Safe W J (perform op) :=
  h.of_leaves (P := fun op => op.Aside) (E := fun _ => True) (Method.Leaves.perform hop) fun _ => id

theorem Custody.writeRequest (command : Command) (d : Deadline) :
    Safe W J (p.transport.writeRequest command d) := by
  intro c s hs
  have hsetting : Keeps W NetOp.Setting (J c.sock) := (h.aside c.sock).mono fun _ => NetOp.Setting.aside
  apply wpm_writeRequest p hsetting command d hs
  · exact fun _ _ _ hs₁ => hs₁
  · intro sock frame s₁ hs₁ hsock _ _
    rw [hsock] at hs₁
    have hon : On sock (p.writeOp sock frame) := by cases p <;> rfl
    obtain ⟨hpermits, hstep⟩ := h.transfer sock s₁ _ hon hs₁
    refine ⟨hpermits, fun a s₂ hop => ?_⟩
    change J (c.noteWrite (p.wrote a)).sock s₂
    rw [Connection.sock_noteWrite, hsock]
    exact hstep a s₂ hop

theorem Custody.reader (sock : SockId) : Reader W sock fun _ => J (some sock) where
  setting _ := (h.aside (some sock)).mono fun _ => NetOp.Setting.aside
  recv _ s size hs := by
    obtain ⟨hpermits, hstep⟩ := h.transfer sock s (.recv sock size) rfl hs
    refine ⟨hpermits, fun a s' hop => ?_⟩
    have hs' := hstep a s' hop
    cases a <;> exact hs'
  readexactly _ s size hs := by
    obtain ⟨hpermits, hstep⟩ := h.transfer sock s (.readexactly sock size) rfl hs
    refine ⟨hpermits, fun a s' hop => ?_⟩
    have hs' := hstep a s' hop
    cases a with
    | ok data => exact hs'
    | error fault => exact ⟨[], hs'⟩

theorem Custody.readFrame (d : Deadline) : Safe W J (p.transport.readFrame d) := by
  intro c s hs
  cases hsock : c.sock with
  | none => exact wpm_readFrame_closed p hsock hs
  | some sock =>
    rw [hsock] at hs
    refine wpm_mono (wpm_readFrame p (h.reader sock) d (b := []) hsock hs) ?_
    intro r c' s' hpost
    obtain ⟨hc', hr⟩ := hpost
    obtain ⟨_, hs'⟩ := hr.got
    rw [hc', hsock]
    exact hs'

omit h in
theorem safe_setInFlight (flag : Bool) : Safe W J (setInFlight flag) := .update fun _ _ hs => hs

theorem Custody.send (command : Command) (d : Deadline) : Safe W J (p.transport.send command d) := by
  refine (h.writeRequest p command d).bind fun _ => (h.readFrame p d).bind fun response => ?_
  exact (safe_setInFlight false).bind fun _ => .pure _

theorem Custody.sendChunked (rounds : ℕ) (command : Command) (d : Deadline) :
    Safe W J (p.transport.sendChunked rounds command d) := by
  have hchunks : ∀ body, Safe W J (p.transport.readChunks d rounds body) := by
    intro body c s hs
    exact wpm_readChunks_keeps h.halts (h.readFrame p d) (fun _ _ hs => hs) rounds body hs
  exact (h.writeRequest p command d).bind fun _ => hchunks []

theorem Custody.handshake : Safe W J p.transport.handshake := by
  have hclocks : ∀ {α : Type} {m : ConnM α}, Clocks m → Safe W J m := by
    intro α m hm
    exact h.of_leaves hm fun op hop => hop ▸ trivial
  refine Method.Preserves.self.bind fun c => (Method.Preserves.ofExcept _).bind fun command => ?_
  refine (hclocks (clocks_start _)).bind fun d => (h.send p command d).bind fun response => ?_
  refine (Method.Preserves.ofExcept _).bind fun info => .ite (.throw _) (.update fun _ _ hs => hs)

/-- Closing leaves no socket. -/
theorem Custody.close (hs : J c.sock s) :
    wpm W closeConnection (fun _ c' s' => c'.sock = none ∧ J none s') c s := by
  apply wpm_close_of
  · intro sock hsock
    rw [hsock] at hs
    obtain ⟨hpermits, hstep⟩ := h.dialer.close s sock hs
    exact ⟨hpermits, fun s' hop => ⟨rfl, hstep () s' hop⟩⟩
  · intro hsock
    rw [hsock] at hs
    exact ⟨rfl, hs⟩

/-- A connect that raises leaves no socket. -/
theorem Custody.connect (hclosed : c.sock = none) (hs : J none s) :
    wpm W p.transport.connect (fun r c' s' => J c'.sock s' ∧ ∀ e, r = .error e →
      c'.sock = none) c s := by
  have hfailed : ∀ {r : Except Exc Unit} {c' : Connection} {s' : σ}, c'.sock = none → J none s' →
      J c'.sock s' ∧ ∀ e, r = .error e → c'.sock = none := by
    intro r c' s' hsock hs'
    rw [hsock]
    exact ⟨hs', fun _ _ => rfl⟩
  refine wpm_connect_by p h.dialer hs (fun _ _ hs' => hfailed hclosed hs') fun sock s₁ hs₁ => ?_
  refine wpm_mono (h.handshake p (c.dialed sock) s₁ hs₁) ?_
  intro r c₂ s₂ hs₂
  cases r with
  | ok _ => exact ⟨hs₂, fun e he => by cases he⟩
  | error e =>
    refine wpm_mono (h.close hs₂) ?_
    intro r c₃ s₃ hpost
    exact hfailed hpost.1 hpost.2

theorem Custody.reconnect : Safe W J p.transport.reconnect := by
  intro c s hs
  unfold Transport.reconnect
  rw [wpm_bind]
  refine wpm_mono (h.close hs) ?_
  intro r c₁ s₁ hpost
  obtain ⟨hsock, hs₁⟩ := hpost
  cases r with
  | error e =>
    change J c₁.sock s₁
    rw [hsock]
    exact hs₁
  | ok _ =>
    refine wpm_mono (h.connect p hsock hs₁) ?_
    exact fun _ _ _ hpost => hpost.1

theorem Custody.withRetry (policy : ReconnectPolicy) (command : Command) (d : Deadline)
    {send : Command → Deadline → ConnM Bytes} (hsend : Safe W J (send command d)) (rounds attempt : ℕ) :
    Safe W J (p.transport.withRetry policy command d send rounds attempt) := by
  induction rounds generalizing attempt with
  | zero => exact .halt h.halts
  | succ rounds ih =>
    refine hsend.attempt.bind fun r => ?_
    cases r with
    | ok response => exact .pure _
    | error e =>
      cases e with
      | connectionError fault =>
        have hbackoff : Safe W J (p.transport.backoff policy (attempt + 1) d) :=
          h.of_leaves (p.backoff_raises policy (attempt + 1) d) fun _ => NetOp.Waiting.aside
        refine Method.Preserves.self.bind fun c => .ite (.throw _) (.ite (.throw _) ?_)
        refine hbackoff.bind fun _ => (h.reconnect p).attempt.bind fun r => ?_
        cases r with
        | ok _ => exact ih _
        | error e =>
          cases e with
          | connectionError _ => exact ih _
          | _ => exact .throw _
      | _ => exact .throw _

theorem Custody.stopped (polled : Bool) : Safe W J (Transport.stopped polled) :=
  .ite (h.perform (by exact trivial)) (.pure _)

theorem Custody.nextFrame (pollInterval :
      Option ℚ) : Safe W J (p.transport.nextFrame pollInterval) := by
  unfold Transport.nextFrame
  cases pollInterval with
  | none => exact (h.readFrame p _).bind fun _ => .pure _
  | some pollInterval =>
    refine (h.of_leaves (clocks_start _) fun op hop => hop ▸ trivial).bind fun d => ?_
    refine (h.readFrame p d).attempt.bind fun r => ?_
    cases r with
    | ok frame => exact .pure _
    | error e =>
      cases e with
      | timeoutError site => exact .pure _
      | _ => exact .throw _

theorem Custody.streamFailed (policy : ReconnectPolicy) (e : Exc) (attempt : ℕ) {again : ConnM Unit}
    (hagain : Safe W J again) : Safe W J (p.transport.streamFailed policy e attempt again) := by
  have hdelay : Safe W J (policy.delay (attempt + 1)) :=
    (Method.Preserves.ofExcept _).bind fun _ => (h.perform (by exact trivial)).bind fun _ => .pure _
  have hsleep : ∀ delay, Safe W J (p.transport.sleep delay) := fun delay =>
    h.of_leaves (p.sleep_sleepsFor delay) fun op hop => NetOp.Waiting.aside hop.waiting
  refine .ite (.throw _) (.ite (.throw _) (hdelay.bind fun delay => (hsleep delay).bind fun _ => ?_))
  refine (h.reconnect p).attempt.bind fun r => ?_
  cases r with
  | ok _ => exact hagain
  | error e => exact .ite hagain (.throw _)

theorem Custody.streamLoop (policy : ReconnectPolicy) (command : Command)
    (parse : Bytes → Except Exc StreamEvent) (polled : Bool) (rounds : ℕ)
    (phase : Transport.StreamPhase)
    (attempt : ℕ) :
    Safe W J (p.transport.streamLoop policy command parse polled rounds phase attempt) := by
  induction rounds generalizing phase attempt with
  | zero => exact .halt h.halts
  | succ rounds ih =>
    have hfailed : ∀ e, Safe W J (p.transport.streamFailed policy e attempt
        (p.transport.streamLoop policy command parse polled rounds .opening (attempt + 1))) :=
      fun e => h.streamFailed p policy e attempt (ih _ _)
    cases phase with
    | opening =>
      refine (h.stopped polled).bind fun stop => .ite (.pure _) ?_
      refine (h.writeRequest p command Deadline.unlimited).attempt.bind fun r => ?_
      cases r with
      | ok _ => exact ih _ _
      | error e => exact hfailed e
    | reading =>
      refine (h.nextFrame p _).attempt.bind fun r => ?_
      cases r with
      | error e => exact hfailed e
      | ok frame =>
        cases frame with
        | none => exact (h.stopped polled).bind fun stop => .ite (.pure _) (ih _ _)
        | some frame =>
          refine (Method.Preserves.ofExcept _).bind fun event => ?_
          refine (h.perform (by exact trivial)).bind fun resume => ?_
          cases resume with
          | next => exact ih _ _
          | close => exact .throw _

end Rules

end FqClient.SocketCustody
