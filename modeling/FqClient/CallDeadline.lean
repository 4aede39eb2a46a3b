import FqClient.Aio.Parts
import FqClient.Effects.Runs
import FqClient.Exchanges
import FqClient.Retrying
import Mathlib.Tactic.Linarith

namespace FqClient.CallDeadline

open Effects

/-- The moment, the moment at which `asyncio.timeout` ends the operation under it, where the newest
connection stands, and when each operation ended that the deadline of the call does not limit. -/
structure Clocked where
  now : ℚ
  limit : Option ℚ := none
  stage : Stage := .settled
  unlimited : List ℚ := []
  deriving DecidableEq

namespace Clocked

/-- An operation may end then, under the limit in force. -/
def Awaits (s : Clocked) (ended : ℚ) : Prop :=
  s.now ≤ ended ∧ ∀ limit, s.limit = some limit → ended ≤ max s.now limit

/-- An operation of a connect or of a handshake ended. -/
def connected (s : Clocked) (ended : ℚ) (stage : Stage) : Clocked :=
  { s with now := ended, stage := stage, unlimited := s.unlimited ++ [ended] }

/-- `wait_closed` has returned. -/
def closed (s : Clocked) (ended : ℚ) : Clocked := s.connected ended s.stage

def written (s : Clocked) (ended : ℚ) : Clocked :=
  if s.stage = .opened then s.connected ended .greeting
  else { s with now := ended, stage := .settled }

def read (s : Clocked) (ended : ℚ) : Clocked :=
  if s.stage = .greeting then s.connected ended .greeting else { s with now := ended }

end Clocked

/-- An explicit clock: each awaited operation lasts at most as long as the code lets it, and
`wait_closed` as long as it takes. -/
def waiting : World Net Clocked where
  permits _ _ := True
  step s op answer s' := match op, answer with
    | .monotonic, now => now = s.now ∧ s' = s
    | .enterTimeout delay, _ => s' = { s with limit := delay.map (s.now + ·) }
    | .asyncSleep delay, _ => ∃ lasted, 0 ≤ lasted ∧ lasted ≤ max delay 0 ∧
        s' = { s with now := s.now + lasted }
    | .awaitSlot, _ => ∃ ended, s.Awaits ended ∧ s' = { s with now := ended }
    | .openConnection _ _ _, _ => ∃ ended, s.Awaits ended ∧ s' = s.connected ended .opened
    | .writeDrain _ _, _ => ∃ ended, s.Awaits ended ∧ s' = s.written ended
    | .readexactly _ _, _ => ∃ ended, s.Awaits ended ∧ s' = s.read ended
    | .closeSocket _, _ => ∃ ended, s.now ≤ ended ∧ s' = s.closed ended
    | _, _ => s' = s

/-- The clock is past the deadline exactly when the start was, or the end of an operation that the
deadline does not limit. -/
def InTime (start due : ℚ) (s : Clocked) : Prop :=
  s.now ≤ due ↔ start ≤ due ∧ ∀ moment ∈ s.unlimited, moment ≤ due

section InTime
variable {start due ended : ℚ} {s : Clocked}

theorem InTime.advance (hs : InTime start due s) (hle : s.now ≤ ended) (h : s.now ≤ due → ended ≤ due)
    (limit : Option ℚ) (stage : Stage) : InTime start due ⟨ended, limit, stage, s.unlimited⟩ := by
  rw [InTime, ← Iff.eq hs]
  exact ⟨hle.trans, h⟩

/-- An operation that the deadline limits. -/
theorem InTime.await (hs : InTime start due s) (hlimit : s.limit = some due) (h : s.Awaits ended)
    (stage : Stage) : InTime start due { s with now := ended, stage := stage } :=
  hs.advance h.1 (fun hnow => (h.2 due hlimit).trans (max_le hnow le_rfl)) s.limit stage

/-- An operation of a connect, or the end of a connection. -/
theorem InTime.connected (hs : InTime start due s) (hle : s.now ≤ ended) (stage : Stage) :
    InTime start due (s.connected ended stage) := by
  rw [InTime, Clocked.connected, List.forall_mem_append, List.forall_mem_singleton,
    ← and_assoc, ← Iff.eq hs]
  constructor
  · intro hended
    exact ⟨hle.trans hended, hended⟩
  · exact And.right

end InTime

section Calls
variable {start due : ℚ}

/-- What every round of a call keeps: the newest connection is in use unless there is none. -/
structure Kept (start due : ℚ) (c : Connection) (s : Clocked) : Prop where
  inTime : InTime start due s
  usable : c.sock = none ∨ s.stage ≠ .opened

/-- An operation that changes nothing here. -/
def Still : NetOp → Prop
  | .monotonic | .random | .poolClosed | .putSlot _ => True
  | _ => False

theorem keeps_still (J : Clocked → Prop) : Keeps waiting Still J := by
  intro s op hop hs
  refine ⟨trivial, fun a s' h => ?_⟩
  cases op with
  | monotonic => rwa [h.2]
  | random => rwa [show s' = s from h]
  | poolClosed => rwa [show s' = s from h]
  | putSlot slot => rwa [show s' = s from h]
  | _ => exact hop.elim

theorem wpm_still {κ α : Type} {m : Method Net κ Exc α} {E : Exc → Prop} (hm : m.Leaves Still E) {k : κ}
    {s : Clocked} : wpm waiting m (fun _ k' s' => k' = k ∧ s' = s) k s := by
  refine wpm_mono (wpm_of_leaves (keeps_still (· = s)) hm rfl) ?_
  exact fun _ _ _ h => ⟨h.1.1, h.2⟩

theorem Clocks.still {κ α : Type} {m : Method Net κ Exc α} (hm : Clocks m) :
    m.Leaves Still fun _ => True := by
  refine hm.mono ?_ fun _ _ => trivial
  intro op hop
  rw [hop]
  trivial

/-- The check of the call's deadline, and the limit that is set to it. -/
theorem wpm_enterDeadline {Q : Except Exc Unit → Connection → Clocked → Prop} {c : Connection}
    {s : Clocked} (hlate : ∀ e, Q (.error e) c s) (h : Q (.ok ()) c { s with limit := some due }) :
    wpm waiting (Aio.enterDeadline ⟨some due⟩) Q c s := by
  unfold Aio.enterDeadline
  rw [wpm_bind]
  refine wpm_mono (wpm_still (Clocks.still (clocks_check ⟨some due⟩))) ?_
  intro r c' s' ⟨hc, hs'⟩
  rw [hc, hs']
  cases r with
  | error e => exact hlate e
  | ok _ =>
    unfold Deadline.remaining
    dsimp only
    rw [wpm_bind, wpm_bind, wpm_perform_op]
    refine ⟨trivial, fun now s₁ ⟨hnow, hs₁⟩ => ?_⟩
    dsimp only
    rw [wpm_pure]
    dsimp only
    rw [wpm_perform_op]
    refine ⟨trivial, fun answer s₂ hlimit => ?_⟩
    rw [show s₂ = _ from hlimit, hnow, hs₁, Option.map_some, add_sub_cancel]
    exact h

/-- Reading under the limit of the deadline. -/
theorem wpm_receiveFrame {sock : SockId} {c : Connection} {s : Clocked} (hs : InTime start due s)
    (hlimit : s.limit = some due) (hstage : s.stage = .settled) :
    wpm waiting (Aio.receiveFrame sock)
      (fun _ c' s' => c' = c ∧ InTime start due s' ∧ s'.stage = .settled) c s := by
  have hread : ∀ size, (Aio.readExactly sock size).Leaves
      (fun op => ∃ size, op = NetOp.readexactly sock size) fun _ => True := by
    intro size
    refine .bind (.perform (by exact ⟨size, rfl⟩)) fun answer => ?_
    match answer with
    | .ok data => exact .pure data.1
    | .error .timeout => exact .throw trivial
    | .error .other => exact .throw trivial
    | .error .incomplete => exact .throw trivial
    | .error .cancelled => exact .throw trivial
  have hreceive : (Aio.receiveFrame sock).Leaves (fun op => ∃ size, op = NetOp.readexactly sock size)
      fun _ => True := by
    refine .bind (hread _) fun header => .bind .self fun c => ?_
    exact .bind (.ofExcept fun _ _ => trivial) fun size => .ite (.pure _) (hread _)
  have hkeeps : Keeps waiting (fun op => ∃ size, op = .readexactly sock size)
      fun s => InTime start due s ∧ s.limit = some due ∧ s.stage = .settled := by
    intro s op ⟨size, hop⟩ ⟨hs, hlimit, hstage⟩
    subst hop
    refine ⟨trivial, fun answer s' ⟨ended, hended, hs'⟩ => ?_⟩
    unfold Clocked.read at hs'
    rw [if_neg (by rw [hstage]; exact Stage.noConfusion)] at hs'
    rw [hs']
    exact ⟨hs.await hlimit hended s.stage, hlimit, hstage⟩
  refine wpm_mono (wpm_of_leaves hkeeps hreceive ⟨hs, hlimit, hstage⟩) ?_
  exact fun _ _ _ h => ⟨h.1.1, h.2.1, h.2.2.2⟩

/-- A frame of the call. -/
theorem wpm_readFrame {c : Connection} {s : Clocked} (hs : InTime start due s)
    (hstage : s.stage = .settled) :
    wpm waiting (Aio.readFrame ⟨some due⟩)
      (fun _ c' s' => c' = c ∧ InTime start due s' ∧ s'.stage = .settled) c s := by
  rw [Aio.readFrame_eq, wpm_bind, wpm_requireSocket]
  cases c.sock with
  | none => exact ⟨rfl, hs, hstage⟩
  | some sock =>
    dsimp only
    rw [wpm_bind]
    apply wpm_enterDeadline
    · exact fun _ => ⟨rfl, hs, hstage⟩
    · exact wpm_receiveFrame hs rfl hstage

/-- The request of the call, on a connection in use. -/
theorem wpm_writeRequest (command : Command) {c : Connection} {s : Clocked} (hs : Kept start due c s) :
    wpm waiting (Aio.writeRequest command ⟨some due⟩) (fun r c' s' => Kept start due c' s' ∧
      (r = .ok () → s'.stage = .settled)) c s := by
  rw [Aio.writeRequest_eq, wpm_bind, wpm_self]
  dsimp only
  rw [wpm_bind, wpm_ofExcept]
  cases checkRequestSize command.payload c.maxMessageSize with
  | error e => exact ⟨hs, fun h => by cases h⟩
  | ok _ =>
    dsimp only
    rw [wpm_bind, wpm_requireSocket]
    cases hsock : c.sock with
    | none => exact ⟨hs, fun h => by cases h⟩
    | some sock =>
      have hstage : s.stage ≠ .opened :=
        hs.usable.resolve_left (by rw [hsock]; exact Option.some_ne_none _)
      dsimp only
      rw [wpm_bind]
      apply wpm_enterDeadline
      · exact fun _ => ⟨hs, fun h => by cases h⟩
      · dsimp only
        rw [wpm_bind, wpm_ofExcept]
        cases encodeFrame command.payload with
        | error e => exact ⟨⟨hs.inTime, hs.usable⟩, fun h => by cases h⟩
        | ok frame =>
          dsimp only
          unfold Aio.writeFrame
          rw [wpm_bind, wpm_perform_op]
          refine ⟨trivial, fun answer s' ⟨ended, hended, hs'⟩ => ?_⟩
          unfold Clocked.written at hs'
          rw [if_neg hstage] at hs'
          have hkept : ∀ {c' : Connection}, Kept start due c' s' := by
            rw [hs']
            exact ⟨InTime.await (s := { s with limit := some due }) hs.inTime rfl hended .settled,
              Or.inr Stage.noConfusion⟩
          have hsettled : s'.stage = .settled := by rw [hs']
          match answer with
          | .ok _ => exact ⟨hkept, fun _ => hsettled⟩
          | .error .timeout => exact ⟨hkept, fun _ => hsettled⟩
          | .error .other => exact ⟨hkept, fun _ => hsettled⟩
          | .error .cancelled => exact ⟨hkept, fun _ => hsettled⟩

theorem wpm_send (command : Command) {c : Connection} {s : Clocked} (hs : Kept start due c s) :
    wpm waiting (Aio.transport.send command ⟨some due⟩) (fun _ c' s' => Kept start due c' s') c s := by
  unfold Transport.send
  rw [wpm_bind]
  refine wpm_mono (wpm_writeRequest command hs) ?_
  intro r c₁ s₁ ⟨hs₁, hstage⟩
  cases r with
  | error e => exact hs₁
  | ok _ =>
    dsimp only
    rw [wpm_bind]
    refine wpm_mono (wpm_readFrame hs₁.inTime (hstage rfl)) ?_
    intro r c₂ s₂ ⟨_, hs₂, hstage₂⟩
    have hkept : ∀ {c' : Connection}, Kept start due c' s₂ :=
      ⟨hs₂, Or.inr (by rw [hstage₂]; exact Stage.noConfusion)⟩
    cases r with
    | error e => exact hkept
    | ok frame => exact hkept

end Calls

/-! ## Connects -/

section Connects
variable {start due : ℚ}

theorem keeps_setting (stage : Stage) :
    Keeps waiting NetOp.Setting fun s => InTime start due s ∧ s.stage = stage := by
  intro s op hop hs
  refine ⟨trivial, fun a s' h => ?_⟩
  cases op with
  | monotonic => rwa [h.2]
  | settimeout sock timeout => rwa [show s' = s from h]
  | enterTimeout delay =>
    rw [show s' = _ from h]
    exact hs
  | _ => exact hop.elim

theorem keeps_reading :
    Keeps waiting NetOp.Reading fun s => InTime start due s ∧ s.stage = .greeting := by
  intro s op hop hs
  cases op with
  | monotonic | settimeout | enterTimeout => exact keeps_setting .greeting s _ trivial hs
  | recv sock size =>
    refine ⟨trivial, fun a s' h => ?_⟩
    rwa [show s' = s from h]
  | readexactly sock size =>
    refine ⟨trivial, fun a s' ⟨ended, hended, hs'⟩ => ?_⟩
    unfold Clocked.read at hs'
    rw [if_pos hs.2] at hs'
    rw [hs']
    exact ⟨hs.1.connected hended.1 .greeting, rfl⟩
  | _ => exact hop.elim

/-- The handshake of a connection that was just opened. -/
theorem wpm_handshake {c : Connection} {s : Clocked} (hs : InTime start due s)
    (hstage : s.stage = .opened) :
    wpm waiting Aio.transport.handshake (fun r _ s' => InTime start due s' ∧
      (r = .ok () → s'.stage = .greeting)) c s := by
  have hfailed : ∀ {e : Exc} {s' : Clocked}, InTime start due s' → InTime start due s' ∧
      ((.error e : Except Exc Unit) = .ok () → s'.stage = .greeting) :=
    fun hs' => ⟨hs', fun h => by cases h⟩
  apply wpm_handshake_of
  · exact fun e _ => hfailed hs
  · intro command _
    refine ⟨trivial, fun now s₁ h₁ => ?_⟩
    rw [show s₁ = s from h₁.2]
    apply wpm_send_of
    apply FqClient.wpm_writeRequest .aio (keeps_setting .opened) command _ ⟨hs, hstage⟩
    · exact fun e s₂ _ hs₂ => hfailed hs₂.1
    · intro sock frame s₂ ⟨hs₂, hstage₂⟩ _ _ _
      refine ⟨trivial, fun answer s₃ ⟨ended, hended, hs₃⟩ => ?_⟩
      -- the first write on a new socket is that of HELLO
      unfold Clocked.written at hs₃
      rw [if_pos hstage₂] at hs₃
      rw [hs₃]
      cases Package.wrote .aio answer with
      | error e => exact hfailed (hs₂.connected hended.1 .greeting)
      | ok _ =>
        refine wpm_mono (wpm_of_leaves keeps_reading (Aio.reads_readFrame _)
          ⟨hs₂.connected hended.1 .greeting, rfl⟩) ?_
        intro r c₄ s₄ ⟨_, hs₄, hstage₄⟩
        cases r with
        | error e => exact hfailed hs₄
        | ok response =>
          apply Greeted.response
          · exact fun _ => hfailed hs₄
          · exact fun _ _ => ⟨hs₄, fun _ => hstage₄⟩

theorem wpm_close {c : Connection} {s : Clocked} (hs : InTime start due s) :
    wpm waiting closeConnection (fun r c' s' => r = .ok () ∧ c'.sock = none ∧
      InTime start due s') c s := by
  refine wpm_close_of (fun sock _ => ⟨trivial, fun s' ⟨ended, hended, hs'⟩ => ⟨rfl, rfl, ?_⟩⟩)
    fun _ => ⟨rfl, rfl, hs⟩
  rw [hs']
  exact hs.connected hended s.stage

/-- A connect of any length. -/
theorem wpm_connect {c : Connection} {s : Clocked} (hs : InTime start due s) (hsock : c.sock = none) :
    wpm waiting Aio.transport.connect (fun _ c' s' => Kept start due c' s') c s := by
  apply wpm_connect_of
  · exact fun e _ => ⟨hs, Or.inl hsock⟩
  · intro host port
    change wpm waiting (Aio.dial host port) _ c s
    unfold Aio.dial
    rw [wpm_bind, wpm_self]
    dsimp only
    rw [wpm_bind, wpm_perform_op]
    refine ⟨trivial, fun _ s₁ hs₁ => ?_⟩
    dsimp only
    rw [wpm_bind, wpm_perform_op]
    refine ⟨trivial, fun answer s₂ ⟨ended, hended, hs₂⟩ => ?_⟩
    have hinTime : InTime start due s₂ := by
      rw [hs₂]
      refine InTime.connected ?_ hended.1 .opened
      rwa [show s₁ = _ from hs₁]
    have hopened : s₂.stage = .opened := by rw [hs₂, Clocked.connected]
    match answer with
    | .error .timeout => exact ⟨hinTime, Or.inl hsock⟩
    | .error .other => exact ⟨hinTime, Or.inl hsock⟩
    | .error .cancelled => exact ⟨hinTime, Or.inl hsock⟩
    | .ok sock =>
      dsimp only
      rw [wpm_pure]
      refine wpm_mono (wpm_handshake hinTime hopened) ?_
      intro r c₃ s₃ ⟨hs₃, hstage⟩
      cases r with
      | ok _ => exact ⟨hs₃, Or.inr (by rw [hstage rfl]; exact Stage.noConfusion)⟩
      | error e =>
        refine wpm_mono (wpm_close hs₃) ?_
        intro r c₄ s₄ ⟨_, hsock₄, hs₄⟩
        exact ⟨hs₄, Or.inl hsock₄⟩

theorem wpm_reconnect {c : Connection} {s : Clocked} (hs : Kept start due c s) :
    wpm waiting Aio.transport.reconnect (fun _ c' s' => Kept start due c' s') c s := by
  apply wpm_reconnect_of
  · intro sock _
    refine ⟨trivial, fun s' ⟨ended, hended, hs'⟩ => wpm_connect ?_ rfl⟩
    rw [hs']
    exact hs.inTime.connected hended s.stage
  · exact fun _ => wpm_connect hs.inTime rfl

/-- The sleep before an attempt ends by the deadline. -/
theorem wpm_backoff (policy : ReconnectPolicy) (attempt : ℕ) {c : Connection} {s : Clocked}
    (hs : Kept start due c s) :
    wpm waiting (Aio.transport.backoff policy attempt ⟨some due⟩)
      (fun _ c' s' => Kept start due c' s') c s := by
  have hcheck : ∀ {c : Connection} {s : Clocked}, Kept start due c s →
      wpm waiting (Deadline.check ⟨some due⟩) (fun _ c' s' => Kept start due c' s') c s := by
    intro c s hs
    refine wpm_mono (wpm_still (Clocks.still (clocks_check ⟨some due⟩))) ?_
    intro r c' s' ⟨hc, hs'⟩
    rwa [hc, hs']
  have hdelay : (policy.delay attempt).Leaves Still fun _ => True := by
    refine .bind (.ofExcept fun _ _ => trivial) fun _ => .bind (.perform (by exact trivial)) fun _ => ?_
    exact .pure _
  unfold Transport.backoff
  rw [wpm_bind]
  refine wpm_mono (hcheck hs) ?_
  intro r c₁ s₁ hs₁
  cases r with
  | error e => exact hs₁
  | ok _ =>
    dsimp only
    rw [wpm_bind]
    refine wpm_mono (wpm_still hdelay) ?_
    intro r c₂ s₂ ⟨hc₂, hs₂⟩
    rw [hc₂, hs₂]
    cases r with
    | error e => exact hs₁
    | ok delay =>
      dsimp only
      unfold Deadline.clamp Deadline.remaining
      dsimp only
      rw [wpm_bind, wpm_bind, wpm_bind, wpm_perform_op]
      refine ⟨trivial, fun now s₃ ⟨hnow, hs₃⟩ => ?_⟩
      rw [hnow, hs₃]
      dsimp only
      rw [wpm_pure]
      dsimp only
      rw [wpm_pure]
      dsimp only
      by_cases hpos : 0 < min delay (max (due - s₁.now) 0)
      · have hahead : 0 < due - s₁.now := by
          rcases lt_max_iff.mp (lt_min_iff.mp hpos).2 with h | h
          · exact h
          · exact absurd h (lt_irrefl _)
        -- a sleep is no longer than what is left of the deadline
        have hmin := min_le_right delay (max (due - s₁.now) 0)
        rw [if_pos hpos, wpm_bind]
        change wpm waiting (Aio.sleep _) _ c₁ s₁
        unfold Aio.sleep
        rw [wpm_bind, wpm_perform_op]
        refine ⟨trivial, fun answer s₄ ⟨lasted, hnonneg, hlasted, hs₄⟩ => ?_⟩
        have hkept : Kept start due c₁ s₄ := by
          rw [max_eq_left hpos.le] at hlasted
          rw [max_eq_left hahead.le] at hmin hlasted
          rw [hs₄]
          exact ⟨hs₁.inTime.advance (by linarith) (fun _ => by linarith) _ _, hs₁.usable⟩
        cases answer with
        | error fault => exact hkept
        | ok _ => exact hcheck hkept
      · rw [if_neg hpos]
        exact hcheck hs₁

theorem wpm_withRetry (policy : ReconnectPolicy) (command : Command) (rounds : ℕ) {c : Connection}
    {s : Clocked} (hs : Kept start due c s) :
    wpm waiting (Aio.transport.withRetry policy command ⟨some due⟩ Aio.transport.send rounds 0)
      (fun _ c' s' => Kept start due c' s') c s := by
  have hround : Retrying waiting Aio.transport policy command ⟨some due⟩ Aio.transport.send
      (fun _ => Kept start due) (fun _ _ => Kept start due) (fun _ => Kept start due)
      (fun _ => Kept start due) := by
    refine ⟨?_, ?_, ?_, ?_⟩
    · intro _ c s hs
      refine wpm_mono (wpm_send command hs) ?_
      intro r c' s' h
      split <;> exact h
    · exact fun _ _ _ _ hs _ => hs
    · intro n _ c s hs _ _
      refine wpm_mono (wpm_backoff policy (n + 1) hs) ?_
      intro r c' s' h
      split <;> exact h
    · intro _ c s hs
      refine wpm_mono (wpm_reconnect hs) ?_
      intro r c' s' h
      split <;> exact h
  exact hround.withRetry trivial rounds (n := 0) hs

end Connects

/-! ## Calls -/

section Calls
variable {start due : ℚ}

/-- Waiting for a slot of the pool. -/
theorem wpm_take {s : Clocked} (hs : InTime start due s) (hstage : s.stage = .settled) :
    wpm waiting (Aio.take ⟨some due⟩)
      (fun _ _ s' => InTime start due s' ∧ s'.stage = .settled) () s := by
  unfold Aio.take Deadline.remaining
  dsimp only
  rw [wpm_bind, wpm_bind, wpm_perform_op]
  refine ⟨trivial, fun now s₁ ⟨hnow, hs₁⟩ => ?_⟩
  rw [hnow, hs₁]
  dsimp only
  rw [wpm_pure]
  dsimp only
  rw [wpm_bind, wpm_perform_op]
  refine ⟨trivial, fun _ s₂ hlimit => ?_⟩
  replace hlimit : s₂ = { s with limit := some due } := by
    rw [show s₂ = _ from hlimit, Option.map_some, add_sub_cancel]
  dsimp only
  rw [wpm_bind, wpm_perform_op]
  refine ⟨trivial, fun answer s₃ ⟨ended, hended, hs₃⟩ => ?_⟩
  have htaken : InTime start due s₃ ∧ s₃.stage = .settled := by
    rw [hs₃, hlimit] at *
    exact ⟨InTime.await (s := { s with limit := some due }) hs rfl hended s.stage, hstage⟩
  match answer with
  | .ok slot => exact htaken
  | .error .timeout => exact htaken
  | .error .cancelled => exact htaken

/-- A slot of the pool, and a connect for an empty one. -/
theorem wpm_acquire (settings : Settings) {s : Clocked} (hs : InTime start due s)
    (hstage : s.stage = .settled) :
    wpm waiting (Aio.transport.acquire settings ⟨some due⟩) (fun r _ s' => match r with
      | .ok connection => Kept start due connection s'
      | .error _ => InTime start due s') () s := by
  apply wpm_acquire_of (J := fun s' => s' = s)
  · rw [wpm_perform_op]
    refine ⟨trivial, fun flag s₁ hs₁ => ?_⟩
    rw [show s₁ = s from hs₁]
    dsimp only
    split
    · exact hs
    · trivial
  · intro s₁ hs₁
    rw [hs₁]
    refine wpm_mono (wpm_take hs hstage) ?_
    intro r _ s₂ ⟨hs₂, hstage₂⟩
    match r with
    | .error e => exact hs₂
    | .ok (some connection) => exact ⟨hs₂, Or.inr (by rw [hstage₂]; exact Stage.noConfusion)⟩
    | .ok none =>
      refine wpm_mono (wpm_connect (c := Connection.new settings) hs₂ rfl) ?_
      intro outcome connection s₃ hs₃
      cases outcome with
      | ok _ => exact hs₃
      | error e =>
        refine ⟨trivial, fun _ s₄ hs₄ => ?_⟩
        rw [show s₄ = s₃ from hs₄]
        exact hs₃.inTime

/-- When a connection goes back to the pool, only the end of one that goes back to a closed pool is
waited for. -/
theorem wpm_release (connection : Connection) {s : Clocked} (hs : InTime start due s) :
    wpm waiting (Transport.release connection) (fun _ _ s' => InTime start due s') () s := by
  apply wpm_release_of (J := fun s' => s' = s)
  · exact ⟨trivial, fun _ _ hs₁ => hs₁⟩
  · intro s₁ hs₁
    rw [hs₁]
    refine wpm_mono (wpm_close hs) ?_
    exact fun _ _ _ hpost => hpost.2.2
  · intro s₁ hs₁
    refine ⟨trivial, fun _ s₂ hs₂ => ?_⟩
    rw [show s₂ = s₁ from hs₂, hs₁]
    exact hs

end Calls

/-- The timeout of a call. -/
def callTimeout (config : ClientConfig) : Timeout → Option ℚ
  | .default => config.timeout
  | .unlimited => none
  | .seconds value => some value

theorem wpm_execute {α : Type} (config : ClientConfig) (rounds : ℕ) (command : Command)
    (parse : Bytes → Except Exc α) {timeout : Timeout} {T : ℚ}
    (hfinite : callTimeout config timeout = some T) (start : ℚ) :
    wpm waiting (Aio.transport.execute config rounds command parse timeout)
      (fun _ _ s' => InTime start (start + T) s') () { now := start } := by
  have hstart : InTime start (start + T) { now := start } :=
    ⟨fun h => ⟨h, fun _ hmem => absurd hmem List.not_mem_nil⟩, fun h => h.1⟩
  have hdeadline : (config.deadline timeout : ClientM Deadline) = Deadline.start (some T) := by
    rw [← hfinite]
    cases timeout <;> rfl
  unfold Transport.execute Transport.request
  rw [wpm_bind, hdeadline]
  unfold Deadline.start
  dsimp only
  rw [wpm_bind, wpm_bind, wpm_perform_op]
  refine ⟨trivial, fun now s₁ ⟨hnow, hs₁⟩ => ?_⟩
  rw [hnow, hs₁]
  dsimp only
  rw [wpm_pure]
  dsimp only
  apply wpm_withConnection_of
  refine wpm_mono (wpm_acquire config.settings hstart rfl) ?_
  intro r _ s₂ hr
  cases r with
  | error e => exact hr
  | ok connection =>
    refine wpm_mono (wpm_withRetry config.reconnect command rounds hr) ?_
    intro outcome connection' s₃ hs₃
    refine wpm_mono (wpm_release connection' hs₃.inTime) ?_
    intro r _ s₄ hs₄
    cases r with
    | error e => exact hs₄
    | ok _ =>
      cases outcome with
      | error e => exact hs₄
      | ok payload => exact hs₄

/-- A call ends within its timeout exactly when the timeout is not negative and every operation of a
connect and of its handshake, and every wait for the end of a connection, ends by then. -/
theorem ends_within_timeout_iff {α : Type} (config : ClientConfig) (rounds : ℕ) (command : Command)
    (parse : Bytes → Except Exc α) (timeout : Timeout) {T : ℚ}
    (hfinite : callTimeout config timeout = some T) (start : ℚ) {r : Except Exc α × Unit} {s' : Clocked}
    (hrun : Reaches waiting
      (Aio.transport.execute config rounds command parse timeout (), { now := start }) (.pure r, s')) :
    s'.now ≤ start + T ↔ 0 ≤ T ∧ ∀ moment ∈ s'.unlimited, moment ≤ start + T := by
  rw [← le_add_iff_nonneg_right (a := start)]
  exact wp_result (Q := fun _ s' => InTime start (start + T) s')
    (wpm_execute config rounds command parse hfinite start) hrun

/-- A server that drops its connections, and then does not take a new one for the five seconds that
the client tries. -/
def stalling (s : Clocked) : (op : NetOp) → op.Answer × Clocked
  | .monotonic => (s.now, s)
  | .enterTimeout delay => ((), { s with limit := delay.map (s.now + ·) })
  | .awaitSlot => (.ok (some .pooled), { s with now := s.now })
  | .openConnection _ _ _ => (.error .timeout, s.connected (max s.now (s.limit.getD s.now)) .opened)
  | .writeDrain _ _ => (.ok (), s.written s.now)
  | .readexactly _ _ => (.error .incomplete, s.read s.now)
  | .asyncSleep _ => (.ok (), { s with now := s.now + 0 })
  | .closeSocket _ => ((), s.closed s.now)
  | op => (op.calm, s)

theorem waiting_stalling (s : Clocked) (op : NetOp) :
    waiting.step s op (stalling s op).1 (stalling s op).2 := by
  have hstays : s.Awaits s.now := ⟨le_rfl, fun limit _ => le_max_left _ _⟩
  cases op with
  | monotonic => exact ⟨rfl, rfl⟩
  | asyncSleep delay => exact ⟨0, le_rfl, le_max_right _ _, rfl⟩
  | awaitSlot => exact ⟨s.now, hstays, rfl⟩
  | openConnection host port hostname =>
    refine ⟨_, ⟨le_max_left _ _, ?_⟩, rfl⟩
    intro limit hlimit
    rw [hlimit, Option.getD_some]
  | writeDrain sock data => exact ⟨s.now, hstays, rfl⟩
  | readexactly sock size => exact ⟨s.now, hstays, rfl⟩
  | closeSocket sock => exact ⟨s.now, le_rfl, rfl⟩
  | _ => rfl

/-- A call with a timeout of one second that loses its connection to that server. -/
def stalled : Clocked := { now := 5, limit := some 5, stage := .opened, unlimited := [0, 5] }

theorem reaches_stalled : Reaches waiting
    (Aio.transport.execute ⟨Connection.pooled.settings, some 1, {}⟩ 2 .getHit Except.ok .default (),
      { now := 0 })
    (.pure (.error (.timeoutError (.connectTimedOut "db:7".toList)), ()), stalled) :=
  reaches_run waiting_stalling (by decide +kernel)

theorem stalled_ends_within_timeout_iff :
    stalled.now ≤ 0 + 1 ↔ (0 : ℚ) ≤ 1 ∧ ∀ moment ∈ stalled.unlimited, moment ≤ 0 + 1 :=
  ends_within_timeout_iff ⟨Connection.pooled.settings, some 1, {}⟩ 2 .getHit Except.ok .default rfl 0
    reaches_stalled

/-- Its reconnect takes the five seconds of `connect_timeout`. -/
theorem stalled_reconnect_overruns : ¬ ∀ r s', Reaches waiting
    (Aio.transport.execute ⟨Connection.pooled.settings, some 1, {}⟩ 2 .getHit Except.ok .default (),
      { now := 0 }) (.pure r, s') → s'.now ≤ 1 := by
  intro h
  have hstalled : (5 : ℚ) ≤ 1 := h _ stalled reaches_stalled
  norm_num at hstalled

end FqClient.CallDeadline
