import FqClient.Calls
import FqClient.Effects.Runs
import FqClient.UnlimitedRetry

namespace FqClient.StopRequests

open Effects

/-! ## A request to stop, and what arrives after it -/

section Watching
variable (parse : Bytes → Except Exc StreamEvent)

/-- The frame is an event. -/
def isEvent (frame : Bytes) : Bool :=
  match parse frame with
  | .ok _ => true
  | .error _ => false

/-- Whether `should_stop()` is true from now on, whether an event is still to be yielded, how many
events arrived and how many were yielded since that moment, and whether a poll interval passed or the
connection was lost since. -/
structure Watch where
  wanted : Bool := false
  held : Bool := false
  arrived : ℕ := 0
  yielded : ℕ := 0
  quiet : Bool := false
  deriving DecidableEq

namespace Watch

variable (s : Watch)

def note : (op : CallOp) → op.Answer → Watch
  | .nextFrame, .ok (some frame) =>
    { s with
      held := isEvent parse frame
      arrived := s.arrived + (s.wanted && isEvent parse frame).toNat }
  | .nextFrame, _ | .openStream, .error _ => { s with quiet := s.wanted }
  | .yieldFrame _, .ok _ => { s with held := false, yielded := s.yielded + s.wanted.toNat }
  | _, _ => s

/-- The moment: an event that is still to be yielded counts among those that arrive. -/
def request : Watch := if s.wanted then s else { s with wanted := true, arrived := s.held.toNat }

/-- From the moment on `should_stop()` is true, before it is as it likes; parsing is what it is. -/
def Answers : (op : CallOp) → op.Answer → Prop
  | .stop, r => ∃ answer, r = .ok answer ∧ (s.wanted = true → answer = true)
  | .yieldFrame frame, r => match parse frame with
    | .error e => r = .error e
    | .ok _ => ∃ resume, r = .ok resume
  | _, _ => True

end Watch

/-- Frames arrive, polls time out, connections are lost and reconnects end as they like; the request to
stop may come at any moment. -/
def watching : World CallIO Watch where
  permits _ _ := True
  step s op r s' := s.Answers parse op r ∧ (s' = s.note parse op r ∨ s' = (s.note parse op r).request)

/-- What a stream still does when nothing arrives. -/
def CallOp.Closing : CallOp → Prop
  | .stop | .pause _ | .reconnect => True
  | _ => False

/-- Every event that arrived after the request was yielded, but for one that is still to be. -/
structure Counted (s : Watch) : Prop where
  arrived : s.arrived = s.yielded + (s.wanted && s.held).toNat
  before : s.wanted = false → s.yielded = 0 ∧ s.quiet = false

/-- The same, with no other call once nothing arrived after the request. -/
def closing : World CallIO Watch where
  permits s op := Counted s ∧ (s.quiet = true → CallOp.Closing op)
  step := (watching parse).step

end Watching

section Stream
variable {parse : Bytes → Except Exc StreamEvent} {policy : ReconnectPolicy} {s : Watch}

theorem Counted.request (h : Counted s) : Counted s.request := by
  unfold Watch.request
  split
  · exact h
  next hwanted =>
    have hyielded := (h.before (eq_false_of_ne_true hwanted)).1
    refine ⟨?_, fun hnot => by cases hnot⟩
    change s.held.toNat = s.yielded + (true && s.held).toNat
    rw [hyielded, Nat.zero_add, Bool.true_and]

theorem held_request : s.request.held = s.held := by
  unfold Watch.request
  split <;> rfl

theorem quiet_request : s.request.quiet = s.quiet := by
  unfold Watch.request
  split <;> rfl

/-- The rule of a call: what holds after its outcome holds when the request comes then too. -/
theorem wp_call {β : Type} {op : CallOp} {f : op.Answer → Prog CallIO β} {Q : β → Watch → Prop}
    (hs : Counted s) (hop : s.quiet = true → CallOp.Closing op)
    (hcounted : ∀ r, s.Answers parse op r → Counted (s.note parse op r))
    (h : ∀ r s', s.Answers parse op r → Counted s' → s'.held = (s.note parse op r).held →
      s'.quiet = (s.note parse op r).quiet → wp (closing parse) (f r) Q s') :
    wp (closing parse) (Calls.call op >>= f) Q s := by
  refine ⟨⟨hs, hop⟩, fun r s' ⟨hr, hs'⟩ => ?_⟩
  have hnoted := hcounted r hr
  rcases hs' with hs' | hs'
  · rw [hs']
    exact h r _ hr hnoted rfl rfl
  · rw [hs']
    exact h r _ hr hnoted.request held_request quiet_request

theorem wp_call_keeping {β : Type} {op : CallOp} {f : op.Answer → Prog CallIO β} {Q : β → Watch → Prop}
    (hop : s.quiet = true → CallOp.Closing op) (hkeeps : ∀ r, s.note parse op r = s) (hs : Counted s)
    (h : ∀ r s', s.Answers parse op r → Counted s' → s'.held = s.held → s'.quiet = s.quiet →
      wp (closing parse) (f r) Q s') : wp (closing parse) (Calls.call op >>= f) Q s := by
  apply wp_call hs hop
  · intro r _
    rw [hkeeps r]
    exact hs
  · intro r s' hr hs' hheld hquiet
    rw [hkeeps r] at hheld hquiet
    exact h r s' hr hs' hheld hquiet

/-- All events were yielded. -/
def Done (_ : Except Exc Unit) (s : Watch) : Prop := Counted s ∧ s.held = false

/-- Asking `should_stop()`: the stream only goes on when nothing was quiet since the request. -/
theorem wp_stop {next : Prog CallIO (Except Exc Unit)} (hs : Counted s) (hheld : s.held = false)
    (hnext : ∀ s', Counted s' → s'.held = false → s'.quiet = false →
      wp (closing parse) next Done s') :
    wp (closing parse) (do
      match ← Calls.call .stop with
      | .error e => return .error e
      | .ok true => return .ok ()
      | .ok false => next) Done s := by
  apply wp_call_keeping
  · exact fun _ => trivial
  · exact fun _ => rfl
  · exact hs
  · intro r s' ⟨answer, hr, hanswer⟩ hs' hheld' hquiet'
    rw [hr]
    cases answer with
    | true => exact ⟨hs', hheld'.trans hheld⟩
    | false =>
      have hwanted : s.wanted = false := by
        cases h : s.wanted with
        | false => rfl
        | true => exact absurd (hanswer h) (by decide)
      exact hnext s' hs' (hheld'.trans hheld) (hquiet'.trans (hs.before hwanted).2)

/-- After a lost connection the stream waits, reconnects and starts again, or ends. -/
theorem wp_streamFailed {e : Exc} {attempt : ℕ} {again : Prog CallIO (Except Exc Unit)}
    (hs : Counted s) (hheld : s.held = false)
    (hagain : ∀ s', Counted s' → s'.held = false → wp (closing parse) again Done s') :
    wp (closing parse) (Calls.streamFailed policy e attempt again) Done s := by
  unfold Calls.streamFailed
  split
  · exact ⟨hs, hheld⟩
  · split
    · exact ⟨hs, hheld⟩
    · apply wp_call_keeping
      · exact fun _ => trivial
      · exact fun _ => rfl
      · exact hs
      intro r s₁ _ hs₁ hheld₁ _
      rw [hheld] at hheld₁
      cases r with
      | error e => exact ⟨hs₁, hheld₁⟩
      | ok _ =>
        apply wp_call_keeping
        · exact fun _ => trivial
        · exact fun _ => rfl
        · exact hs₁
        intro r s₂ _ hs₂ hheld₂ _
        rw [hheld₁] at hheld₂
        cases r with
        | ok _ => exact hagain s₂ hs₂ hheld₂
        | error e =>
          dsimp only
          split
          · exact hagain s₂ hs₂ hheld₂
          · exact ⟨hs₂, hheld₂⟩

theorem Counted.quieted (hs : Counted s) : Counted { s with quiet := s.wanted } :=
  ⟨hs.arrived, fun h => ⟨(hs.before h).1, h⟩⟩

theorem Counted.yielded (hs : Counted s) (hheld : s.held = true) :
    Counted { s with held := false, yielded := s.yielded + s.wanted.toNat } := by
  refine ⟨?_, fun h => ?_⟩
  · change s.arrived = s.yielded + s.wanted.toNat + (s.wanted && false).toNat
    rw [hs.arrived, hheld, Bool.and_true, Bool.and_false]
    rfl
  · have hnot : s.wanted = false := h
    refine ⟨?_, (hs.before hnot).2⟩
    change s.yielded + s.wanted.toNat = 0
    rw [(hs.before hnot).1, hnot]
    rfl

/-- A frame that is yielded is an event. -/
theorem isEvent_of_ok {frame : Bytes} {resume : Resume}
    (h : s.Answers parse (.yieldFrame frame) (.ok resume)) : isEvent parse frame = true := by
  change match parse frame with
    | .error e => _
    | .ok _ => _ at h
  unfold isEvent
  cases hparse : parse frame with
  | error e =>
    rw [hparse] at h
    cases h
  | ok event => rfl

theorem isEvent_of_error {frame : Bytes} {e : Exc}
    (h : s.Answers parse (.yieldFrame frame) (.error e)) : isEvent parse frame = false := by
  change match parse frame with
    | .error e => _
    | .ok _ => _ at h
  unfold isEvent
  cases hparse : parse frame with
  | error e' => rfl
  | ok event =>
    rw [hparse] at h
    obtain ⟨resume, hresume⟩ := h
    cases hresume

theorem wp_streamLoop (rounds : ℕ) (phase : Transport.StreamPhase) (attempt : ℕ) (hs : Counted s)
    (hheld : s.held = false) (hphase : phase = .reading → s.quiet = false) :
    wp (closing parse) (Calls.streamLoop policy rounds phase attempt) Done s := by
  have hpermits : ∀ {s : Watch} {op : CallOp}, s.quiet = false → s.quiet = true →
      CallOp.Closing op := by
    intro s op h hquiet
    rw [h] at hquiet
    cases hquiet
  induction rounds generalizing phase attempt s with
  | zero => cases phase <;> exact trivial
  | succ rounds ih =>
    -- a lost connection starts the loop again
    have hfailed : ∀ {e : Exc} {s : Watch}, Counted s → s.held = false → wp (closing parse)
        (Calls.streamFailed policy e attempt (Calls.streamLoop policy rounds .opening (attempt + 1)))
        Done s := fun hs hheld =>
      wp_streamFailed hs hheld fun s' hs' hheld' => ih .opening _ hs' hheld' fun h => by cases h
    cases phase with
    | opening =>
      refine wp_stop hs hheld fun s₁ hs₁ hheld₁ hquiet₁ => ?_
      apply wp_call hs₁ (hpermits hquiet₁)
      · intro r _
        cases r with
        | ok _ => exact hs₁
        | error e => exact hs₁.quieted
      · intro r s₂ _ hs₂ hheld₂ hquiet₂
        cases r with
        | ok _ => exact ih .reading attempt hs₂ (hheld₂.trans hheld₁) fun _ => hquiet₂.trans hquiet₁
        | error e => exact hfailed hs₂ (hheld₂.trans hheld₁)
    | reading =>
      have hquiet := hphase rfl
      apply wp_call hs (hpermits hquiet)
      · intro r _
        match r with
        | .error e => exact hs.quieted
        | .ok none => exact hs.quieted
        | .ok (some frame) =>
          refine ⟨?_, hs.before⟩
          change s.arrived + (s.wanted && isEvent parse frame).toNat =
            s.yielded + (s.wanted && isEvent parse frame).toNat
          rw [hs.arrived, hheld, Bool.and_false]
          rfl
      · intro r s₁ _ hs₁ hheld₁ hquiet₁
        match r with
        | .error e => exact hfailed hs₁ (hheld₁.trans hheld)
        | .ok none =>
          refine wp_stop hs₁ (hheld₁.trans hheld) fun s₂ hs₂ hheld₂ hquiet₂ => ?_
          exact ih .reading attempt hs₂ hheld₂ fun _ => hquiet₂
        | .ok (some frame) =>
          replace hheld₁ : s₁.held = isEvent parse frame := hheld₁
          apply wp_call hs₁ (hpermits (hquiet₁.trans hquiet))
          · intro r hr
            cases r with
            | ok resume => exact hs₁.yielded (hheld₁.trans (isEvent_of_ok hr))
            | error e => exact hs₁
          · intro r s₂ hr hs₂ hheld₂ hquiet₂
            match r with
            | .ok .next => exact ih .reading 0 hs₂ hheld₂ fun _ => hquiet₂.trans (hquiet₁.trans hquiet)
            | .ok .close => exact ⟨hs₂, hheld₂⟩
            | .error e => exact ⟨hs₂, hheld₂.trans (hheld₁.trans (isEvent_of_error hr))⟩

end Stream

/-! ## The stream of the client -/

/-- The loop of a polled stream makes these calls on its connection. When it is over, it has yielded at
most one event since the request exactly when at most one arrived. Before that it has yielded no more
than arrived, and once a poll interval has passed or the connection was lost since the request, it
reads no more and yields no more. -/
structure Stops (x : Caller) (c : Connection) : Prop where
  calls : ∀ rounds, Sync.transport.streamLoop x.policy x.command x.parse true rounds .opening 0 c =
    (Calls.streamLoop x.policy rounds .opening 0).handled (Sync.transport.carryOut x) c
  asks : ∀ c', Sync.transport.carryOut x .stop c' = .call .shouldStop fun answer =>
    .pure (.ok answer, c')
  yields : ∀ frame c', Sync.transport.carryOut x (.yieldFrame frame) c' = match x.parse frame with
    | .error e => .pure (.error e, c')
    | .ok event => .call (.yieldEvent event) fun resume => .pure (.ok resume, c')
  others : ∀ c', wp (anything NetOp.NotRetry) (Sync.transport.carryOut x .openStream c')
    (fun _ _ => True) () ∧
    wp (anything NetOp.NotRetry) (Sync.transport.carryOut x .nextFrame c') (fun _ _ => True) () ∧
    wp (anything NetOp.NotRetry) (Sync.transport.carryOut x .reconnect c') (fun _ _ => True) ()
  counts : ∀ rounds wanted r s, Reaches (watching x.parse)
    (Calls.streamLoop x.policy rounds .opening 0, { wanted := wanted }) (.pure r, s) →
      (s.yielded ≤ 1 ↔ s.arrived ≤ 1)
  closes : ∀ rounds wanted op k s, Reaches (watching x.parse)
    (Calls.streamLoop x.policy rounds .opening 0, { wanted := wanted }) (.call op k, s) →
      s.yielded ≤ s.arrived ∧ (s.quiet = true → CallOp.Closing op)

theorem counted_start (wanted : Bool) : Counted { wanted := wanted } := by
  refine ⟨?_, fun _ => ⟨rfl, rfl⟩⟩
  cases wanted <;> rfl

theorem stops {x : Caller} (hpolled : x.polled = true) (c : Connection) : Stops x c where
  calls rounds := by
    rw [← hpolled]
    exact streamLoop_handled rounds .opening 0 c
  asks c' := by
    change Transport.stopped x.polled c' = _
    rw [hpolled]
    rfl
  yields frame c' := by
    change Transport.yieldFrame x.parse frame c' = _
    unfold Transport.yieldFrame
    cases x.parse frame with
    | error e => rfl
    | ok event => rfl
  others c' := by
    have honly : ∀ {α : Type} {m : ConnM α}, m.Only NetOp.NotRetry Exc.NotDelay →
        wp (anything NetOp.NotRetry) (m c') (fun _ _ => True) () :=
      fun hm => wp_mono (hm c') fun _ _ _ => trivial
    refine ⟨honly (only_writeRequest .sync x.command Deadline.unlimited), ?_,
      honly (only_reconnect .sync)⟩
    exact honly (only_nextFrame .sync _)
  counts rounds wanted r s hrun := by
    have hclosing : Reaches (closing x.parse) (Calls.streamLoop x.policy rounds .opening 0,
        { wanted := wanted })
        (.pure r, s) := by
      refine reaches_of_step ?_ hrun
      exact fun _ _ _ _ h => h
    have hdone : Done r s :=
      wp_result (wp_streamLoop rounds .opening 0 (counted_start wanted) rfl fun _ => rfl) hclosing
    obtain ⟨hcounted, hheld⟩ := hdone
    rw [hcounted.arrived, hheld, Bool.and_false]
    rfl
  closes rounds wanted op k s hrun := by
    have hclosing : Reaches (closing x.parse) (Calls.streamLoop x.policy rounds .opening 0,
        { wanted := wanted })
        (.call op k, s) := by
      refine reaches_of_step ?_ hrun
      exact fun _ _ _ _ h => h
    obtain ⟨hcounted, hquiet⟩ :=
      wp_permits (wp_streamLoop rounds .opening 0 (counted_start wanted) rfl fun _ => rfl) hclosing
    refine ⟨?_, hquiet⟩
    rw [hcounted.arrived]
    exact Nat.le_add_right _ _

/-- A request to stop ends a polled stream after at most one event exactly when at most one arrives
before the stream asks again. -/
theorem stop_ends_stream_iff (policy : ReconnectPolicy) (command : Command) (d : Deadline)
    (subscription : Subscription) (c : Connection) :
    Stops ⟨policy, command, d, Sync.transport.send, subscription.parse, true⟩ c := stops rfl c

/-! ### A busy stream -/

def isYield : NetOp → Bool
  | .yieldEvent _ => true
  | _ => false

/-- `should_stop()` is false there. -/
def goesOn : Event Net → Bool
  | ⟨.shouldStop, false⟩ => true
  | _ => false

/-- After any moment from which `should_stop()` is true, the run yields at most one event. -/
def StopsAfterOne (log : List (Event Net)) : Prop :=
  ∀ before later, log = before ++ later → (∀ event ∈ later, goesOn event = false) →
    (later.filter fun event => isYield event.1).length ≤ 1

def isRecv : NetOp → Bool
  | .recv _ _ => true
  | _ => false

/-- Three events in a row, and then nothing. -/
def busyFrame : Bytes := encodeUtf8 "ok|k;60;1;5".toList

def busyRecv (size : ℕ) (received : ℕ) : Except OSFault {chunk : Bytes // chunk.length ≤ size} :=
  if 6 ≤ received then .error .timeout
  else if received % 2 = 0 then .ok ⟨(beBytes busyFrame.length).take size, List.length_take_le _ _⟩
  else .ok ⟨busyFrame.take size, List.length_take_le _ _⟩

/-- `should_stop()` is true from the second time on that it is asked. -/
def busy (log : List (Event Net)) : (op : NetOp) → op.Answer × List (Event Net)
  | .shouldStop => (log.length ≠ 0, log ++ [⟨NetOp.shouldStop, (log.length ≠ 0 : Bool)⟩])
  | .recv sock size =>
    let answer := busyRecv size (log.filter fun event => isRecv event.1).length
    (answer, log ++ [⟨.recv sock size, answer⟩])
  | op => (op.calm, log ++ [⟨op, op.calm⟩])

theorem record_busy (log : List (Event Net)) (op : NetOp) :
    (record Net).step log op (busy log op).1 (busy log op).2 := by
  cases op <;> rfl

def busyRun : Option (Except Exc Unit × Connection) × List (Event Net) :=
  (Sync.transport.streamLoop {} ⟨encodeUtf8 "STREAM".toList, true⟩ (Subscription.parse .stream) true 6 .opening 0
    .pooled).run busy []

/-- The stream yields all three events before it asks. -/
theorem busy_stream_overruns : ¬ ∀ r log, Reaches (record Net)
    (Sync.transport.streamLoop {} ⟨encodeUtf8 "STREAM".toList, true⟩ (Subscription.parse .stream) true 6 .opening 0
      .pooled, []) (.pure r, log) → StopsAfterOne log := by
  intro h
  have hrun : Reaches (record Net) (Sync.transport.streamLoop {} ⟨encodeUtf8 "STREAM".toList, true⟩
      (Subscription.parse .stream) true 6 .opening 0 .pooled,
        []) (.pure (.ok (), { Connection.pooled with
        requestInFlight := true }), busyRun.2) :=
    reaches_run record_busy (Prod.ext (by decide +kernel) rfl)
  have hyields := h _ _ hrun (busyRun.2.take 1) (busyRun.2.drop 1) (List.take_append_drop 1 _).symm
    (by decide +kernel)
  revert hyields
  decide +kernel

end FqClient.StopRequests
