import FqClient.Effects.Handler
import FqClient.Packages

namespace FqClient

open Effects

/-! The loops of the clients, in terms of the calls that they make on a connection. -/

/-- What the loops of a call and of a stream ask for. -/
inductive CallOp
  /-- The command is sent and answered. -/
  | send
  | requestInFlight
  | backoff (attempt : ℕ)
  | reconnect
  /-- `stop()`. -/
  | stop
  | openStream
  /-- The next item of `open_stream`. -/
  | nextFrame
  /-- `yield parse(frame)`. -/
  | yieldFrame (frame : Bytes)
  /-- `sleep(self._reconnect.delay(attempt))`. -/
  | pause (attempt : ℕ)
  deriving DecidableEq

@[reducible] def CallOp.Answer : CallOp → Type
  | .send => Except Exc Bytes
  | .requestInFlight => Bool
  | .backoff _ | .reconnect | .openStream | .pause _ => Except Exc Unit
  | .stop => Except Exc Bool
  | .nextFrame => Except Exc (Option Bytes)
  | .yieldFrame _ => Except Exc Resume

@[reducible] def CallIO : Interface where
  Op := CallOp
  Ans := CallOp.Answer

/-! ## Carrying the calls out -/

/-- What the calls of a loop mean: the command and how it is sent, and for a stream how its frames
are parsed and whether it is polled. -/
structure Caller where
  policy : ReconnectPolicy
  command : Command
  deadline : Deadline := Deadline.unlimited
  send : Command → Deadline → ConnM Bytes
  parse : Bytes → Except Exc StreamEvent
  polled : Bool := false

namespace Transport

variable (t : Transport)

def pause (policy : ReconnectPolicy) (attempt : ℕ) : ConnM Unit := do
  t.sleep (← policy.delay attempt)

def yieldFrame (parse : Bytes → Except Exc StreamEvent) (frame : Bytes) : ConnM Resume := do
  let event ← Method.ofExcept (parse frame)
  perform (.yieldEvent event)

/-- A call on the connection. -/
def carryOut (x : Caller) : (op : CallOp) → Connection → Prog Net (op.Answer × Connection)
  | .send => x.send x.command x.deadline
  | .requestInFlight => fun c => .pure (c.requestInFlight, c)
  | .backoff attempt => t.backoff x.policy attempt x.deadline
  | .reconnect => t.reconnect
  | .stop => stopped x.polled
  | .openStream => t.openStream x.command
  | .nextFrame => t.nextFrame (if x.polled then some streamPollInterval else none)
  | .yieldFrame frame => yieldFrame x.parse frame
  | .pause attempt => t.pause x.policy attempt

end Transport

/-! ## The loops -/

namespace Calls

variable {α : Type}

/-- One call, and its outcome. -/
abbrev call (op : CallOp) : Prog CallIO op.Answer := Prog.perform (I := CallIO) op

/-- The end of a round of `_with_retry` that lost its connection. -/
def retryFailed (policy : ReconnectPolicy) (readOnly : Bool) (fault : ConnectionFault) (attempt : ℕ)
    (again : Prog CallIO (Except Exc Bytes)) : Prog CallIO (Except Exc Bytes) := do
  if (← call .requestInFlight) ∧ ¬ readOnly then return .error (.connectionError fault)
  else if policy.exhausted (attempt + 1) then return .error (.connectionError fault)
  else
    match ← call (.backoff (attempt + 1)) with
    | .error e => return .error e
    | .ok _ =>
      match ← call .reconnect with
      | .ok _ => again
      | .error (.connectionError _) => again
      | .error e => return .error e

/-- The loop of `_with_retry`. -/
def withRetry (policy : ReconnectPolicy) (readOnly : Bool) :
    (rounds : ℕ) → (attempt : ℕ) → Prog CallIO (Except Exc Bytes)
  | 0, _ => .halt
  | rounds + 1, attempt => do
    match ← call .send with
    | .ok response => return .ok response
    | .error (.connectionError fault) =>
      retryFailed policy readOnly fault attempt (withRetry policy readOnly rounds (attempt + 1))
    | .error e => return .error e

/-- `except FQConnectionError` in the loop of a stream. -/
def streamFailed (policy : ReconnectPolicy) (e : Exc) (attempt : ℕ)
    (again : Prog CallIO (Except Exc Unit)) : Prog CallIO (Except Exc Unit) :=
  if ¬ e.isConnectionError then return .error e
  else if policy.exhausted (attempt + 1) then return .error e
  else do
    match ← call (.pause (attempt + 1)) with
    | .error e => return .error e
    | .ok _ =>
      match ← call .reconnect with
      | .ok _ => again
      | .error e => if e.isConnectionError then again else return .error e

/-- The loop of a stream. -/
def streamLoop (policy : ReconnectPolicy) :
    (rounds : ℕ) → Transport.StreamPhase → (attempt : ℕ) → Prog CallIO (Except Exc Unit)
  | 0, _, _ => .halt
  | rounds + 1, .opening, attempt => do
    match ← call .stop with
    | .error e => return .error e
    | .ok true => return .ok ()
    | .ok false =>
      match ← call .openStream with
      | .ok _ => streamLoop policy rounds .reading attempt
      | .error e => streamFailed policy e attempt (streamLoop policy rounds .opening (attempt + 1))
  | rounds + 1, .reading, attempt => do
    match ← call .nextFrame with
    | .ok (some frame) =>
      match ← call (.yieldFrame frame) with
      | .ok .next => streamLoop policy rounds .reading 0
      | .ok .close => return .error .generatorExit
      | .error e => return .error e
    | .ok none =>
      match ← call .stop with
      | .error e => return .error e
      | .ok true => return .ok ()
      | .ok false => streamLoop policy rounds .reading attempt
    | .error e => streamFailed policy e attempt (streamLoop policy rounds .opening (attempt + 1))

end Calls

/-! ## The loops of the clients are these -/

section Refines
variable {I : Interface} {κ ε α β : Type}

theorem attempt_bind_apply (m : Method I κ ε β) (f : Except ε β → Method I κ ε α) (c : κ) :
    (Method.attempt m >>= f) c = m c >>= fun rc => f rc.1 rc.2 := by
  change (m c >>= fun rc => Prog.pure (Except.ok rc.1, rc.2)) >>= _ = _
  rw [Prog.bind_assoc']
  rfl

theorem method_bind_apply (m : Method I κ ε β) (f : β → Method I κ ε α) (c : κ) :
    (m >>= f) c = m c >>= fun rc => match rc.1 with
      | .ok b => f b rc.2
      | .error e => .pure (.error e, rc.2) := by
  change m c >>= _ = _
  refine congrArg _ ?_
  funext ⟨r, c'⟩
  cases r <;> rfl

variable {t : Transport} {x : Caller}

theorem retryFailed_handled {fault : ConnectionFault} {attempt : ℕ} {again : ConnM Bytes}
    {calls : Prog CallIO (Except Exc Bytes)} (hagain : ∀ c, again c = calls.handled (t.carryOut x) c)
    (c : Connection) : t.retryFailed x.policy x.command x.deadline fault attempt again c =
      (Calls.retryFailed x.policy x.command.readOnly fault attempt calls).handled (t.carryOut x) c := by
  change (if c.requestInFlight = true ∧ ¬ x.command.readOnly = true then _ else _ : ConnM Bytes) c =
    Prog.handled _ (if c.requestInFlight = true ∧ ¬ x.command.readOnly = true then _ else _) c
  split
  · rfl
  · split
    · rfl
    · rw [method_bind_apply]
      change _ = t.backoff x.policy (attempt + 1) x.deadline c >>= _
      refine congrArg _ ?_
      funext ⟨r, c'⟩
      cases r with
      | error e => rfl
      | ok _ =>
        change (Method.attempt t.reconnect >>= _) c' = t.reconnect c' >>= _
        rw [attempt_bind_apply]
        refine congrArg _ ?_
        funext ⟨r, c''⟩
        cases r with
        | ok _ => exact hagain c''
        | error e =>
          cases e with
          | connectionError _ => exact hagain c''
          | _ => rfl

theorem withRetry_handled (rounds attempt : ℕ) (c : Connection) :
    t.withRetry x.policy x.command x.deadline x.send rounds attempt c =
      (Calls.withRetry x.policy x.command.readOnly rounds attempt).handled (t.carryOut x) c := by
  induction rounds generalizing attempt c with
  | zero => rfl
  | succ rounds ih =>
    unfold Transport.withRetry
    rw [attempt_bind_apply]
    change _ = x.send x.command x.deadline c >>= _
    refine congrArg _ ?_
    funext ⟨r, c'⟩
    cases r with
    | ok response => rfl
    | error e =>
      cases e with
      | connectionError fault => exact retryFailed_handled (ih (attempt + 1)) c'
      | _ => rfl

theorem streamFailed_handled {e : Exc} {attempt : ℕ} {again : ConnM Unit}
    {calls : Prog CallIO (Except Exc Unit)} (hagain : ∀ c, again c = calls.handled (t.carryOut x) c)
    (c : Connection) : t.streamFailed x.policy e attempt again c =
      (Calls.streamFailed x.policy e attempt calls).handled (t.carryOut x) c := by
  unfold Transport.streamFailed Calls.streamFailed
  split
  · rfl
  · split
    · rfl
    · rw [← bind_assoc, method_bind_apply]
      change _ = t.pause x.policy (attempt + 1) c >>= _
      refine congrArg _ ?_
      funext ⟨r, c'⟩
      cases r with
      | error e => rfl
      | ok _ =>
        change (Method.attempt t.reconnect >>= _) c' = t.reconnect c' >>= _
        rw [attempt_bind_apply]
        refine congrArg _ ?_
        funext ⟨r, c''⟩
        cases r with
        | ok _ => exact hagain c''
        | error e =>
          change (if e.isConnectionError = true then again else throw e : ConnM Unit) c'' =
            Prog.handled (t.carryOut x) (if e.isConnectionError = true then calls else
              .pure (.error e)) c''
          split
          · exact hagain c''
          · rfl

/-- Asking `should_stop` and going on unless it says so. -/
theorem stopped_handled {polled : Bool} {next : ConnM Unit} {calls : Prog CallIO (Except Exc Unit)}
    (hnext : ∀ c, next c = calls.handled (t.carryOut x) c) (hpolled : x.polled = polled)
    (c : Connection) :
    (do if ← Transport.stopped polled then return () else next : ConnM Unit) c =
      Prog.handled (t.carryOut x) (do
        match ← Calls.call .stop with
        | .error e => return .error e
        | .ok true => return .ok ()
        | .ok false => calls) c := by
  rw [method_bind_apply, ← hpolled]
  change _ = Transport.stopped x.polled c >>= _
  refine congrArg _ ?_
  funext ⟨r, c'⟩
  match r with
  | .error e => rfl
  | .ok true => rfl
  | .ok false => exact hnext c'

theorem streamLoop_handled (rounds : ℕ) (phase : Transport.StreamPhase) (attempt : ℕ) (c : Connection) :
    t.streamLoop x.policy x.command x.parse x.polled rounds phase attempt c =
      (Calls.streamLoop x.policy rounds phase attempt).handled (t.carryOut x) c := by
  induction rounds generalizing phase attempt c with
  | zero => cases phase <;> rfl
  | succ rounds ih =>
    cases phase with
    | opening =>
      apply stopped_handled
      · intro c
        rw [attempt_bind_apply]
        change _ = t.openStream x.command c >>= _
        refine congrArg _ ?_
        funext ⟨r, c'⟩
        cases r with
        | ok _ => exact ih .reading attempt c'
        | error e => exact streamFailed_handled (ih .opening (attempt + 1)) c'
      · rfl
    | reading =>
      unfold Transport.streamLoop
      rw [attempt_bind_apply]
      change _ = t.nextFrame (if x.polled then some streamPollInterval else none) c >>= _
      refine congrArg _ ?_
      funext ⟨r, c'⟩
      match r with
      | .ok (some frame) =>
        change (Method.ofExcept (x.parse frame) >>= _ : ConnM Unit) c' =
          Transport.yieldFrame x.parse frame c' >>= _
        unfold Transport.yieldFrame
        cases x.parse frame with
        | error e => rfl
        | ok event =>
          refine congrArg (Prog.call _) (funext fun answer => ?_)
          cases answer with
          | next => exact ih .reading 0 c'
          | close => rfl
      | .ok none => exact stopped_handled (ih .reading attempt) rfl c'
      | .error e => exact streamFailed_handled (ih .opening (attempt + 1)) c'

end Refines

end FqClient
