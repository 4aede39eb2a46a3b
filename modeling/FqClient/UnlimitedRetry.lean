import FqClient.Effects.Runs
import FqClient.Packages
import Mathlib.Tactic.NormNum
import Mathlib.Tactic.Positivity

namespace FqClient

open Effects

/-! ## The delay of the default policy -/

/-- `ReconnectPolicy()`. -/
abbrev defaultPolicy : ReconnectPolicy := {}

theorem floatPow_two (n : ℕ) :
    floatPow 2 n = if n < 1024 then .ok (2 ^ n) else .error (.overflowError .delay) := by
  have hle : (2 ^ 1024 : ℚ) ≤ 2 ^ n ↔ 1024 ≤ n := pow_le_pow_iff_right₀ (by norm_num)
  have habs : |(2 : ℚ) ^ n| = 2 ^ n := abs_of_pos (by positivity)
  unfold floatPow
  rw [habs]
  by_cases h : n < 1024
  · rw [if_pos h, if_neg (by rw [hle]; omega)]
  · rw [if_neg h, if_pos (by rw [hle]; omega)]

/-- The bound of the delay, once the power is a float. -/
def defaultCeiling (attempt : ℕ) : ℚ := min 2 (5 / 100 * 2 ^ (attempt - 1))

theorem ceiling_default {attempt : ℕ} (h : attempt ≤ 1024) :
    defaultPolicy.ceiling attempt = .ok (defaultCeiling attempt) := by
  unfold ReconnectPolicy.ceiling
  rw [floatPow_two, if_pos (by omega)]
  rfl

theorem ceiling_overflow {attempt : ℕ} (h : 1024 < attempt) :
    defaultPolicy.ceiling attempt = .error (.overflowError .delay) := by
  unfold ReconnectPolicy.ceiling
  rw [floatPow_two, if_neg (by omega)]
  rfl

/-- Full jitter stays within the bound. -/
theorem jitter_within {attempt : ℕ} {rand : ℚ} (h0 : 0 ≤ rand) (h1 : rand < 1) :
    0 ≤ rand * defaultCeiling attempt ∧ rand * defaultCeiling attempt ≤ defaultPolicy.maxDelay := by
  have hpos : 0 ≤ defaultCeiling attempt := le_min (by norm_num) (by positivity)
  have hle : defaultCeiling attempt ≤ 2 := min_le_left _ _
  refine ⟨mul_nonneg h0 hpos, ?_⟩
  calc rand * defaultCeiling attempt ≤ 1 * defaultCeiling attempt :=
        mul_le_mul_of_nonneg_right h1.le hpos
    _ ≤ 2 := by rwa [one_mul]

theorem delay_default {attempt : ℕ} (h : attempt ≤ 1024) :
    defaultPolicy.delay attempt =
      (do let rand ← perform .random; return rand * defaultCeiling attempt : ConnM ℚ) := by
  unfold ReconnectPolicy.delay
  rw [ceiling_default h]
  rfl

theorem delay_overflow {attempt : ℕ} (h : 1024 < attempt) :
    defaultPolicy.delay attempt = throw (.overflowError .delay) := by
  unfold ReconnectPolicy.delay
  rw [ceiling_overflow h]
  rfl

/-! ## The handlers of a lost connection -/

/-- Draws, sleeps for a delay within `[0, max_delay]` and goes on with `next`. -/
def GoesOn {α : Type} (sleep : ℚ → ConnM Unit) (handler next : ConnM α) (c : Connection) : Prop :=
  ∃ ceiling : ℚ,
    handler c = (do let rand ← perform .random; sleep (rand * ceiling); next : ConnM α) c ∧
    ∀ rand : ℚ, 0 ≤ rand → rand < 1 →
      0 ≤ rand * ceiling ∧ rand * ceiling ≤ defaultPolicy.maxDelay

theorem not_goesOn {α : Type} {sleep : ℚ → ConnM Unit} {handler next : ConnM α} {c : Connection}
    {e : Exc} (h : handler c = (throw e : ConnM α) c) : ¬ GoesOn sleep handler next c := by
  rintro ⟨ceiling, hgo, -⟩
  rw [h] at hgo
  cases hgo

variable {p : Package} {attempt : ℕ} {c : Connection}

theorem streamFailed_goes_on {e : Exc} {again : ConnM Unit} (he : e.isConnectionError = true)
    (h : attempt + 1 ≤ 1024) :
    p.transport.streamFailed defaultPolicy e attempt again =
      (do
        let rand ← perform .random
        p.transport.sleep (rand * defaultCeiling (attempt + 1))
        p.transport.streamReconnect again : ConnM Unit) := by
  unfold Transport.streamFailed
  rw [if_neg (by simp [he]), ReconnectPolicy.exhausted_none rfl, delay_default h]
  simp only [Bool.false_eq_true, if_false, bind_assoc, pure_bind]

theorem streamFailed_overflow {e : Exc} {again : ConnM Unit} (he : e.isConnectionError = true)
    (h : 1024 < attempt + 1) :
    p.transport.streamFailed defaultPolicy e attempt again = throw (.overflowError .delay) := by
  unfold Transport.streamFailed
  rw [if_neg (by simp [he]), ReconnectPolicy.exhausted_none rfl, delay_overflow h]
  rfl

/-- `if delay > 0: sleep(delay)`. -/
def Transport.sleepPositive (t : Transport) (delay : ℚ) : ConnM Unit :=
  if 0 < delay then t.sleep delay else return ()

/-- Without a deadline the checks and the clamp of a backoff do nothing. -/
theorem backoff_unlimited (policy : ReconnectPolicy) (attempt : ℕ) :
    p.transport.backoff policy attempt Deadline.unlimited =
      policy.delay attempt >>= p.transport.sleepPositive := by
  have hcheck : (Deadline.unlimited.check : ConnM Unit) = pure () := rfl
  have hclamp : ∀ delay, (Deadline.unlimited.clamp delay : ConnM ℚ) = pure delay := fun _ => rfl
  unfold Transport.backoff
  simp only [hcheck, hclamp, pure_bind]
  refine congrArg _ (funext fun delay => ?_)
  unfold Transport.sleepPositive
  split <;> simp

/-- What the retry of a request does with a failure it may retry. -/
theorem retryFailed_retries {command : Command} {fault : ConnectionFault} {again : ConnM Bytes}
    (hretry : c.requestInFlight = true → command.readOnly = true) :
    p.transport.retryFailed defaultPolicy command Deadline.unlimited fault attempt again c =
      (defaultPolicy.delay (attempt + 1) >>= fun delay =>
        p.transport.sleepPositive delay >>= fun _ => p.transport.retryReconnect again) c := by
  have hno : ¬ (c.requestInFlight = true ∧ ¬ command.readOnly = true) :=
    fun h => h.2 (hretry h.1)
  change (if c.requestInFlight = true ∧ ¬ command.readOnly = true then _ else _ : ConnM Bytes) c = _
  rw [if_neg hno, ReconnectPolicy.exhausted_none rfl, backoff_unlimited]
  simp only [Bool.false_eq_true, if_false, bind_assoc]

theorem retryFailed_goes_on {command : Command} {fault : ConnectionFault} {again : ConnM Bytes}
    (hretry : c.requestInFlight = true → command.readOnly = true) (h : attempt + 1 ≤ 1024) :
    p.transport.retryFailed defaultPolicy command Deadline.unlimited fault attempt again c =
      (do
        let rand ← perform .random
        p.transport.sleepPositive (rand * defaultCeiling (attempt + 1))
        p.transport.retryReconnect again : ConnM Bytes) c := by
  rw [retryFailed_retries hretry, delay_default h]
  simp only [bind_assoc, pure_bind]

theorem retryFailed_overflow {command : Command} {fault : ConnectionFault} {again : ConnM Bytes}
    (hretry : c.requestInFlight = true → command.readOnly = true) (h : 1024 < attempt + 1) :
    p.transport.retryFailed defaultPolicy command Deadline.unlimited fault attempt again c =
      (throw (.overflowError .delay) : ConnM Bytes) c := by
  rw [retryFailed_retries hretry, delay_overflow h]
  rfl

/-- What unlimited reconnection asks of a failure that follows `attempt` others in a row: the loop
of a stream, and that of a request without a deadline, go on to reconnect. -/
def Outlasts (p : Package) (attempt : ℕ) : Prop :=
  (∀ (e : Exc) (again : ConnM Unit) (c : Connection), e.isConnectionError = true →
    GoesOn p.transport.sleep (p.transport.streamFailed defaultPolicy e attempt again)
      (p.transport.streamReconnect again) c) ∧
  ∀ (command : Command) (fault : ConnectionFault) (again : ConnM Bytes) (c : Connection),
    (c.requestInFlight = true → command.readOnly = true) →
    GoesOn p.transport.sleepPositive
      (p.transport.retryFailed defaultPolicy command Deadline.unlimited fault attempt again)
      (p.transport.retryReconnect again) c

theorem outlasts_iff (p : Package) (attempt : ℕ) : Outlasts p attempt ↔ attempt + 1 ≤ 1024 := by
  constructor
  · intro h
    by_contra hgt
    have hthrow : p.transport.streamFailed defaultPolicy (.connectionError .closed) attempt
        (return ()) = throw (.overflowError .delay) := streamFailed_overflow rfl (by omega)
    exact not_goesOn (congrFun hthrow (Connection.new ⟨[], none, false, none, 5⟩))
      (h.1 _ _ _ rfl)
  · intro h
    refine ⟨?_, ?_⟩
    · intro e again c he
      exact ⟨_, congrFun (streamFailed_goes_on he h) c, fun _ => jitter_within⟩
    · intro command fault again c hretry
      exact ⟨_, retryFailed_goes_on hretry h, fun _ => jitter_within⟩

/-! ## Whole runs -/

/-- Any answers, but `random()` lies in `[0, 1)`; the state is the list of events so far. -/
def unitDraws : World Net (List (Event Net)) where
  permits _ _ := True
  step log op answer log' := log' = log ++ [⟨op, answer⟩] ∧
    ∀ rand : ℚ, (⟨op, answer⟩ : Event Net) = ⟨.random, rand⟩ → 0 ≤ rand ∧ rand < 1

/-- The draws of delays since the last event of a stream. -/
def drawsSinceEvent (log : List (Event Net)) : ℕ :=
  log.foldl (fun draws event =>
    match event.1 with
    | .random => draws + 1
    | .yieldEvent _ => 0
    | _ => draws) 0

/-- An operation that neither draws, sleeps nor yields. -/
def NetOp.NotRetry : NetOp → Prop
  | .random | .sleep _ | .asyncSleep _ | .yieldEvent _ => False
  | _ => True

theorem NetOp.Plain.notRetry (op : NetOp) (h : op.Plain) : op.NotRetry := by
  cases op <;> first | exact h | trivial

/-- The draws allowed are the first 1024 after an event, and the sleeps those within
`[0, max_delay]`. -/
def boundedDraws : World Net (List (Event Net)) where
  permits log op := (op = .random → drawsSinceEvent log < 1024) ∧
    ∀ delay, op.SleepsFor delay → 0 ≤ delay ∧ delay ≤ defaultPolicy.maxDelay
  step := unitDraws.step

theorem drawsSinceEvent_concat (log : List (Event Net)) (event : Event Net) :
    drawsSinceEvent (log ++ [event]) =
      match event.1 with
      | .random => drawsSinceEvent log + 1
      | .yieldEvent _ => 0
      | _ => drawsSinceEvent log := List.foldl_append

theorem drawsSinceEvent_of_notRetry {op : NetOp} (h : op.NotRetry) (answer : op.Answer)
    (log : List (Event Net)) : drawsSinceEvent (log ++ [⟨op, answer⟩]) = drawsSinceEvent log := by
  rw [drawsSinceEvent_concat]
  cases op <;> first | rfl | exact h.elim

theorem drawsSinceEvent_of_sleepsFor {op : NetOp} {delay : ℚ} (h : op.SleepsFor delay)
    (answer : op.Answer) (log : List (Event Net)) :
    drawsSinceEvent (log ++ [⟨op, answer⟩]) = drawsSinceEvent log := by
  rw [drawsSinceEvent_concat]
  rcases h with rfl | rfl <;> rfl

theorem not_sleepsFor_of_notRetry {op : NetOp} (h : op.NotRetry) (delay : ℚ) :
    ¬ op.SleepsFor delay := by
  rintro (rfl | rfl) <;> exact h

/-- What neither draws, sleeps nor yields keeps the count. -/
theorem bounded_of_only {κ α : Type} {m : Method Net κ Exc α}
    (hm : m.Only NetOp.NotRetry Exc.NotDelay) (c : κ) (log : List (Event Net)) :
    wpm boundedDraws m
      (fun r _ log' => Raises Exc.NotDelay r ∧ drawsSinceEvent log' = drawsSinceEvent log)
      c log := by
  refine wpm_of_anything (Q := fun r _ => Raises Exc.NotDelay r)
    (J := fun log' => drawsSinceEvent log' = drawsSinceEvent log) ?_ ?_ (hm c) rfl
  · intro log' op h _
    refine ⟨fun he => ?_, fun delay hs => absurd hs (not_sleepsFor_of_notRetry h delay)⟩
    rw [he] at h
    exact h.elim
  · intro log' op answer log'' h hlog' hstep
    rw [hstep.1, drawsSinceEvent_of_notRetry h]
    exact hlog'

theorem bounded_of_quiet {κ α : Type} {m : Method Net κ Exc α} (hm : Quiet m) (c : κ)
    (log : List (Event Net)) :
    wpm boundedDraws m
      (fun r _ log' => Raises Exc.NotDelay r ∧ drawsSinceEvent log' = drawsSinceEvent log)
      c log := bounded_of_only (Package.only_of_quiet NetOp.Plain.notRetry hm) c log

/-- A sleep within the bound keeps the count. -/
theorem bounded_of_sleepsFor {m : ConnM Unit} {delay : ℚ}
    (hm : m.Leaves (NetOp.SleepsFor delay) Exc.OfSleep) (h0 : 0 ≤ delay)
    (hle : delay ≤ defaultPolicy.maxDelay) (c : Connection) (log : List (Event Net)) :
    wpm boundedDraws m
      (fun r _ log' => Raises Exc.NotDelay r ∧ drawsSinceEvent log' = drawsSinceEvent log)
      c log := by
  have hnotDelay : m.Leaves (NetOp.SleepsFor delay) Exc.NotDelay :=
    hm.mono (fun _ => id) fun _ => Exc.OfSleep.notDelay
  refine wpm_of_anything (Q := fun r _ => Raises Exc.NotDelay r)
    (J := fun log' => drawsSinceEvent log' = drawsSinceEvent log) ?_ ?_
    (Method.Only.of_leaves hnotDelay c) rfl
  · intro log' op h _
    refine ⟨fun he => ?_, fun delay' hs => ?_⟩
    · rw [he] at h
      rcases h with h | h <;> cases h
    · have hdelay : delay' = delay := by
        rcases h with rfl | rfl <;> rcases hs with hs | hs <;> cases hs <;> rfl
      rw [hdelay]
      exact ⟨h0, hle⟩
  · intro log' op answer log'' h hlog' hstep
    rw [hstep.1, drawsSinceEvent_of_sleepsFor h]
    exact hlog'

/-- How a run without deadlines ends: an `OverflowError` of a delay comes after 1024 draws. -/
def OverflowsLate {κ α : Type} (r : Except Exc α) (_ : κ) (log : List (Event Net)) : Prop :=
  r = .error (.overflowError .delay) → drawsSinceEvent log = 1024

theorem overflowsLate_of_notDelay {κ α : Type} {e : Exc} (h : e.NotDelay) (k : κ)
    (log : List (Event Net)) : OverflowsLate (.error e : Except Exc α) k log := by
  intro he
  cases he
  exact h.elim

/-- A method that only raises such errors ends so too. -/
theorem overflowsLate_of_only {κ α : Type} {m : Method Net κ Exc α}
    (hm : m.Only NetOp.NotRetry Exc.NotDelay) (c : κ) (log : List (Event Net)) :
    wpm boundedDraws m OverflowsLate c log := by
  refine wpm_mono (bounded_of_only hm c log) ?_
  intro r c' log' h he
  exact (h.1 _ he).elim

/-- What may come before: it keeps the count, and its errors do not count. -/
theorem overflowsLate_bind {κ α β : Type} {m : Method Net κ Exc β} {f : β → Method Net κ Exc α}
    {c : κ} {log : List (Event Net)}
    (hm : wpm boundedDraws m
      (fun r _ log' => Raises Exc.NotDelay r ∧ drawsSinceEvent log' = drawsSinceEvent log) c log)
    (hf : ∀ b c' log', drawsSinceEvent log' = drawsSinceEvent log →
      wpm boundedDraws (f b) OverflowsLate c' log') :
    wpm boundedDraws (m >>= f) OverflowsLate c log := by
  rw [wpm_bind]
  refine wpm_mono hm ?_
  intro r c' log' h
  cases r with
  | error e => exact overflowsLate_of_notDelay (h.1 e rfl) c' log'
  | ok b => exact hf b c' log' h.2

/-- One draw and one sleep within the bound, and then the rest. -/
theorem bounded_goesOn {α : Type} {sleep : ℚ → ConnM Unit} {handler next : ConnM α}
    {c : Connection} {log : List (Event Net)} (hgo : GoesOn sleep handler next c)
    (hsleep : ∀ delay, 0 ≤ delay → delay ≤ defaultPolicy.maxDelay → ∀ c log,
      wpm boundedDraws (sleep delay)
        (fun r _ log' => Raises Exc.NotDelay r ∧ drawsSinceEvent log' = drawsSinceEvent log) c log)
    (hlog : drawsSinceEvent log < 1024)
    (hnext : ∀ c' log', drawsSinceEvent log' = drawsSinceEvent log + 1 →
      wpm boundedDraws next OverflowsLate c' log') :
    wpm boundedDraws handler OverflowsLate c log := by
  obtain ⟨ceiling, heq, hwithin⟩ := hgo
  unfold wpm
  rw [heq]
  refine ⟨⟨fun _ => hlog, ?_⟩, ?_⟩
  · rintro delay (h | h) <;> cases h
  · intro rand log' hstep
    have hrand : 0 ≤ rand ∧ rand < 1 := hstep.2 rand rfl
    have hcount : drawsSinceEvent log' = drawsSinceEvent log + 1 := by
      rw [hstep.1, drawsSinceEvent_concat]
    obtain ⟨h0, hle⟩ := hwithin rand hrand.1 hrand.2
    refine overflowsLate_bind (hsleep _ h0 hle c log') fun _ c' log'' hlog'' => ?_
    exact hnext c' log'' (hlog''.trans hcount)

theorem only_reconnect (p : Package) : p.transport.reconnect.Only NetOp.NotRetry Exc.NotDelay := by
  refine .bind (Package.only_closeConnection NetOp.Plain.notRetry) fun _ => ?_
  exact p.only_connect NetOp.Plain.notRetry fun _ _ _ _ _ _ => ⟨trivial, trivial⟩

theorem only_writeRequest (p : Package) (command : Command) (d : Deadline) :
    (p.transport.writeRequest command d).Only NetOp.NotRetry Exc.NotDelay :=
  p.only_writeRequest NetOp.Plain.notRetry d fun _ _ _ => ⟨trivial, trivial⟩

section Stream
variable {again : ConnM Unit} {log : List (Event Net)}

theorem bounded_streamReconnect
    (hagain : ∀ c' log', drawsSinceEvent log' = drawsSinceEvent log →
      wpm boundedDraws again OverflowsLate c' log') :
    wpm boundedDraws (p.transport.streamReconnect again) OverflowsLate c log := by
  unfold Transport.streamReconnect
  rw [wpm_bind, wpm_attempt]
  refine wpm_mono (bounded_of_only (only_reconnect p) c log) ?_
  intro r c' log' h
  cases r with
  | ok => exact hagain c' log' h.2
  | error e =>
    by_cases he : e.isConnectionError = true
    · dsimp only
      rw [if_pos he]
      exact hagain c' log' h.2
    · dsimp only
      rw [if_neg he]
      exact overflowsLate_of_notDelay (h.1 e rfl) c' log'

/-- A failure of a stream after `attempt` others in a row. -/
theorem bounded_streamFailed {e : Exc} (he : e.NotDelay) (hlog : drawsSinceEvent log = attempt)
    (hle : attempt ≤ 1024)
    (hagain : ∀ c' log', drawsSinceEvent log' = attempt + 1 → attempt + 1 ≤ 1024 →
      wpm boundedDraws again OverflowsLate c' log') :
    wpm boundedDraws (p.transport.streamFailed defaultPolicy e attempt again) OverflowsLate c
      log := by
  by_cases hlost : e.isConnectionError = true
  · by_cases h : attempt + 1 ≤ 1024
    · refine bounded_goesOn (((outlasts_iff p attempt).mpr h).1 e again c hlost) ?_ (by omega) ?_
      · exact fun delay h0 h1 => bounded_of_sleepsFor (p.sleep_sleepsFor delay) h0 h1
      · intro c' log' hlog'
        refine bounded_streamReconnect fun c'' log'' hlog'' => hagain c'' log'' ?_ h
        omega
    · rw [streamFailed_overflow hlost (by omega)]
      intro _
      omega
  · unfold Transport.streamFailed
    rw [if_pos (by simpa using hlost)]
    exact overflowsLate_of_notDelay he c log

theorem bounded_stopped (polled : Bool) (c : Connection) (log : List (Event Net)) :
    wpm boundedDraws (Transport.stopped polled)
      (fun r _ log' => Raises Exc.NotDelay r ∧ drawsSinceEvent log' = drawsSinceEvent log)
      c log :=
  bounded_of_quiet (.ite (quiet_perform (by exact trivial)) (.pure _)) c log

theorem only_nextFrame (p : Package) (pollInterval : Option ℚ) :
    (p.transport.nextFrame pollInterval).Only NetOp.NotRetry Exc.NotDelay := by
  have hquiet : ∀ {α : Type} {m : ConnM α}, Quiet m → m.Only NetOp.NotRetry Exc.NotDelay :=
    Package.only_of_quiet NetOp.Plain.notRetry
  cases pollInterval with
  | none => exact .bind (hquiet (p.quiet_readFrame _)) fun _ => .pure _
  | some pollInterval =>
    refine .bind (hquiet (quiet_start _)) fun d => ?_
    refine .bind_attempt (hquiet (p.quiet_readFrame d)) fun r hr => ?_
    cases r with
    | ok frame => exact .pure _
    | error e =>
      cases e with
      | timeoutError => exact .pure _
      | _ => exact .throw (hr _ rfl)

theorem bounded_streamLoop {parse : Bytes → Except Exc StreamEvent}
    (hparse : ∀ frame, Raises Exc.NotDelay (parse frame)) (p : Package) (command : Command)
    (polled : Bool) (rounds : ℕ) (phase : Transport.StreamPhase) {attempt : ℕ}
    (hle : attempt ≤ 1024) (c : Connection) {log : List (Event Net)}
    (hlog : drawsSinceEvent log = attempt) :
    wpm boundedDraws (p.transport.streamLoop defaultPolicy command parse polled rounds phase attempt)
      OverflowsLate c log := by
  induction rounds generalizing phase attempt c log with
  | zero => cases phase <;> trivial
  | succ rounds ih =>
    -- the loop invariant: the attempts counted are the draws since the last event
    have hfailed : ∀ e : Exc, e.NotDelay → ∀ c' log', drawsSinceEvent log' = attempt →
        wpm boundedDraws (p.transport.streamFailed defaultPolicy e attempt
          (p.transport.streamLoop defaultPolicy command parse polled rounds .opening (attempt + 1)))
          OverflowsLate c' log' := by
      intro e he c' log' hlog'
      exact bounded_streamFailed he hlog' hle fun c'' log'' h h' => ih .opening h' c'' h
    cases phase with
    | opening =>
      unfold Transport.streamLoop
      refine overflowsLate_bind (bounded_stopped polled c log) fun stop c₁ log₁ hlog₁ => ?_
      cases stop with
      | true => exact overflowsLate_of_only (.pure _) _ _
      | false =>
        rw [if_neg Bool.false_ne_true, wpm_bind, wpm_attempt]
        refine wpm_mono (bounded_of_only (only_writeRequest p command _) c₁ log₁) ?_
        intro r c₂ log₂ h
        have hlog₂ : drawsSinceEvent log₂ = attempt := by omega
        cases r with
        | ok => exact ih .reading hle c₂ hlog₂
        | error e => exact hfailed e (h.1 e rfl) c₂ log₂ hlog₂
    | reading =>
      unfold Transport.streamLoop
      rw [wpm_bind, wpm_attempt]
      refine wpm_mono (bounded_of_only (only_nextFrame p _) c log) ?_
      intro r c₁ log₁ h
      have hlog₁ : drawsSinceEvent log₁ = attempt := by omega
      cases r with
      | error e => exact hfailed e (h.1 e rfl) c₁ log₁ hlog₁
      | ok frame =>
        cases frame with
        | none =>
          refine overflowsLate_bind (bounded_stopped polled c₁ log₁) fun stop c₂ log₂ hlog₂ => ?_
          cases stop with
          | true => exact overflowsLate_of_only (.pure _) _ _
          | false => exact ih .reading hle c₂ (hlog₂.trans hlog₁)
        | some frame =>
          refine overflowsLate_bind (bounded_of_only (.ofExcept (hparse frame)) c₁ log₁)
            fun event c₂ log₂ _ => ?_
          rw [wpm_bind, wpm_perform_op]
          refine ⟨⟨?_, ?_⟩, ?_⟩
          · exact fun h => by cases h
          · rintro delay (h | h) <;> cases h
          · intro resume log₃ hstep
            -- an event starts the count again
            have hlog₃ : drawsSinceEvent log₃ = 0 := by rw [hstep.1, drawsSinceEvent_concat]
            cases resume with
            | next => exact ih .reading (Nat.zero_le _) c₂ hlog₃
            | close => exact overflowsLate_of_notDelay (e := .generatorExit) trivial c₂ log₃

end Stream

/-! ## Streams and requests -/

theorem raises_parseLimitEvent (payload : Bytes) :
    Raises Exc.Computed (parseLimitEvent payload) := by
  refine (raises_okData payload).bind fun data => (raises_fields data 4).bind fun parts => ?_
  refine (raises_parseUint _).bind fun _ => (raises_parseUint _).bind fun _ => ?_
  exact (raises_parseUint _).bind fun _ => raises_ok _

theorem raises_parseQuotaEvent (payload : Bytes) :
    Raises Exc.Computed (parseQuotaEvent payload) := by
  refine (raises_okData payload).bind fun data => (raises_fields data 7).bind fun parts => ?_
  refine (raises_parseUint _).bind fun _ => (raises_parseUint _).bind fun _ => ?_
  exact (raises_parseUint _).bind fun _ => (raises_parseUint _).bind fun _ => raises_ok _

theorem Subscription.raises_parse (subscription : Subscription) (payload : Bytes) :
    Raises Exc.Computed (subscription.parse payload) := by
  cases subscription with
  | stream | pstream => exact (raises_parseLimitEvent payload).bind fun _ => raises_ok _
  | qstream | qpstream => exact (raises_parseQuotaEvent payload).bind fun _ => raises_ok _

theorem Subscription.raises_command (subscription : Subscription) :
    Raises Exc.Computed subscription.command := by
  cases subscription <;> exact (raises_join _).bind fun _ => raises_ok _

theorem bounded_withConnection {α : Type} (p : Package) (settings : Settings) (d : Deadline)
    {body : ConnM α} {log : List (Event Net)} (hlog : drawsSinceEvent log = 0)
    (hbody : ∀ c' log', drawsSinceEvent log' = 0 → wpm boundedDraws body OverflowsLate c' log') :
    wpm boundedDraws (p.transport.withConnection settings d body) OverflowsLate () log := by
  have hconnect : p.transport.connect.Only NetOp.NotRetry Exc.NotDelay :=
    p.only_connect NetOp.Plain.notRetry fun _ _ _ _ _ _ => ⟨trivial, trivial⟩
  have hacquire : (p.transport.acquire settings d).Only NetOp.NotRetry Exc.NotDelay :=
    p.only_acquire NetOp.Plain.notRetry settings d hconnect
  refine overflowsLate_bind (bounded_of_only hacquire () log) fun connection _ log₁ hlog₁ => ?_
  rw [wpm_bind, wpm_on]
  refine wpm_mono (hbody connection log₁ (hlog₁.trans hlog)) ?_
  intro r connection' log₂ hr
  have hrelease : (Transport.release connection').Only NetOp.NotRetry Exc.NotDelay :=
    Package.only_release NetOp.Plain.notRetry connection'
  refine overflowsLate_bind (bounded_of_only hrelease () log₂) fun _ _ log₃ hlog₃ => ?_
  intro he
  exact hlog₃.trans (hr he)

theorem bounded_subscribe (p : Package) (config : ClientConfig)
    (hpolicy : config.reconnect = defaultPolicy) (rounds : ℕ) (subscription : Subscription)
    (polled : Bool) :
    wpm boundedDraws (p.transport.subscribe config rounds subscription polled) OverflowsLate () [] := by
  refine overflowsLate_bind (bounded_of_only
    (.ofExcept (notDelay_of_computed subscription.raises_command)) () [])
    fun command _ log hlog => ?_
  refine overflowsLate_bind (bounded_of_quiet (quiet_start _) () log) fun d _ log₁ hlog₁ => ?_
  refine bounded_withConnection p _ d (hlog₁.trans hlog) fun c' log' hlog' => ?_
  rw [hpolicy]
  exact bounded_streamLoop (fun frame => notDelay_of_computed (subscription.raises_parse frame))
    p command polled rounds .opening
    (Nat.zero_le _) c' hlog'

theorem only_send (p : Package) (command : Command) (d : Deadline) :
    (p.transport.send command d).Only NetOp.NotRetry Exc.NotDelay := by
  refine .bind (only_writeRequest p command d) fun _ => ?_
  refine .bind (Package.only_of_quiet NetOp.Plain.notRetry (p.quiet_readFrame d)) fun _ => ?_
  exact .bind (.update _) fun _ => .pure _

theorem bounded_retryReconnect {again : ConnM Bytes} {log : List (Event Net)}
    (hagain : ∀ c' log', drawsSinceEvent log' = drawsSinceEvent log →
      wpm boundedDraws again OverflowsLate c' log') :
    wpm boundedDraws (p.transport.retryReconnect again) OverflowsLate c log := by
  unfold Transport.retryReconnect
  rw [wpm_bind, wpm_attempt]
  refine wpm_mono (bounded_of_only (only_reconnect p) c log) ?_
  intro r c' log' h
  cases r with
  | ok => exact hagain c' log' h.2
  | error e =>
    cases e with
    | connectionError fault => exact hagain c' log' h.2
    | _ => exact overflowsLate_of_notDelay (h.1 _ rfl) c' log'

theorem bounded_sleepPositive (p : Package) {delay : ℚ} (h0 : 0 ≤ delay)
    (hle : delay ≤ defaultPolicy.maxDelay) (c : Connection) (log : List (Event Net)) :
    wpm boundedDraws (p.transport.sleepPositive delay)
      (fun r _ log' => Raises Exc.NotDelay r ∧ drawsSinceEvent log' = drawsSinceEvent log)
      c log := by
  unfold Transport.sleepPositive
  split
  · exact bounded_of_sleepsFor (p.sleep_sleepsFor delay) h0 hle c log
  · exact bounded_of_quiet (.pure _) c log

/-- A failure of a request without a deadline, after `attempt` others. -/
theorem bounded_retryFailed {command : Command} {fault : ConnectionFault} {again : ConnM Bytes}
    {log : List (Event Net)} (hlog : drawsSinceEvent log = attempt) (hle : attempt ≤ 1024)
    (hagain : ∀ c' log', drawsSinceEvent log' = attempt + 1 → attempt + 1 ≤ 1024 →
      wpm boundedDraws again OverflowsLate c' log') :
    wpm boundedDraws
      (p.transport.retryFailed defaultPolicy command Deadline.unlimited fault attempt again)
      OverflowsLate c log := by
  by_cases hretry : c.requestInFlight = true → command.readOnly = true
  · by_cases h : attempt + 1 ≤ 1024
    · refine bounded_goesOn (((outlasts_iff p attempt).mpr h).2 command fault again c hretry) ?_
        (by omega) ?_
      · exact fun delay h0 h1 => bounded_sleepPositive p h0 h1
      · intro c' log' hlog'
        refine bounded_retryReconnect fun c'' log'' hlog'' => hagain c'' log'' ?_ h
        omega
    · unfold wpm
      rw [retryFailed_overflow hretry (by omega)]
      intro _
      omega
  · -- a command that may have reached the server is given up
    have hgive : c.requestInFlight = true ∧ ¬ command.readOnly = true := by simpa using hretry
    unfold Transport.retryFailed
    rw [wpm_bind, wpm_self]
    dsimp only
    rw [if_pos hgive]
    exact overflowsLate_of_notDelay (e := .connectionError fault) trivial c log

theorem bounded_withRetry (p : Package) (command : Command) (rounds : ℕ) {attempt : ℕ}
    (hle : attempt ≤ 1024) (c : Connection) {log : List (Event Net)}
    (hlog : drawsSinceEvent log = attempt) :
    wpm boundedDraws
      (p.transport.withRetry defaultPolicy command Deadline.unlimited p.transport.send rounds attempt)
      OverflowsLate c log := by
  induction rounds generalizing attempt c log with
  | zero => trivial
  | succ rounds ih =>
    unfold Transport.withRetry
    rw [wpm_bind, wpm_attempt]
    refine wpm_mono (bounded_of_only (only_send p command _) c log) ?_
    intro r c' log' h
    have hlog' : drawsSinceEvent log' = attempt := h.2.trans hlog
    cases r with
    | ok response => exact overflowsLate_of_only (.pure _) _ _
    | error e =>
      cases e with
      | connectionError fault =>
        exact bounded_retryFailed hlog' hle fun c'' log'' h1 h2 => ih h2 c'' h1
      | _ => exact overflowsLate_of_notDelay (h.1 _ rfl) c' log'

theorem bounded_request (p : Package) (config : ClientConfig)
    (hpolicy : config.reconnect = defaultPolicy) (rounds : ℕ) (command : Command) :
    wpm boundedDraws (p.transport.request config rounds command .unlimited) OverflowsLate () [] := by
  change wpm boundedDraws (p.transport.withConnection config.settings Deadline.unlimited _) _ _ _
  refine bounded_withConnection p _ _ rfl fun c' log' hlog' => ?_
  rw [hpolicy]
  exact bounded_withRetry p command rounds (Nat.zero_le _) c' hlog'

/-- In every run so far the sleeps lie within `[0, max_delay]` and no delay was drawn for a
failure after the 1024th in a row; if it was left through an `OverflowError` of a delay, all of
these had been drawn. -/
def RetriesWithin {α : Type} (program : Prog Net (Except Exc α × Unit)) (log : List (Event Net)) :
    Prop :=
  (∀ event ∈ log, ∀ delay, event.1.SleepsFor delay → 0 ≤ delay ∧ delay ≤ defaultPolicy.maxDelay) ∧
  drawsSinceEvent log ≤ 1024 ∧
  (program = .pure (.error (.overflowError .delay), ()) → drawsSinceEvent log = 1024)

theorem retriesWithin_of_bounded {α : Type} {m : ClientM α}
    (hm : wpm boundedDraws m OverflowsLate () []) {program : Prog Net (Except Exc α × Unit)}
    {log : List (Event Net)} (hrun : Reaches unitDraws (m (), []) (program, log)) :
    RetriesWithin program log := by
  have hrun' : Reaches boundedDraws (m (), []) (program, log) := by
    refine reaches_of_step ?_ hrun
    exact fun _ _ _ _ hs => hs
  have hinvariant : (∀ event ∈ log, ∀ delay, event.1.SleepsFor delay →
      0 ≤ delay ∧ delay ≤ defaultPolicy.maxDelay) ∧ drawsSinceEvent log ≤ 1024 := by
    refine reaches_invariant (fun log => (∀ event ∈ log, ∀ delay, event.1.SleepsFor delay →
      0 ≤ delay ∧ delay ≤ defaultPolicy.maxDelay) ∧ drawsSinceEvent log ≤ 1024) ?_ hm ?_ hrun'
    · intro log op answer log' h hpermits hstep
      rw [hstep.1, drawsSinceEvent_concat]
      refine ⟨fun event hmem delay hs => ?_, ?_⟩
      · rcases List.mem_append.mp hmem with hold | hnew
        · exact h.1 event hold delay hs
        · rw [List.mem_singleton.mp hnew] at hs
          exact hpermits.2 delay hs
      · by_cases hop : op = .random
        · have hlt := hpermits.1 hop
          subst hop
          exact hlt
        · have hle := h.2
          cases op <;> first | exact absurd rfl hop | exact hle | exact Nat.zero_le _
    · refine ⟨fun event hmem => ?_, Nat.zero_le _⟩
      cases hmem
  refine ⟨hinvariant.1, hinvariant.2, ?_⟩
  intro he
  subst he
  exact wp_result hm hrun' rfl

/-- Unlimited reconnection lasts for 1024 failures in a row: the delay after failure number
`attempt + 1` is computed, lies within `[0, max_delay]` and leads to a reconnect exactly as long as
that, and no run of a stream or of a request without a deadline is left through the arithmetic of
a delay before. -/
theorem reconnection_outlasts_iff (p : Package) (attempt : ℕ) :
    (Outlasts p attempt ↔ attempt + 1 ≤ 1024) ∧
    ∀ (config : ClientConfig) (rounds : ℕ), config.reconnect = defaultPolicy →
      (∀ (subscription : Subscription) (polled : Bool) program log,
        Reaches unitDraws (p.transport.subscribe config rounds subscription polled (), [])
          (program, log) → RetriesWithin program log) ∧
      ∀ (command : Command) program log,
        Reaches unitDraws (p.transport.request config rounds command .unlimited (), [])
          (program, log) → RetriesWithin program log := by
  refine ⟨outlasts_iff p attempt, fun config rounds hpolicy => ⟨?_, ?_⟩⟩
  · intro subscription polled program log hrun
    exact retriesWithin_of_bounded (bounded_subscribe p config hpolicy rounds subscription polled) hrun
  · intro command program log hrun
    exact retriesWithin_of_bounded (bounded_request p config hpolicy rounds command) hrun

/-! ## A server that stays down -/

/-- A pooled connection whose server has gone away. -/
def orphan (sock : Option SockId) : Connection :=
  { Connection.pooled with sock := sock }

/-- Every write and every connect fails. -/
def serverDown : Unit → (op : NetOp) → op.Answer × Unit
  | _, .getSlot _ => (some (some (orphan (some 3))), ())
  | _, .awaitSlot => (.ok (some (orphan (some 3))), ())
  | _, .sendall _ _ => (.error .other, ())
  | _, .writeDrain _ _ => (.error .other, ())
  | _, .createConnection _ _ _ => (.error .other, ())
  | _, .openConnection _ _ _ => (.error .other, ())
  | _, op => (op.calm, ())

/-- The same, with a list of what was done. -/
def serverDownNoted (log : List (Event Net)) (op : NetOp) : Option (op.Answer × List (Event Net)) :=
  some ((serverDown () op).1, log ++ [⟨op, (serverDown () op).1⟩])

theorem serverDown_draws (log : List (Event Net)) (op : NetOp) (answer : op.Answer)
    (log' : List (Event Net))
    (h : serverDownNoted log op = some (answer, log')) : unitDraws.step log op answer log' := by
  cases h
  refine ⟨rfl, fun rand hrand => ?_⟩
  cases op with
  | random =>
    cases hrand
    exact ⟨le_refl 0, zero_lt_one⟩
  | _ => cases hrand

/-- The last failure that a stream of the asyncio client outlasts; and a stream of it that has drawn a
delay for each of twenty failures. -/
theorem aio_stream_outlasts_failure_1024 :
    Outlasts .aio 1023 ∧ ∃ program log,
      Reaches unitDraws (Package.aio.transport.subscribe
        ⟨Connection.pooled.settings, some 5, {}⟩ 21 .stream
        false (), []) (program, log) ∧
      drawsSinceEvent log = 20 ∧ RetriesWithin program log := by
  have hdraws : ((Package.aio.transport.subscribe ⟨Connection.pooled.settings, some 5, {}⟩ 21 .stream
      false ()).advance serverDownNoted 86 []).any
        (fun d => drawsSinceEvent d.2 = 20) = true := by decide +kernel
  obtain ⟨⟨program, log⟩, hadvance, hlog⟩ := (Option.any_eq_true _ _).mp hdraws
  have hreaches := reaches_advance serverDown_draws hadvance
  have hwithin := ((reconnection_outlasts_iff .aio 1023).2 _ 21 rfl).1 .stream false
    program log hreaches
  exact ⟨(reconnection_outlasts_iff .aio 1023).1.mpr (by omega), program, log, hreaches,
    of_decide_eq_true hlog, hwithin⟩

/-- The stream that finds its server down. -/
def orphanLoop (rounds attempt : ℕ) : ConnM Unit :=
  Sync.transport.streamLoop defaultPolicy ⟨encodeUtf8 "STREAM".toList, true⟩
    Subscription.stream.parse false rounds .opening attempt

/-- The write, or the missing socket, is a lost connection, and the reconnect is refused. -/
theorem serverDown_failed (sock : Option SockId) (rounds attempt : ℕ) : ∃ e : Exc,
    e.isConnectionError = true ∧
    (orphanLoop (rounds + 1) attempt (orphan sock)).run serverDown () =
      ((Package.sync.transport.streamFailed defaultPolicy e attempt
        (orphanLoop rounds (attempt + 1))) (orphan sock)).run serverDown () := by
  cases sock with
  | none => exact ⟨.connectionError .closed, rfl, rfl⟩
  | some sock => exact ⟨.connectionError .lostWhileSending, rfl, rfl⟩

theorem serverDown_again (sock : Option SockId) (again : ConnM Unit) (ceiling : ℚ) :
    ((do
      let rand ← perform .random
      Package.sync.transport.sleep (rand * ceiling)
      Package.sync.transport.streamReconnect again : ConnM Unit) (orphan sock)).run serverDown () =
    (again (orphan none)).run serverDown () := by
  change (((Sync.sleep (0 * ceiling) : ConnM Unit) >>= fun _ =>
    Package.sync.transport.streamReconnect again) (orphan sock)).run serverDown () = _
  rw [zero_mul]
  cases sock <;> rfl

/-- The loop goes on for 1024 failures and ends with the next one. -/
theorem serverDown_overflows (sock : Option SockId) (rounds : ℕ) {attempt : ℕ}
    (hle : attempt ≤ 1024) (hrounds : 1024 < attempt + rounds) :
    ((orphanLoop rounds attempt (orphan sock)).run serverDown ()).1.map Prod.fst =
      some (.error (.overflowError .delay)) := by
  induction rounds generalizing sock attempt with
  | zero => omega
  | succ rounds ih =>
    obtain ⟨e, he, hrun⟩ := serverDown_failed sock rounds attempt
    rw [hrun]
    by_cases h : attempt + 1 ≤ 1024
    · rw [streamFailed_goes_on he h, serverDown_again]
      exact ih none h (by omega)
    · rw [streamFailed_overflow he (by omega)]
      rfl

theorem serverDown_subscribe {rounds : ℕ} (h : 1024 < rounds) :
    ((Sync.transport.subscribe ⟨(orphan none).settings, some 5, {}⟩ rounds .stream false ()).run
      serverDown ()).1 = some (.error (.overflowError .delay), ()) := by
  have hloop := serverDown_overflows (some 3) rounds (Nat.zero_le 1024) (by omega)
  change ((((orphanLoop rounds 0).on (orphan (some 3)) >>= fun r =>
    Transport.release r.2 >>= fun _ => Method.ofExcept r.1 : ClientM Unit) ()).run serverDown ()).1 = _
  rw [run_on_bind]
  generalize (orphanLoop rounds 0 (orphan (some 3))).run serverDown () = result at hloop ⊢
  obtain ⟨_ | ⟨r, c'⟩, _⟩ := result
  · cases hloop
  · have hr : r = .error (.overflowError .delay) := Option.some.inj hloop
    subst hr
    rfl

/-- A stream whose server stays down is left through an `OverflowError`. -/
theorem stream_of_dead_server_overflows :
    ((Sync.transport.subscribe ⟨Connection.pooled.settings, some 5, {}⟩ 1025 .stream
      false ()).run serverDown ()).1 = some (.error (.overflowError .delay), ()) ∧
    ¬ ∀ (p : Package) (attempt : ℕ), Outlasts p attempt := by
  refine ⟨serverDown_subscribe (by omega), fun h => ?_⟩
  have hlast : 1024 + 1 ≤ 1024 := (outlasts_iff .sync 1024).mp (h .sync 1024)
  omega

end FqClient
