import FqClient.Contracts

namespace FqClient

open Effects

/-- What one round of `_with_retry` does in an environment, after so many failures: `Sends` holds
before the command is sent, `Fails` once its connection is lost, `Waits` once the backoff is over,
and `Ends` says how the call may end. -/
structure Retrying {σ : Type} (W : World Net σ) (t : Transport) (policy : ReconnectPolicy)
    (command : Command) (d : Deadline) (send : Command → Deadline → ConnM Bytes)
    (Sends : ℕ → Connection → σ → Prop) (Fails : ℕ → ConnectionFault → Connection → σ → Prop)
    (Waits : ℕ → Connection → σ → Prop) (Ends : Except Exc Bytes → Connection → σ → Prop) : Prop where
  send : ∀ n c s, Sends n c s → wpm W (send command d) (fun r c' s' => match r with
    | .error (.connectionError fault) => Fails n fault c' s'
    | r => Ends r c' s') c s
  givesUp : ∀ n fault c s, Fails n fault c s →
    (c.requestInFlight = true ∧ ¬ command.readOnly = true) ∨ policy.exhausted (n + 1) = true →
    Ends (.error (.connectionError fault)) c s
  backoff : ∀ n fault c s, Fails n fault c s →
    ¬ (c.requestInFlight = true ∧ ¬ command.readOnly = true) → policy.exhausted (n + 1) = false →
    wpm W (t.backoff policy (n + 1) d) (fun r c' s' => match r with
      | .ok _ => Waits (n + 1) c' s'
      | .error e => Ends (.error e) c' s') c s
  reconnect : ∀ n c s, Waits n c s → wpm W t.reconnect (fun r c' s' => match r with
    | .ok _ | .error (.connectionError _) => Sends n c' s'
    | .error e => Ends (.error e) c' s') c s

section Retrying
variable {σ : Type} {W : World Net σ} {t : Transport} {policy : ReconnectPolicy} {command : Command}
  {d : Deadline} {send : Command → Deadline → ConnM Bytes} {Sends : ℕ → Connection → σ → Prop}
  {Fails : ℕ → ConnectionFault → Connection → σ → Prop} {Waits : ℕ → Connection → σ → Prop}
  {Ends : Except Exc Bytes → Connection → σ → Prop}

/-- The rule of `_with_retry`: what its rounds do, the whole loop does. -/
theorem Retrying.withRetry (h : Retrying W t policy command d send Sends Fails Waits Ends)
    (hhalts : W.halts) (rounds : ℕ) {n : ℕ} {c : Connection} {s : σ} (hs : Sends n c s) :
    wpm W (t.withRetry policy command d send rounds n) Ends c s := by
  -- a round ends in `Sends` for the next one, with a failure more
  induction rounds generalizing n c s with
  | zero => exact hhalts
  | succ rounds ih =>
    unfold Transport.withRetry
    rw [wpm_bind, wpm_attempt]
    refine wpm_mono (h.send n c s hs) ?_
    intro r c₁ s₁ hr
    cases r with
    | ok response => exact hr
    | error e =>
      cases e with
      | connectionError fault =>
        dsimp only
        unfold Transport.retryFailed
        rw [wpm_bind, wpm_self]
        dsimp only
        rw [wpm_ite, wpm_ite]
        split
        next hflight => exact h.givesUp n fault c₁ s₁ hr (Or.inl hflight)
        next hflight =>
          split
          next hexhausted => exact h.givesUp n fault c₁ s₁ hr (Or.inr hexhausted)
          next hexhausted =>
            rw [wpm_bind]
            refine wpm_mono (h.backoff n fault c₁ s₁ hr hflight (eq_false_of_ne_true hexhausted)) ?_
            intro r c₂ s₂ hr
            cases r with
            | error e => exact hr
            | ok _ =>
              dsimp only
              unfold Transport.retryReconnect
              rw [wpm_bind, wpm_attempt]
              refine wpm_mono (h.reconnect (n + 1) c₂ s₂ hr) ?_
              intro r c₃ s₃ hr
              cases r with
              | ok _ => exact ih hr
              | error e =>
                cases e with
                | connectionError _ => exact ih hr
                | _ => exact hr
      | _ => exact hr

end Retrying

end FqClient
