import FqClient.Transport
import Mathlib.Tactic.Linarith

namespace FqClient

open Effects

/-- The clock has not reached the deadline, and reading it changes nothing. -/
structure Punctual {σ : Type} (W : World Net σ) (s : σ) (d : Deadline) : Prop where
  permits : W.permits s .monotonic
  early : ∀ now s', W.step s .monotonic now s' →
    s' = s ∧ ∀ due, d.deadline = some due → now < due

namespace Punctual

variable {σ κ : Type} {W : World Net σ} {s : σ} {d : Deadline} {c : κ}

theorem wpm_remaining {Q : Except Exc (Option ℚ) → κ → σ → Prop} (hd : Punctual W s d)
    (h : ∀ remaining, (∀ left, remaining = some left → 0 < left) → Q (.ok remaining) c s) :
    wpm W d.remaining Q c s := by
  unfold Deadline.remaining
  cases hdue : d.deadline with
  | none =>
    apply h none
    intro left hleft
    cases hleft
  | some due =>
    dsimp only
    rw [wpm_bind, wpm_perform_op]
    refine ⟨hd.permits, ?_⟩
    intro now s' hstep
    obtain ⟨hs', hnow⟩ := hd.early now s' hstep
    rw [hs']
    apply h (some (due - now))
    intro left hleft
    have hleft' : due - now = left := Option.some.inj hleft
    have hlt := hnow due hdue
    linarith

theorem wpm_check {Q : Except Exc Unit → κ → σ → Prop} (hd : Punctual W s d)
    (h : Q (.ok ()) c s) : wpm W d.check Q c s := by
  unfold Deadline.check Deadline.expired
  rw [wpm_bind, wpm_bind]
  apply hd.wpm_remaining
  intro remaining hpos
  cases remaining with
  | none => exact h
  | some left =>
    have hnot : ¬ left ≤ 0 := not_le.mpr (hpos left rfl)
    simp only [wpm_pure, decide_eq_true_eq, if_neg hnot]
    exact h

end Punctual

end FqClient
