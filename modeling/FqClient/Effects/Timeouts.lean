import FqClient.Effects.Runs
import Mathlib.Algebra.Order.Field.Rat
import Mathlib.Tactic.Linarith

namespace Effects

variable {I : Interface} {α : Type}

/-! ## Operations that are given a timeout each -/

/-- A clock under which an operation with a limit lasts no longer than that, and not at all when the limit
is negative. -/
def lasting (limit : I.Op → Option ℚ) : World I ℚ where
  permits _ _ := True
  step now o _ now' := now ≤ now' ∧ ∀ t, limit o = some t → now' ≤ now + max t 0

/-- At most so many operations. -/
def spending : World I ℕ where
  permits left _ := 0 < left
  step left _ _ left' := left' + 1 = left

/-- The program performs at most so many operations, whatever their answers. -/
def Prog.AtMost (count : ℕ) (p : Prog I α) : Prop := wp spending p (fun _ _ => True) count

section Timeouts
variable {limit : I.Op → Option ℚ} {T : ℚ} {p : Prog I α}

theorem Prog.AtMost.call_iff {count : ℕ} {o : I.Op} {k : I.Ans o → Prog I α} :
    (Prog.call o k).AtMost (count + 1) ↔ ∀ a, (k a).AtMost count := by
  constructor
  · exact fun h a => h.2 a count rfl
  · exact fun h => ⟨Nat.succ_pos count, fun a left hleft => by
      rw [Nat.succ.inj hleft]
      exact h a⟩

theorem not_atMost_zero (h : ¬ p.AtMost 0) : ∃ o k, p = .call o k := by
  cases p with
  | pure a => exact absurd trivial h
  | call o k => exact ⟨o, k, rfl⟩
  | halt => exact absurd trivial h

/-- So many operations last no longer than as many timeouts. -/
theorem wp_lasting {count : ℕ} (hp : p.AtMost count)
    (hlimit : wp (anything fun o => limit o = some T) p (fun _ _ => True) ()) (now : ℚ) :
    wp (lasting limit) p (fun _ now' => now' ≤ now + count * max T 0) now := by
  have hnonneg : 0 ≤ max T 0 := le_max_right T 0
  induction p generalizing count now with
  | pure a =>
    change now ≤ now + count * max T 0
    have : 0 ≤ (count : ℚ) * max T 0 := by positivity
    linarith
  | call o k ih =>
    obtain ⟨ho, hrest⟩ := hlimit
    obtain ⟨hpos, hk⟩ := hp
    obtain ⟨left, rfl⟩ := Nat.exists_eq_succ_of_ne_zero hpos.ne'
    refine ⟨trivial, fun a now₁ ⟨_, hlasts⟩ => ?_⟩
    have hone := hlasts T ho
    refine wp_mono (ih a (hk a left rfl) (hrest a () trivial) now₁) ?_
    intro _ now₂ hnow₂
    push_cast
    linarith
  | halt => exact trivial

/-- Operations that are given no time last none. -/
theorem wp_lasting_zero (hlimit : wp (anything fun o => limit o = some 0) p (fun _ _ => True) ())
    (now : ℚ) : wp (lasting limit) p (fun _ now' => now' ≤ now) now := by
  have hstep : ∀ s o (a : I.Ans o) s', limit o = some 0 → s ≤ now → (lasting limit).step s o a s' →
      s' ≤ now := by
    intro s o a s' ho hs hlasts
    have := hlasts.2 0 ho
    simp only [max_self, add_zero] at this
    exact this.trans hs
  have hkeeps := wp_of_anything (W := lasting limit) (J := (· ≤ now))
    (fun _ _ _ _ => trivial) hstep hlimit
    le_rfl
  exact wp_mono hkeeps fun _ _ h => h.2

/-- A program that is never cut short may end at once, with any answers. -/
theorem exists_end [∀ o, Nonempty (I.Ans o)] (limit : I.Op → Option ℚ) (htotal : p.Total) (now : ℚ) :
    ∃ a, Reaches (lasting limit) (p, now) (.pure a, now) := by
  induction p with
  | pure a => exact ⟨a, .refl⟩
  | call o k ih =>
    obtain ⟨answer⟩ := (inferInstance : Nonempty (I.Ans o))
    obtain ⟨a, ha⟩ := ih answer (htotal answer)
    have hstep : (lasting limit).step now o answer now :=
      ⟨le_rfl, fun t _ => le_add_of_nonneg_right (le_max_right t 0)⟩
    exact ⟨a, .head (.call hstep) ha⟩
  | halt => exact htotal.elim

theorem lasts_step (hT : 0 ≤ T) {o : I.Op} {a : I.Ans o} (ho : limit o = some T) (now : ℚ) :
    (lasting limit).step now o a (now + T) := by
  refine ⟨le_add_of_nonneg_right hT, fun t ht => ?_⟩
  rw [ho] at ht
  rw [← Option.some.inj ht, max_eq_left hT]

/-- A program whose operations are each given the timeout of the whole ends within that timeout, however
long they last, exactly when it performs at most one of them, or the timeout is zero. -/
theorem ends_within_iff [∀ o, Nonempty (I.Ans o)] (htotal : p.Total)
    (hlimit : wp (anything fun o => limit o = some T) p (fun _ _ => True) ()) (start : ℚ) :
    (∀ a now, Reaches (lasting limit) (p, start) (.pure a, now) → now ≤ start + T) ↔
      0 ≤ T ∧ (T = 0 ∨ p.AtMost 1) := by
  constructor
  · intro hbound
    have hT : 0 ≤ T := by
      obtain ⟨a, ha⟩ := exists_end limit htotal start
      have := hbound a start ha
      linarith
    refine ⟨hT, ?_⟩
    by_contra hnot
    simp only [not_or] at hnot
    obtain ⟨hne, hmany⟩ := hnot
    have hpos : 0 < T := lt_of_le_of_ne hT (Ne.symm hne)
    -- two operations that each take all of their timeout
    cases p with
    | pure a => exact hmany trivial
    | halt => exact htotal
    | call o k =>
      rw [Prog.AtMost.call_iff] at hmany
      simp only [not_forall] at hmany
      obtain ⟨a, ha⟩ := hmany
      obtain ⟨o', k', hk'⟩ := not_atMost_zero ha
      obtain ⟨a'⟩ := (inferInstance : Nonempty (I.Ans o'))
      have hlimit' := hlimit.2 a () trivial
      have htotal' := htotal a
      rw [hk'] at hlimit' htotal'
      have hfirst : (lasting limit).step start o a (start + T) :=
        lasts_step hpos.le hlimit.1 start
      have hsecond : (lasting limit).step (start + T) o' a' (start + T + T) :=
        lasts_step hpos.le hlimit'.1 (start + T)
      obtain ⟨b, hb⟩ := exists_end limit (htotal' a') (start + T + T)
      have hrun : Reaches (lasting limit) (.call o k, start) (.pure b, start + T + T) := by
        apply Relation.ReflTransGen.head (.call hfirst)
        rw [hk']
        exact .head (.call hsecond) hb
      have := hbound b _ hrun
      linarith
  · rintro ⟨hT, rfl | hone⟩ a now hrun
    · have := wp_result (wp_lasting_zero hlimit start) hrun
      linarith
    · have := wp_result (wp_lasting hone hlimit start) hrun
      rw [max_eq_left hT] at this
      simpa using this

end Timeouts

end Effects
