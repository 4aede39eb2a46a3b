import FqClient.Effects.Runs
import Mathlib.Logic.Function.Basic

namespace Effects

variable {I : Interface} {ι α γ σ : Type}

/-! ## Tasks over one environment -/

/-- Tasks that take turns: the environment they share, the task that runs, and what each has still
to do. -/
structure Tasks (I : Interface) (ι α σ : Type) where
  running : ι
  prog : ι → Prog I α
  state : σ

/-- A task that another may run instead of: it stands at an operation that awaits, or has ended. -/
def Parked (awaits : I.Op → Prop) : Prog I α → Prop
  | .pure _ => True
  | .call o _ => awaits o
  | .halt => False

/-- One operation of the running task, or a switch to another one. The environment of a task says
what its operations do. -/
inductive Tasks.Step [DecidableEq ι] (W : ι → World I σ) (awaits : I.Op → Prop) :
    Tasks I ι α σ → Tasks I ι α σ → Prop
  | op {t : Tasks I ι α σ} {o : I.Op} {k : I.Ans o → Prog I α} {a : I.Ans o} {s' : σ}
      (hprog : t.prog t.running = .call o k) (hstep : (W t.running).step t.state o a s') :
      Step W awaits t { t with prog := Function.update t.prog t.running (k a), state := s' }
  | switch {t : Tasks I ι α σ} (i : ι) (hparked : Parked awaits (t.prog t.running)) :
      Step W awaits t { t with running := i }

/-- The states of every interleaving of the tasks. -/
abbrev Tasks.Reaches [DecidableEq ι] (W : ι → World I σ) (awaits : I.Op → Prop) :
    Tasks I ι α σ → Tasks I ι α σ → Prop :=
  Relation.ReflTransGen (Tasks.Step W awaits)

/-- A step leaves a task where it is, or performs its next operation. -/
theorem Tasks.Step.same_or_own [DecidableEq ι] {W : ι → World I σ} {awaits : I.Op → Prop}
    {t t' : Tasks I ι α σ} (h : Tasks.Step W awaits t t') (i : ι) :
    t'.prog i = t.prog i ∨ ∃ (o : I.Op) (k : I.Ans o → Prog I α) (a : I.Ans o),
      t.prog i = .call o k ∧ t'.prog i = k a ∧ (W i).step t.state o a t'.state := by
  cases h with
  | @op o k a s' hprog hstep =>
    by_cases hi : i = t.running
    · right
      rw [hi]
      exact ⟨o, k, a, hprog, Function.update_self _ _ _, hstep⟩
    · left
      exact Function.update_of_ne hi _ _
  | switch => exact Or.inl rfl

/-- What a task does alone, it may do among others. -/
theorem Tasks.reaches_alone [DecidableEq ι] {W : ι → World I σ} {awaits : I.Op → Prop}
    (t : Tasks I ι α σ) {p : Prog I α} {s : σ}
    (h : Effects.Reaches (W t.running) (t.prog t.running, t.state) (p, s)) :
    Tasks.Reaches W awaits t { t with prog := Function.update t.prog t.running p, state := s } := by
  have key : ∀ d, Effects.Reaches (W t.running) (t.prog t.running, t.state) d → Tasks.Reaches W awaits
      t { t with prog := Function.update t.prog t.running d.1, state := d.2 } := by
    intro d hd
    induction hd with
    | refl =>
      rw [Function.update_eq_self]
    | tail _ hstep ih =>
      refine ih.tail ?_
      cases hstep with
      | @call o k s s' a h =>
        have hprog : (Function.update t.prog t.running (.call o k)) t.running = .call o k :=
          Function.update_self _ _ _
        have hnext := @Step.op I ι α σ _ W awaits { t with
          prog := Function.update t.prog t.running (.call o k), state := s } o k a s' hprog h
        simpa only [Function.update_idem] using hnext
  exact key _ h

/-- Two tasks may run one after the other. -/
theorem Tasks.reaches_in_turn [DecidableEq ι] {W : ι → World I σ} {awaits : I.Op → Prop} {i j : ι}
    (hne : j ≠ i) {prog : ι → Prog I α} {s s₁ s₂ : σ} {a b : α}
    (hfirst : Effects.Reaches (W i) (prog i, s) (.pure a, s₁))
    (hsecond : Effects.Reaches (W j) (prog j, s₁) (.pure b, s₂)) :
    ∃ t : Tasks I ι α σ, Tasks.Reaches W awaits ⟨i, prog, s⟩ t ∧ t.prog i = .pure a ∧
      t.prog j = .pure b ∧ t.state = s₂ := by
  let t₁ : Tasks I ι α σ := ⟨i, Function.update prog i (.pure a), s₁⟩
  let t₂ : Tasks I ι α σ := { t₁ with running := j }
  have hrun₁ : Tasks.Reaches W awaits ⟨i, prog, s⟩ t₁ := Tasks.reaches_alone ⟨i, prog, s⟩ hfirst
  have hparked : Parked awaits (t₁.prog t₁.running) := by
    change Parked awaits (Function.update prog i (.pure a) i)
    rw [Function.update_self]
    trivial
  have hprog : t₂.prog j = prog j := Function.update_of_ne hne _ _
  let t₃ : Tasks I ι α σ := ⟨j, Function.update t₂.prog j (.pure b), s₂⟩
  have hrun₂ : Tasks.Reaches W awaits t₂ t₃ := Tasks.reaches_alone t₂ (hprog ▸ hsecond)
  refine ⟨t₃, (hrun₁.tail (.switch j hparked)).trans hrun₂, ?_, ?_, rfl⟩
  · change Function.update (Function.update prog i (.pure a)) j (.pure b) i = _
    rw [Function.update_of_ne hne.symm, Function.update_self]
  · exact Function.update_self _ _ _

/-- To build a run, give its first step and then the rest. -/
theorem Tasks.exists_head [DecidableEq ι] {W : ι → World I σ} {awaits : I.Op → Prop}
    {P : Tasks I ι α σ → Prop} {t t' : Tasks I ι α σ} (hstep : Tasks.Step W awaits t t')
    (h : ∃ u, Tasks.Reaches W awaits t' u ∧ P u) : ∃ u, Tasks.Reaches W awaits t u ∧ P u := by
  obtain ⟨u, hu, hP⟩ := h
  exact ⟨u, .head hstep hu, hP⟩

/-! ## The environment as one of the tasks sees it -/

section Cooperative
variable (awaits : I.Op → Prop) (Inv : σ → Prop) (own : σ → γ)

/-- What others may have made of the state by the time an operation is answered: when it awaits, any
state that has the invariant and leaves the task its own part. -/
def Between (s : σ) (o : I.Op) (s₁ : σ) : Prop := s₁ = s ∨ awaits o ∧ Inv s₁ ∧ own s₁ = own s

/-- The environment with the other tasks in it. The task must leave the invariant at every
operation that awaits. -/
def World.cooperative (W : World I σ) : World I σ where
  permits s o := (awaits o → Inv s) ∧ ∀ s₁, Between awaits Inv own s o s₁ → W.permits s₁ o
  step s o a s' := ∃ s₁, Between awaits Inv own s o s₁ ∧ W.step s₁ o a s'
  halts := W.halts

variable {awaits Inv own} {W : World I σ}

/-- An operation that does not await sees what the task left. -/
theorem cooperative_local {o : I.Op} (ho : ¬ awaits o) {P : I.Ans o → σ → Prop} {s : σ} :
    ((W.cooperative awaits Inv own).permits s o ∧
      ∀ a s', (W.cooperative awaits Inv own).step s o a s' → P a s') ↔
    W.permits s o ∧ ∀ a s', W.step s o a s' → P a s' := by
  constructor
  · intro ⟨⟨_, hpermits⟩, hstep⟩
    exact ⟨hpermits s (Or.inl rfl), fun a s' h => hstep a s' ⟨s, Or.inl rfl, h⟩⟩
  · intro ⟨hpermits, hstep⟩
    refine ⟨⟨fun h => absurd h ho, ?_⟩, ?_⟩
    · intro s₁ hs₁
      rcases hs₁ with rfl | ⟨h, _⟩
      · exact hpermits
      · exact absurd h ho
    · intro a s' ⟨s₁, hs₁, h⟩
      rcases hs₁ with rfl | ⟨hawaits, _⟩
      · exact hstep a s' h
      · exact absurd hawaits ho

/-- An operation that awaits sees what others made of the state meanwhile. -/
theorem cooperative_await {o : I.Op} (ho : awaits o) {P : I.Ans o → σ → Prop} {s : σ} :
    ((W.cooperative awaits Inv own).permits s o ∧
      ∀ a s', (W.cooperative awaits Inv own).step s o a s' → P a s') ↔
    Inv s ∧ ∀ s₁, Inv s₁ → own s₁ = own s →
      W.permits s₁ o ∧ ∀ a s', W.step s₁ o a s' → P a s' := by
  constructor
  · intro ⟨⟨hinv, hpermits⟩, hstep⟩
    refine ⟨hinv ho, fun s₁ hs₁ hown => ?_⟩
    have hbetween : Between awaits Inv own s o s₁ := Or.inr ⟨ho, hs₁, hown⟩
    exact ⟨hpermits s₁ hbetween, fun a s' h => hstep a s' ⟨s₁, hbetween, h⟩⟩
  · intro ⟨hinv, hothers⟩
    have hany : ∀ s₁, Between awaits Inv own s o s₁ → Inv s₁ ∧ own s₁ = own s := by
      intro s₁ hs₁
      rcases hs₁ with rfl | ⟨_, hs₁, hown⟩
      · exact ⟨hinv, rfl⟩
      · exact ⟨hs₁, hown⟩
    refine ⟨⟨fun _ => hinv, ?_⟩, ?_⟩
    · intro s₁ hs₁
      exact (hothers s₁ (hany s₁ hs₁).1 (hany s₁ hs₁).2).1
    · intro a s' ⟨s₁, hs₁, h⟩
      exact (hothers s₁ (hany s₁ hs₁).1 (hany s₁ hs₁).2).2 a s' h

/-- What a task does with its own part alone, it does among the others. -/
theorem wp_cooperative_of_own {V : World I γ} (hhalts : V.halts → W.halts)
    (hown : ∀ s o, Inv s → V.permits (own s) o → W.permits s o ∧
      ∀ a s', W.step s o a s' → Inv s' ∧ V.step (own s) o a (own s'))
    {Q : α → γ → Prop} {p : Prog I α} {s : σ} (hs : Inv s) (h : wp V p Q (own s)) :
    wp (W.cooperative awaits Inv own) p (fun a s' => Inv s' ∧ Q a (own s')) s := by
  induction p generalizing s with
  | pure a => exact ⟨hs, h⟩
  | call o k ih =>
    have hbetween : ∀ s₁, Between awaits Inv own s o s₁ → Inv s₁ ∧ own s₁ = own s := by
      intro s₁ hs₁
      rcases hs₁ with rfl | ⟨_, hs₁, hsame⟩
      · exact ⟨hs, rfl⟩
      · exact ⟨hs₁, hsame⟩
    refine ⟨⟨fun _ => hs, fun s₁ hs₁ => ?_⟩, fun a s' hstep => ?_⟩
    · obtain ⟨hinv, hsame⟩ := hbetween s₁ hs₁
      exact (hown s₁ o hinv (hsame ▸ h.1)).1
    · obtain ⟨s₁, hs₁, hstep⟩ := hstep
      obtain ⟨hinv, hsame⟩ := hbetween s₁ hs₁
      obtain ⟨hs', hV⟩ := (hown s₁ o hinv (hsame ▸ h.1)).2 a s' hstep
      exact ih a hs' (h.2 a (own s') (hsame ▸ hV))
  | halt => exact hhalts h

/-- What a task has ended with: the invariant, and something about its own part. -/
def Left (Inv : σ → Prop) (own : σ → γ) (Q : α → γ → Prop) (a : α) (s : σ) : Prop :=
  Inv s ∧ Q a (own s)

/-- A parked task keeps its contract while others run. -/
theorem wp_cooperative_parked {Q : α → γ → Prop} {p : Prog I α} (hparked : Parked awaits p)
    {s s₁ : σ} (h : wp (W.cooperative awaits Inv own) p (Left Inv own Q) s) (hs₁ : Inv s₁)
    (hown : own s₁ = own s) : wp (W.cooperative awaits Inv own) p (Left Inv own Q) s₁ := by
  cases p with
  | pure a =>
    refine ⟨hs₁, ?_⟩
    rw [hown]
    exact h.2
  | call o k =>
    rw [wp_call, cooperative_await hparked] at h ⊢
    refine ⟨hs₁, fun s₂ hs₂ hown₂ => ?_⟩
    exact h.2 s₂ hs₂ (hown₂.trans hown)
  | halt => exact hparked.elim

theorem inv_of_parked {Q : α → γ → Prop} {p : Prog I α} (hparked : Parked awaits p) {s : σ}
    (h : wp (W.cooperative awaits Inv own) p (Left Inv own Q) s) : Inv s := by
  cases p with
  | pure a => exact h.1
  | call o k => exact ((cooperative_await hparked).mp h).1
  | halt => exact hparked.elim

end Cooperative

/-! ## Every interleaving keeps the invariant -/

section Interleaving
variable (W : ι → World I σ) (awaits : I.Op → Prop) (Inv : σ → Prop)
  (own : ι → σ → γ) (Q : ι → α → γ → Prop)

/-- The contract of one task among the others. -/
def Keeping (i : ι) (p : Prog I α) (s : σ) : Prop :=
  wp ((W i).cooperative awaits Inv (own i)) p (Left Inv (own i) (Q i)) s

/-- The running task meets its contract, and the others will meet theirs. -/
def Tasks.Sound (t : Tasks I ι α σ) : Prop :=
  Keeping W awaits Inv own Q t.running (t.prog t.running) t.state ∧
  ∀ j, j ≠ t.running → ∀ s, Inv s → own j s = own j t.state →
    Keeping W awaits Inv own Q j (t.prog j) s

variable {W awaits Inv own Q}

theorem Tasks.Sound.step [DecidableEq ι]
    (hframe : ∀ i j s o a s', j ≠ i → (awaits o → Inv s) → (W i).permits s o →
      (W i).step s o a s' → own j s' = own j s)
    {t t' : Tasks I ι α σ} (hsound : t.Sound W awaits Inv own Q) (h : Tasks.Step W awaits t t') :
    t'.Sound W awaits Inv own Q := by
  obtain ⟨hrunning, hothers⟩ := hsound
  cases h with
  | @op o k a s' hprog hstep =>
    constructor
    · change Keeping W awaits Inv own Q t.running (Function.update t.prog t.running (k a) t.running) s'
      rw [Function.update_self]
      unfold Keeping at hrunning
      rw [hprog] at hrunning
      exact hrunning.2 a s' ⟨t.state, Or.inl rfl, hstep⟩
    · intro j hj s hs hown
      have hpermits : (awaits o → Inv t.state) ∧ (W t.running).permits t.state o := by
        unfold Keeping at hrunning
        rw [hprog] at hrunning
        exact ⟨hrunning.1.1, hrunning.1.2 t.state (Or.inl rfl)⟩
      change Keeping W awaits Inv own Q j (Function.update t.prog t.running (k a) j) s
      rw [Function.update_of_ne hj]
      exact hothers j hj s hs (hown.trans (hframe _ _ _ _ _ _ hj hpermits.1 hpermits.2 hstep))
  | switch i hparked =>
    have hinv : Inv t.state := inv_of_parked hparked hrunning
    have hall : ∀ j s, Inv s → own j s = own j t.state →
        Keeping W awaits Inv own Q j (t.prog j) s := by
      intro j s hs hown
      by_cases hj : j = t.running
      · rw [hj] at hown ⊢
        exact wp_cooperative_parked hparked hrunning hs hown
      · exact hothers j hj s hs hown
    exact ⟨hall i t.state hinv rfl, fun j _ => hall j⟩

/-- Tasks that each keep their contract alone keep them together, in every order of their steps. -/
theorem Tasks.sound_of_reaches [DecidableEq ι]
    (hframe : ∀ i j s o a s', j ≠ i → (awaits o → Inv s) → (W i).permits s o →
      (W i).step s o a s' → own j s' = own j s)
    {t t' : Tasks I ι α σ} (hinv : Inv t.state)
    (hstart : ∀ i s, Inv s → own i s = own i t.state → Keeping W awaits Inv own Q i (t.prog i) s)
    (h : Tasks.Reaches W awaits t t') : t'.Sound W awaits Inv own Q := by
  induction h with
  | refl => exact ⟨hstart t.running t.state hinv rfl, fun j _ => hstart j⟩
  | tail _ hstep ih => exact ih.step hframe hstep

/-- Where a task may be switched, the invariant holds. -/
theorem Tasks.Sound.inv {t : Tasks I ι α σ} (h : t.Sound W awaits Inv own Q)
    (hparked : Parked awaits (t.prog t.running)) : Inv t.state := inv_of_parked hparked h.1

/-- The next operation of the running task is permitted. -/
theorem Tasks.Sound.permits {t : Tasks I ι α σ} (h : t.Sound W awaits Inv own Q) {o : I.Op}
    {k : I.Ans o → Prog I α} (hprog : t.prog t.running = .call o k) :
    (W t.running).permits t.state o := by
  have hrunning := h.1
  unfold Keeping at hrunning
  rw [hprog] at hrunning
  exact hrunning.1.2 t.state (Or.inl rfl)

/-- The next operation of every task is permitted, also while another one is cut short. -/
theorem Tasks.Sound.permits_of_inv {t : Tasks I ι α σ} (h : t.Sound W awaits Inv own Q)
    (hinv : Inv t.state) {i : ι} {o : I.Op} {k : I.Ans o → Prog I α} (hprog : t.prog i = .call o k) :
    (W i).permits t.state o := by
  by_cases hi : i = t.running
  · rw [hi] at hprog ⊢
    exact h.permits hprog
  · have hother := h.2 i hi t.state hinv rfl
    unfold Keeping at hother
    rw [hprog] at hother
    exact hother.1.2 t.state (Or.inl rfl)

/-- A task that has ended left what its contract says, also while another one is cut short. -/
theorem Tasks.Sound.ended_of_inv {t : Tasks I ι α σ} (h : t.Sound W awaits Inv own Q)
    (hinv : Inv t.state) {i : ι} {a : α} (hend : t.prog i = .pure a) : Q i a (own i t.state) := by
  by_cases hi : i = t.running
  · have hrunning := h.1
    unfold Keeping at hrunning
    rw [← hi, hend] at hrunning
    exact hrunning.2
  · have hother := h.2 i hi t.state hinv rfl
    rw [hend] at hother
    exact hother.2

/-- A task that has ended left what its contract says. -/
theorem Tasks.Sound.ended {t : Tasks I ι α σ} (h : t.Sound W awaits Inv own Q)
    (hparked : Parked awaits (t.prog t.running)) {i : ι} {a : α} (hend : t.prog i = .pure a) :
    Q i a (own i t.state) := h.ended_of_inv (h.inv hparked) hend

/-- Where the permitted operations keep the invariant, it holds in every state, not only where a
task may be switched. -/
theorem Tasks.inv_of_reaches [DecidableEq ι]
    (hframe : ∀ i j s o a s', j ≠ i → (awaits o → Inv s) → (W i).permits s o →
      (W i).step s o a s' → own j s' = own j s)
    (hkeeps : ∀ i s o a s', Inv s → (W i).permits s o → (W i).step s o a s' → Inv s')
    {t t' : Tasks I ι α σ} (hinv : Inv t.state)
    (hstart : ∀ i s, Inv s → own i s = own i t.state → Keeping W awaits Inv own Q i (t.prog i) s)
    (h : Tasks.Reaches W awaits t t') : Inv t'.state := by
  induction h with
  | refl => exact hinv
  | tail hreaches hstep ih =>
    have hsound := Tasks.sound_of_reaches hframe hinv hstart hreaches
    cases hstep with
    | op hprog hop => exact hkeeps _ _ _ _ _ ih (hsound.permits hprog) hop
    | switch i hparked => exact ih

end Interleaving

/-- With more operations that await there are more interleavings. -/
theorem Tasks.Reaches.mono [DecidableEq ι] {W : ι → World I σ} {awaits awaits' : I.Op → Prop}
    (hawaits : ∀ o, awaits o → awaits' o) {t t' : Tasks I ι α σ} (h : Tasks.Reaches W awaits t t') :
    Tasks.Reaches W awaits' t t' := by
  refine Relation.ReflTransGen.mono ?_ _ _ h
  intro c d hstep
  cases hstep with
  | op hprog hop => exact .op hprog hop
  | switch i hparked =>
    refine .switch i ?_
    generalize c.prog c.running = p at hparked ⊢
    cases p with
    | pure a => trivial
    | call o k => exact hawaits o hparked
    | halt => exact hparked

/-! ## Runs with given answers -/

/-- Tasks take turns, each for this many operations. -/
def Tasks.play [DecidableEq ι] (answer : ι → σ → (o : I.Op) → Option (I.Ans o × σ)) :
    List (ι × ℕ) → Tasks I ι α σ → Option (Tasks I ι α σ)
  | [], t => some t
  | (i, n) :: turns, t =>
    match t.prog t.running with
    | .halt => none
    | _ => ((t.prog i).advance (answer i) n t.state).bind fun d =>
      Tasks.play answer turns ⟨i, Function.update t.prog i d.1, d.2⟩

/-- Turns with answers of the environment are a run. -/
theorem Tasks.reaches_play [DecidableEq ι] {W : ι → World I σ}
    {answer : ι → σ → (o : I.Op) → Option (I.Ans o × σ)}
    (hanswer : ∀ i s o a s', answer i s o = some (a, s') → (W i).step s o a s')
    (turns : List (ι × ℕ)) {t u : Tasks I ι α σ} (h : t.play answer turns = some u) :
    Tasks.Reaches W (fun _ => True) t u := by
  induction turns generalizing t with
  | nil =>
    cases h
    exact .refl
  | cons turn turns ih =>
    obtain ⟨i, n⟩ := turn
    have hturn : Parked (fun _ => True) (t.prog t.running) ∧
        ((t.prog i).advance (answer i) n t.state).bind (fun d =>
          Tasks.play answer turns ⟨i, Function.update t.prog i d.1, d.2⟩) = some u := by
      unfold Tasks.play at h
      cases hprog : t.prog t.running with
      | halt =>
        rw [hprog] at h
        cases h
      | _ =>
        rw [hprog] at h
        exact ⟨trivial, h⟩
    obtain ⟨hparked, hbind⟩ := hturn
    obtain ⟨d, hadvance, hrest⟩ := Option.bind_eq_some_iff.mp hbind
    have hswitched : Tasks.Step W (fun _ => True) t { t with running := i } := .switch i hparked
    exact (Relation.ReflTransGen.single hswitched).trans
      ((Tasks.reaches_alone { t with running := i } (reaches_advance (hanswer i) hadvance)).trans
        (ih hrest))

/-- A run with given answers that ends as it should. -/
theorem Tasks.exists_of_plays [DecidableEq ι] {W : ι → World I σ}
    {answer : ι → σ → (o : I.Op) → Option (I.Ans o × σ)}
    (hanswer : ∀ i s o a s', answer i s o = some (a, s') → (W i).step s o a s')
    {turns : List (ι × ℕ)} {t : Tasks I ι α σ} {P : Tasks I ι α σ → Bool}
    (h : (t.play answer turns).any P = true) :
    ∃ u, Tasks.Reaches W (fun _ => True) t u ∧ P u = true := by
  obtain ⟨u, hplay, hP⟩ := (Option.any_eq_true _ _).mp h
  exact ⟨u, Tasks.reaches_play hanswer turns hplay, hP⟩

/-- The task has ended so. -/
def Tasks.ended [DecidableEq α] (t : Tasks I ι α σ) (i : ι) (a : α) : Bool :=
  match t.prog i with
  | .pure b => b = a
  | _ => false

theorem Tasks.prog_of_ended [DecidableEq α] {t : Tasks I ι α σ} {i : ι} {a : α}
    (h : t.ended i a = true) : t.prog i = .pure a := by
  unfold Tasks.ended at h
  split at h
  next b hprog => rw [hprog, of_decide_eq_true h]
  next => cases h

/-! ## What is seen of a run -/

section Seen
variable {ρ : Type} [DecidableEq ι] {W : ι → World I σ} {awaits : I.Op → Prop} {t t' : Tasks I ι α σ}

/-- The tasks over what `f` shows of the state. -/
def Tasks.onto (f : σ → ρ) (t : Tasks I ι α σ) : Tasks I ι α ρ := ⟨t.running, t.prog, f t.state⟩

/-- Where every step is also a step of another environment, so is every run. -/
theorem Tasks.Reaches.onto {V : ι → World I ρ} (f : σ → ρ)
    (hstep : ∀ i s o a s', (W i).step s o a s' → (V i).step (f s) o a (f s'))
    (h : Tasks.Reaches W awaits t t') : Tasks.Reaches V awaits (t.onto f) (t'.onto f) := by
  induction h with
  | refl => exact .refl
  | tail _ hnext ih =>
    refine ih.tail ?_
    cases hnext with
    | op hprog hop => exact .op hprog (hstep _ _ _ _ _ hop)
    | switch i hparked => exact .switch i hparked

/-- Where the state keeps the events of every task, they are those of a run of its own. -/
theorem Tasks.Reaches.recorded (events : σ → ι → List (Event I))
    (hevents : ∀ i s o a s', (W i).step s o a s' →
      events s' = Function.update (events s) i (events s i ++ [⟨o, a⟩]))
    (h : Tasks.Reaches W awaits t t') (i : ι) :
    Effects.Reaches (record I) (t.prog i, events t.state i) (t'.prog i, events t'.state i) := by
  induction h with
  | refl => exact .refl
  | @tail u u' _ hnext ih =>
    cases hnext with
    | @op o k a s' hprog hop =>
      dsimp only
      rw [hevents _ _ _ _ _ hop]
      by_cases hi : i = u.running
      · rw [hi] at ih ⊢
        rw [Function.update_self, Function.update_self]
        rw [hprog] at ih
        exact ih.tail (.call rfl)
      · rw [Function.update_of_ne hi, Function.update_of_ne hi]
        exact ih
    | switch j hparked => exact ih

/-- What every step keeps, every run keeps. -/
theorem Tasks.Reaches.keeps {P : σ → Prop}
    (hstep : ∀ i s o a s', P s → (W i).step s o a s' → P s') (h : Tasks.Reaches W awaits t t')
    (ht : P t.state) : P t'.state := by
  induction h with
  | refl => exact ht
  | tail _ hnext ih =>
    cases hnext with
    | op hprog hop => exact hstep _ _ _ _ _ ih hop
    | switch j hparked => exact ih

end Seen

end Effects
