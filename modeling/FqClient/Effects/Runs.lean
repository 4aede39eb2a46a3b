import FqClient.Effects.Method

namespace Effects

variable {I : Interface} {κ κ' ε α β σ : Type} {W : World I σ}

/-! ## Runs of methods, from their parts -/

theorem reaches_bind {p q : Prog I β} {s s' : σ} (h : Reaches W (p, s) (q, s')) (f : β → Prog I α) :
    Reaches W (p >>= f, s) (q >>= f, s') := by
  have key : ∀ d, Reaches W (p, s) d → Reaches W (p >>= f, s) (d.1 >>= f, d.2) := by
    intro d hd
    induction hd with
    | refl => exact .refl
    | tail _ hstep ih =>
      refine ih.tail ?_
      cases hstep with
      | call h => exact .call h
  exact key _ h

/-- Some run of the method ends in this way. -/
def Method.Can (W : World I σ) (m : Method I κ ε α) (c : κ) (s : σ) (r : Except ε α) (c' : κ)
    (s' : σ) : Prop := Reaches W (m c, s) (.pure (r, c'), s')

/-- Some run of the method comes to a state with `P`, finished or not. -/
def Method.Meets (W : World I σ) (P : σ → Prop) (m : Method I κ ε α) (c : κ) (s : σ) : Prop :=
  ∃ q s', Reaches W (m c, s) (q, s') ∧ P s'

section Rules
variable {P : σ → Prop} {m : Method I κ ε β} {f : β → Method I κ ε α} {c d c' : κ} {s t s' : σ}
  {r : Except ε α}

theorem can_pure (a : α) (c : κ) (s : σ) :
    Method.Can W (Pure.pure a : Method I κ ε α) c s (.ok a) c s := .refl

theorem can_throw (e : ε) (c : κ) (s : σ) :
    Method.Can W (throw e : Method I κ ε α) c s (.error e) c s := .refl

theorem can_ofExcept (r : Except ε α) (c : κ) (s : σ) :
    Method.Can W (Method.ofExcept r) c s r c s := .refl

theorem can_self (c : κ) (s : σ) : Method.Can W (Method.self : Method I κ ε κ) c s (.ok c) c s := .refl

theorem can_update (g : κ → κ) (c : κ) (s : σ) :
    Method.Can W (Method.update g : Method I κ ε Unit) c s (.ok ()) (g c) s := .refl

theorem Method.Can.bind {b : β} (hm : m.Can W c s (.ok b) d t) (hf : (f b).Can W d t r c' s') :
    (m >>= f).Can W c s r c' s' := (reaches_bind hm _).trans hf

theorem Method.Can.bind_error {e : ε} (hm : m.Can W c s (.error e) c' s') :
    (m >>= f).Can W c s (.error e) c' s' := reaches_bind hm _

theorem Method.Can.attempt {r : Except ε β} (hm : m.Can W c s r c' s') :
    (Method.attempt m).Can W c s (.ok r) c' s' := reaches_bind hm _

theorem Method.Can.on {r : Except ε β} {k : κ'} (hm : m.Can W c s r c' s') :
    Method.Can W (m.on c : Method I κ' ε _) k s (.ok (r, c')) k s' := reaches_bind hm _

theorem Method.Meets.bind (hm : m.Meets W P c s) : (m >>= f).Meets W P c s := by
  obtain ⟨q, s', h, hP⟩ := hm
  exact ⟨_, s', reaches_bind h _, hP⟩

theorem Method.Meets.bind_after {b : β} (hm : m.Can W c s (.ok b) d t)
    (hf : (f b).Meets W P d t) : (m >>= f).Meets W P c s := by
  obtain ⟨q, s', h, hP⟩ := hf
  exact ⟨q, s', (reaches_bind hm _).trans h, hP⟩

theorem Method.Meets.attempt (hm : m.Meets W P c s) : (Method.attempt m).Meets W P c s := by
  obtain ⟨q, s', h, hP⟩ := hm
  exact ⟨_, s', reaches_bind h _, hP⟩

theorem Method.Meets.on {k : κ'} (hm : m.Meets W P c s) :
    Method.Meets W P (m.on c : Method I κ' ε _) k s := by
  obtain ⟨q, s', h, hP⟩ := hm
  exact ⟨_, s', reaches_bind h _, hP⟩

theorem Method.Can.meets {r : Except ε β} (hm : m.Can W c s r c' s') (hP : P s') :
    m.Meets W P c s := ⟨_, s', hm, hP⟩

end Rules

/-- A recorded run is a monitored run from what the log before it says. -/
theorem reaches_monitor (f : σ → Event I → σ) (s : σ) {p q : Prog I α} {log log' : List (Event I)}
    (h : Reaches (record I) (p, log) (q, log')) :
    Reaches (monitor f) (p, log.foldl f s) (q, log'.foldl f s) := by
  have key : ∀ d, Reaches (record I) (p, log) d →
      Reaches (monitor f) (p, log.foldl f s) (d.1, d.2.foldl f s) := by
    intro d hd
    induction hd with
    | refl => exact .refl
    | tail _ hone ih =>
      refine ih.tail ?_
      cases hone with
      | call hstep =>
        rw [show _ = _ from hstep, List.foldl_append]
        exact .call rfl
  exact key _ h

/-- The run against an environment that answers as the world allows. -/
theorem reaches_run {h : σ → (o : I.Op) → I.Ans o × σ}
    (hstep : ∀ s o, W.step s o (h s o).1 (h s o).2) {p : Prog I α} {s s' : σ} {a : α}
    (hrun : p.run h s = (some a, s')) : Reaches W (p, s) (.pure a, s') := by
  induction p generalizing s with
  | pure b =>
    cases hrun
    exact .refl
  | call o k ih => exact .head (.call (hstep s o)) (ih _ hrun)
  | halt => cases hrun

theorem run_eq_of_fst {h : σ → (o : I.Op) → I.Ans o × σ} {p : Prog I α} {s : σ} {a : α}
    (hrun : (p.run h s).1 = some a) : p.run h s = (some a, (p.run h s).2) := Prod.ext hrun rfl

/-- What is left of a program after this many operations, with these answers. -/
def Prog.advance (answer : σ → (o : I.Op) → Option (I.Ans o × σ)) :
    ℕ → Prog I α → σ → Option (Prog I α × σ)
  | 0, p, s => some (p, s)
  | n + 1, .call o k, s => (answer s o).bind fun r => (k r.1).advance answer n r.2
  | _ + 1, _, _ => none

theorem reaches_advance {answer : σ → (o : I.Op) → Option (I.Ans o × σ)}
    (hanswer : ∀ s o a s', answer s o = some (a, s') → W.step s o a s') {n : ℕ} {p : Prog I α} {s : σ}
    {d : Prog I α × σ} (h : p.advance answer n s = some d) : Reaches W (p, s) d := by
  induction n generalizing p s with
  | zero =>
    cases h
    exact .refl
  | succ n ih =>
    cases p with
    | call o k =>
      obtain ⟨r, hr, hrest⟩ := Option.bind_eq_some_iff.mp h
      exact .head (.call (hanswer s o r.1 r.2 hr)) (ih hrest)
    | _ => cases h

/-- A program keeps what every step of its world keeps. -/
theorem wp_of_invariant {P : σ → Prop} (hpermits : ∀ s o, W.permits s o) (hhalts : W.halts)
    (hstep : ∀ s o a s', P s → W.step s o a s' → P s') (p : Prog I α) {s : σ} (hs : P s) :
    wp W p (fun _ s' => P s') s := by
  induction p generalizing s with
  | pure a => exact hs
  | call o k ih => exact ⟨hpermits s o, fun a s' h => ih a (hstep s o a s' hs h)⟩
  | halt => exact hhalts

theorem reaches_of_invariant {P : σ → Prop} (hstep : ∀ s o a s', P s → W.step s o a s' → P s')
    {p q : Prog I α} {s s' : σ} (hs : P s) (h : Reaches W (p, s) (q, s')) : P s' := by
  have key : ∀ d, Reaches W (p, s) d → P d.2 := by
    intro d hd
    induction hd with
    | refl => exact hs
    | tail _ hone ih =>
      cases hone with
      | call h => exact hstep _ _ _ _ ih h
  exact key _ h

end Effects
