import FqClient.Effects.Program

namespace Effects

/-- What an environment may do: the operations it permits in a state, the answers it may give to
them with the states that follow, and whether runs may be cut short. -/
structure World (I : Interface) (σ : Type) where
  permits : σ → I.Op → Prop
  step : σ → (o : I.Op) → I.Ans o → σ → Prop
  halts : Prop := True

variable {I : Interface} {α β σ : Type}

/-- Every run of the program in the world only performs permitted operations and, if it ends,
ends as `Q` says. -/
def wp (W : World I σ) : Prog I α → (α → σ → Prop) → σ → Prop
  | .pure a, Q, s => Q a s
  | .call o k, Q, s => W.permits s o ∧ ∀ a s', W.step s o a s' → wp W (k a) Q s'
  | .halt, _, _ => W.halts

section Rules
variable {W : World I σ} {Q R : α → σ → Prop}

@[simp] theorem wp_pure (a : α) (s : σ) : wp W (.pure a) Q s ↔ Q a s := Iff.rfl

@[simp] theorem wp_halt (s : σ) : wp W .halt Q s ↔ W.halts := Iff.rfl

theorem wp_call (o : I.Op) (k : I.Ans o → Prog I α) (s : σ) :
    wp W (.call o k) Q s ↔ W.permits s o ∧ ∀ a s', W.step s o a s' → wp W (k a) Q s' := Iff.rfl

theorem wp_bind (p : Prog I β) (f : β → Prog I α) (s : σ) :
    wp W (p >>= f) Q s ↔ wp W p (fun b s' => wp W (f b) Q s') s := by
  induction p generalizing s with
  | pure b => rfl
  | call o k ih => exact and_congr_right fun _ => forall₃_congr fun a s' _ => ih a s'
  | halt => rfl

theorem wp_mono {p : Prog I α} {s : σ} (h : wp W p Q s) (hQ : ∀ a s', Q a s' → R a s') :
    wp W p R s := by
  induction p generalizing s with
  | pure a => exact hQ a s h
  | call o k ih => exact ⟨h.1, fun a s' hs => ih a (h.2 a s' hs)⟩
  | halt => exact h

theorem wp_and {p : Prog I α} {s : σ} (hQ : wp W p Q s) (hR : wp W p R s) :
    wp W p (fun a s' => Q a s' ∧ R a s') s := by
  induction p generalizing s with
  | pure a => exact ⟨hQ, hR⟩
  | call o k ih => exact ⟨hQ.1, fun a s' hs => ih a (hQ.2 a s' hs) (hR.2 a s' hs)⟩
  | halt => exact hQ

end Rules

/-! ## The world that answers anything and remembers nothing -/

/-- The operations in `P`, with any answers; no run may be cut short. -/
def anything (P : I.Op → Prop) : World I Unit where
  permits _ o := P o
  step _ _ _ _ := True
  halts := False

/-- The frame rule: what the operations of a program keep, the program keeps, and what it returns
does not depend on the world. -/
theorem wp_of_anything {W : World I σ} {P : I.Op → Prop} {Q : α → Prop} {J : σ → Prop}
    {p : Prog I α} (hpermits : ∀ s o, P o → J s → W.permits s o)
    (hstep : ∀ s o a s', P o → J s → W.step s o a s' → J s')
    (hp : wp (anything P) p (fun a _ => Q a) ()) {s : σ} (hs : J s) :
    wp W p (fun a s' => Q a ∧ J s') s := by
  induction p generalizing s with
  | pure a => exact ⟨hp, hs⟩
  | call o k ih =>
    refine ⟨hpermits s o hp.1 hs, ?_⟩
    intro a s' h
    exact ih a (hp.2 a () trivial) (hstep s o a s' hp.1 hs h)
  | halt => exact hp.elim

/-- More operations may be permitted. -/
theorem wp_anything_mono {P P' : I.Op → Prop} {Q : α → Unit → Prop} {p : Prog I α}
    (hP : ∀ o, P o → P' o) (hp : wp (anything P) p Q ()) : wp (anything P') p Q () := by
  induction p with
  | pure a => exact hp
  | call o k ih => exact ⟨hP o hp.1, fun a _ _ => ih a (hp.2 a () trivial)⟩
  | halt => exact hp

/-- No run may be cut short in that world. -/
theorem total_of_anything {P : I.Op → Prop} {Q : α → Unit → Prop} {p : Prog I α}
    (h : wp (anything P) p Q ()) : p.Total := by
  induction p with
  | pure a => exact trivial
  | call o k ih => exact fun a => ih a (h.2 a () trivial)
  | halt => exact h

/-- Every run of the program in the world comes to its end: it is neither cut short nor left without
an answer, and it ends as `Q` says. -/
def Ends (W : World I σ) : Prog I α → (α → σ → Prop) → σ → Prop
  | .pure a, Q, s => Q a s
  | .call o k, Q, s => W.permits s o ∧ (∃ a s', W.step s o a s') ∧
    ∀ a s', W.step s o a s' → Ends W (k a) Q s'
  | .halt, _, _ => False

theorem Ends.mono {W : World I σ} {Q R : α → σ → Prop} {p : Prog I α} {s : σ} (h : Ends W p Q s)
    (hQ : ∀ a s', Q a s' → R a s') : Ends W p R s := by
  induction p generalizing s with
  | pure a => exact hQ a s h
  | call o k ih => exact ⟨h.1, h.2.1, fun a s' hs => ih a (h.2.2 a s' hs)⟩
  | halt => exact h

/-- The world in which an operation is only permitted when it is answered, and no run may be cut
short. -/
def World.live (W : World I σ) : World I σ where
  permits s o := W.permits s o ∧ ∃ a s', W.step s o a s'
  step := W.step
  halts := False

theorem ends_of_live {W : World I σ} {Q : α → σ → Prop} {p : Prog I α} {s : σ}
    (h : wp W.live p Q s) : Ends W p Q s := by
  induction p generalizing s with
  | pure a => exact h
  | call o k ih => exact ⟨h.1.1, h.1.2, fun a s' hs => ih a (h.2 a s' hs)⟩
  | halt => exact h

/-- The environment that answers as the handler does. -/
def answering (h : σ → (o : I.Op) → I.Ans o × σ) : World I σ where
  permits _ _ := True
  step s o a s' := h s o = (a, s')
  halts := False

theorem run_of_wp {h : σ → (o : I.Op) → I.Ans o × σ} {Q : α → σ → Prop} {p : Prog I α} {s : σ}
    (hp : wp (answering h) p Q s) : ∃ a s', p.run h s = (some a, s') ∧ Q a s' := by
  induction p generalizing s with
  | pure a => exact ⟨a, s, rfl, hp⟩
  | call o k ih => exact ih _ (hp.2 _ _ rfl)
  | halt => exact hp.elim

theorem ends_of_wp {W : World I σ} (hanswers : ∀ s o, W.permits s o → ∃ a s', W.step s o a s')
    {Q : α → σ → Prop} {p : Prog I α} {s : σ} (ht : p.Total) (h : wp W p Q s) : Ends W p Q s := by
  induction p generalizing s with
  | pure a => exact h
  | call o k ih => exact ⟨h.1, hanswers s o h.1, fun a s' hs => ih a (ht a) (h.2 a s' hs)⟩
  | halt => exact ht

/-- The steps of the world that meet a condition on the state before them. -/
def World.given (W : World I σ) (C : σ → I.Op → Prop) : World I σ where
  permits := W.permits
  step s o a s' := C s o ∧ W.step s o a s'
  halts := W.halts

/-! ## Runs -/

/-- One operation of a running program. -/
inductive Step (W : World I σ) : Prog I α × σ → Prog I α × σ → Prop
  | call {o : I.Op} {k : I.Ans o → Prog I α} {s s' : σ} {a : I.Ans o} (h : W.step s o a s') :
      Step W (.call o k, s) (k a, s')

/-- The states of a run, the unfinished ones included. -/
abbrev Reaches (W : World I σ) : Prog I α × σ → Prog I α × σ → Prop :=
  Relation.ReflTransGen (Step W)

/-- A run only depends on the steps of its world. -/
theorem reaches_of_step {W W' : World I σ} (hstep : ∀ s o a s', W.step s o a s' → W'.step s o a s')
    {c d : Prog I α × σ} (h : Reaches W c d) : Reaches W' c d := by
  refine Relation.ReflTransGen.mono ?_ _ _ h
  rintro _ _ ⟨hs⟩
  exact .call (hstep _ _ _ _ hs)

theorem wp_step {W : World I σ} {Q : α → σ → Prop} {c d : Prog I α × σ} (h : Step W c d)
    (hw : wp W c.1 Q c.2) : wp W d.1 Q d.2 := by
  cases h with
  | call h => exact hw.2 _ _ h

theorem wp_reaches {W : World I σ} {Q : α → σ → Prop} {p p' : Prog I α} {s s' : σ}
    (hw : wp W p Q s) (h : Reaches W (p, s) (p', s')) : wp W p' Q s' := by
  have key : ∀ d, Reaches W (p, s) d → wp W d.1 Q d.2 := by
    intro d hd
    induction hd with
    | refl => exact hw
    | tail _ hstep ih => exact wp_step hstep ih
  exact key _ h

/-- A finished run ends as the postcondition says. -/
theorem wp_result {W : World I σ} {Q : α → σ → Prop} {p : Prog I α} {s s' : σ} {a : α}
    (hw : wp W p Q s) (h : Reaches W (p, s) (.pure a, s')) : Q a s' := wp_reaches hw h

/-- A run only performs permitted operations. -/
theorem wp_permits {W : World I σ} {Q : α → σ → Prop} {p : Prog I α} {s s' : σ} {o : I.Op}
    {k : I.Ans o → Prog I α} (hw : wp W p Q s) (h : Reaches W (p, s) (.call o k, s')) :
    W.permits s' o := (wp_reaches hw h).1

/-- What every permitted step keeps holds all along the run, finished or not. -/
theorem reaches_invariant {W : World I σ} {Q : α → σ → Prop} {p p' : Prog I α} {s s' : σ}
    (J : σ → Prop) (hstep : ∀ s o a s', J s → W.permits s o → W.step s o a s' → J s')
    (hw : wp W p Q s) (hs : J s) (h : Reaches W (p, s) (p', s')) : J s' := by
  have key : ∀ d, Reaches W (p, s) d → wp W d.1 Q d.2 ∧ J d.2 := by
    intro d hd
    induction hd with
    | refl => exact ⟨hw, hs⟩
    | tail _ ht ih =>
      refine ⟨wp_step ht ih.1, ?_⟩
      cases ht with
      | call h => exact hstep _ _ _ _ ih.2 ih.1.1 h
  exact (key _ h).2

/-! ## The world that answers anything and remembers every event -/

/-- Any operation, any answer; the state is the list of events so far. -/
def record (I : Interface) : World I (List (Event I)) where
  permits _ _ := True
  step log o a log' := log' = log ++ [⟨o, a⟩]

theorem wp_record_call {Q : α → List (Event I) → Prop} (o : I.Op) (k : I.Ans o → Prog I α)
    (log : List (Event I)) :
    wp (record I) (.call o k) Q log ↔ ∀ a, wp (record I) (k a) Q (log ++ [⟨o, a⟩]) := by
  simp [wp_call, record]

/-- Any operation, any answer; the state is what `f` makes of the events so far. -/
def monitor (f : σ → Event I → σ) : World I σ where
  permits _ _ := True
  step s o a s' := s' = f s ⟨o, a⟩

theorem wp_monitor_call {f : σ → Event I → σ} {Q : α → σ → Prop} (o : I.Op)
    (k : I.Ans o → Prog I α) (s : σ) :
    wp (monitor f) (.call o k) Q s ↔ ∀ a, wp (monitor f) (k a) Q (f s ⟨o, a⟩) := by
  simp [wp_call, monitor]

/-- What holds of every monitored run holds of the log of every run. -/
theorem wp_record_of_monitor {f : σ → Event I → σ} {Q : α → σ → Prop} {p : Prog I α} {s : σ}
    {log : List (Event I)} (h : wp (monitor f) p Q (log.foldl f s)) :
    wp (record I) p (fun a log' => Q a (log'.foldl f s)) log := by
  induction p generalizing log with
  | pure a => exact h
  | call o k ih =>
    rw [wp_monitor_call] at h
    rw [wp_record_call]
    intro a
    apply ih a
    rw [List.foldl_append]
    exact h a
  | halt => trivial

/-- The recording world with the operations it permits restricted. -/
def guarded (permits : List (Event I) → I.Op → Prop) : World I (List (Event I)) where
  permits := permits
  step := (record I).step

/-- A guarded run is a recorded run, and the guard holds at each of its operations. -/
theorem reaches_guarded {permits : List (Event I) → I.Op → Prop} {c d : Prog I α × List (Event I)}
    (h : Reaches (record I) c d) : Reaches (guarded permits) c d := by
  refine reaches_of_step ?_ h
  exact fun _ _ _ _ hs => hs

theorem reaches_play (script : List ((o : I.Op) → I.Ans o)) (p : Prog I α)
    (log : List (Event I)) : Reaches (record I) (p, log) (p.play script log) := by
  induction script generalizing p log with
  | nil => cases p <;> exact .refl
  | cons a script ih =>
    cases p with
    | pure _ => exact .refl
    | halt => exact .refl
    | call o k => exact .head (.call rfl) (ih (k (a o)) (log ++ [⟨o, a o⟩]))

theorem reaches_of_outcome (script : List ((o : I.Op) → I.Ans o)) {p : Prog I α} {a : α}
    (h : (p.play script []).1.outcome = some a) :
    Reaches (record I) (p, []) (.pure a, (p.play script []).2) := by
  rw [← Prog.eq_pure_of_outcome h]
  exact reaches_play script p []

end Effects
