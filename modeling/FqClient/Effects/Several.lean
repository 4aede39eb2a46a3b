import FqClient.Effects.Tasks

namespace Effects

variable {I : Interface} {ι κ α β σ τ : Type}

/-! ## Several environments of one kind -/

/-- Every operation says which of the environments it is for. -/
@[reducible] def Interface.each (κ : Type) (I : Interface) : Interface where
  Op := κ × I.Op
  Ans o := I.Ans o.2

/-- A program in one of the environments. -/
def Prog.inside (k : κ) : Prog I α → Prog (I.each κ) α
  | .pure a => .pure a
  | .call o f => .call (k, o) fun a => (f a).inside k
  | .halt => .halt

theorem Prog.inside_bind (k : κ) (p : Prog I β) (f : β → Prog I α) :
    (p >>= f).inside k = p.inside k >>= fun b => (f b).inside k := by
  induction p with
  | pure b => rfl
  | call o f ih =>
    rw [call_bind, inside, inside, call_bind]
    congr 1
    funext a
    exact ih a
  | halt => rfl

theorem Prog.inside_eq_pure {k : κ} {p : Prog I α} {a : α}
    (h : p.inside k = .pure a) : p = .pure a := by
  cases p with
  | pure b =>
    cases h
    rfl
  | call | halt => cases h

theorem Prog.inside_eq_call {k k' : κ} {o : I.Op} {p : Prog I α} {f : I.Ans o → Prog (I.each κ) α}
    (h : p.inside k = .call (k', o) f) :
    k' = k ∧ ∃ g : I.Ans o → Prog I α, p = .call o g ∧ f = fun a => (g a).inside k := by
  cases p with
  | call o' g =>
    cases h
    exact ⟨rfl, g, rfl, rfl⟩
  | pure | halt => cases h

theorem parked_inside {k : κ} {awaits : I.Op → Prop} {p : Prog I α} :
    Parked (fun (o : κ × I.Op) => awaits o.2) (p.inside k) ↔ Parked awaits p := by
  cases p <;> exact Iff.rfl

/-- A step is one of the environment that its operation is for, and leaves the others alone. -/
structure Apart (V : ι → World (I.each κ) τ) (W : κ → ι → World I σ) (part : κ → τ → σ) : Prop where
  own : ∀ {i s k o a s'}, (V i).step s (k, o) a s' → (W k i).step (part k s) o a (part k s')
  others : ∀ {i s k o a s' k'}, (V i).step s (k, o) a s' → k' ≠ k → part k' s' = part k' s

section Part
variable [DecidableEq ι] {V : ι → World (I.each κ) τ} {W : κ → ι → World I σ} {part : κ → τ → σ}
  {awaits : I.Op → Prop} {home : ι → κ} {prog : κ → ι → Prog I α} {s : τ}
  {t t' : Tasks (I.each κ) ι α τ}

/-- One of the environments has seen a run of the tasks that are at home there, and task `i` may be
the next one to run there. -/
def Seen (W : κ → ι → World I σ) (part : κ → τ → σ) (awaits : I.Op → Prop) (home : ι → κ)
    (prog : κ → ι → Prog I α) (s : τ) (k : κ) (i : ι) (t : Tasks (I.each κ) ι α τ) : Prop :=
  ∃ first u, Tasks.Reaches (W k) awaits ⟨first, prog k, part k s⟩ u ∧ u.running = i ∧
    u.state = part k t.state ∧ ∀ j, home j = k → t.prog j = (u.prog j).inside k

/-- A task stays at home. -/
theorem inside_step {awaits : (I.each κ).Op → Prop}
    (hhome : ∀ i, ∃ p : Prog I α, t.prog i = p.inside (home i))
    (h : Tasks.Step V awaits t t') (i : ι) : ∃ p : Prog I α, t'.prog i = p.inside (home i) := by
  rcases h.same_or_own i with hsame | ⟨o, f, a, hprog, hnext, _⟩
  · rw [hsame]
    exact hhome i
  · obtain ⟨k, o⟩ := o
    obtain ⟨p, hp⟩ := hhome i
    obtain ⟨_, g, _, rfl⟩ := Prog.inside_eq_call (hp.symm.trans hprog)
    exact ⟨g a, hnext⟩

/-- What the operations of the tasks keep, each at home, every run keeps. -/
theorem Tasks.Reaches.keeps_inside {awaits : (I.each κ).Op → Prop} {P : τ → Prop}
    (hstep : ∀ i s o a s', P s → (V i).step s (home i, o) a s' → P s')
    (hstart : ∀ i, ∃ p : Prog I α, t.prog i = p.inside (home i)) (h : Tasks.Reaches V awaits t t')
    (ht : P t.state) : (∀ i, ∃ p : Prog I α, t'.prog i = p.inside (home i)) ∧ P t'.state := by
  induction h with
  | refl => exact ⟨hstart, ht⟩
  | @tail u u' _ hnext ih =>
    obtain ⟨hhome, hu⟩ := ih
    refine ⟨inside_step hhome hnext, ?_⟩
    cases hnext with
    | @op o f a s' hprog hop =>
      obtain ⟨k, o⟩ := o
      obtain ⟨p, hp⟩ := hhome u.running
      obtain ⟨rfl, _⟩ := Prog.inside_eq_call (hp.symm.trans hprog)
      exact hstep _ _ _ _ _ hu hop
    | switch j hparked => exact hu

theorem seen_step (hapart : Apart V W part)
    (hhome : ∀ i, ∃ p : Prog I α, t.prog i = p.inside (home i))
    (hseen : ∀ k i, (home t.running = k → i = t.running) → Seen W part awaits home prog s k i t)
    (h : Tasks.Step V (fun (o : κ × I.Op) => awaits o.2) t t') (k : κ) (i : ι)
    (hnext : home t'.running = k → i = t'.running) : Seen W part awaits home prog s k i t' := by
  cases h with
  | @op o f a s' hprog hstep =>
    obtain ⟨k', o⟩ := o
    obtain ⟨p, hp⟩ := hhome t.running
    obtain ⟨rfl, _⟩ := Prog.inside_eq_call (hp.symm.trans hprog)
    obtain ⟨first, u, hreaches, hrunning, hstate, hsame⟩ := hseen k i hnext
    by_cases hk : home t.running = k
    · subst hk
      obtain rfl := hnext rfl
      have hown := hprog
      rw [hsame _ rfl] at hown
      obtain ⟨_, g, hu, rfl⟩ := Prog.inside_eq_call hown
      rw [← hrunning] at hu
      have hthere : (W (home t.running) u.running).step u.state o a (part (home t.running) s') := by
        rw [hrunning, hstate]
        exact hapart.own hstep
      refine ⟨first, _, hreaches.tail (.op hu hthere), hrunning, rfl, fun j hj => ?_⟩
      dsimp only
      rw [hrunning]
      by_cases hjt : j = t.running
      · rw [hjt, Function.update_self, Function.update_self]
      · rw [Function.update_of_ne hjt, Function.update_of_ne hjt]
        exact hsame j hj
    · -- the operation is for another environment
      refine ⟨first, u, hreaches, hrunning, ?_, fun j hj => ?_⟩
      · rw [hstate]
        exact (hapart.others hstep (Ne.symm hk)).symm
      · have hjt : j ≠ t.running := fun h => hk (h ▸ hj)
        dsimp only
        rw [Function.update_of_ne hjt]
        exact hsame j hj
  | switch j hparked =>
    by_cases hk : home t.running = k
    · obtain ⟨first, u, hreaches, hrunning, hstate, hsame⟩ := hseen k t.running fun _ => rfl
      rw [hsame _ hk, parked_inside, ← hrunning] at hparked
      exact ⟨first, _, hreaches.tail (.switch i hparked), rfl, hstate, hsame⟩
    · exact hseen k i fun h => absurd h hk

/-- What each environment sees of a run is a run of the tasks that are at home there. -/
theorem Tasks.Reaches.seen (prog : κ → ι → Prog I α) (hapart : Apart V W part)
    (hstart : ∀ i, t.prog i = (prog (home i) i).inside (home i))
    (h : Tasks.Reaches V (fun (o : κ × I.Op) => awaits o.2) t t') (k : κ) :
    ∃ first u, Tasks.Reaches (W k) awaits ⟨first, prog k, part k t.state⟩ u ∧
      u.state = part k t'.state ∧ ∀ i, home i = k → t'.prog i = (u.prog i).inside k := by
  have hinv : (∀ i, ∃ p : Prog I α, t'.prog i = p.inside (home i)) ∧
      ∀ k i, (home t'.running = k → i = t'.running) →
        Seen W part awaits home prog t.state k i t' := by
    induction h with
    | refl =>
      refine ⟨fun i => ⟨_, hstart i⟩, fun k i _ => ⟨i, _, .refl, rfl, rfl, fun j hj => ?_⟩⟩
      rw [hstart j, hj]
    | tail _ hstep ih => exact ⟨inside_step ih.1 hstep, seen_step hapart ih.1 ih.2 hstep⟩
  obtain ⟨first, u, hreaches, _, hstate, hsame⟩ := hinv.2 k t'.running fun _ => rfl
  exact ⟨first, u, hreaches, hstate, hsame⟩

end Part

end Effects
