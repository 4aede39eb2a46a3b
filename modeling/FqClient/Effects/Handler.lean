import FqClient.Effects.Contract

namespace Effects

variable {I J : Interface} {α β κ σ τ : Type}

/-- Runs a program with its operations carried out by programs over another interface, which share
a state. -/
def Prog.handled (h : (o : I.Op) → κ → Prog J (I.Ans o × κ)) : Prog I α → κ → Prog J (α × κ)
  | .pure a, c => .pure (a, c)
  | .call o k, c => h o c >>= fun r => (k r.1).handled h r.2
  | .halt, _ => .halt

section Handled
variable {h : (o : I.Op) → κ → Prog J (I.Ans o × κ)}

@[simp] theorem Prog.handled_pure (a : α) (c : κ) :
    (Prog.pure a : Prog I α).handled h c = .pure (a, c) := rfl

@[simp] theorem Prog.handled_call (o : I.Op) (k : I.Ans o → Prog I α) (c : κ) :
    (Prog.call o k).handled h c = h o c >>= fun r => (k r.1).handled h r.2 := rfl

theorem Prog.handled_bind (p : Prog I β) (f : β → Prog I α) (c : κ) :
    (p >>= f).handled h c = p.handled h c >>= fun r => (f r.1).handled h r.2 := by
  induction p generalizing c with
  | pure b => rfl
  | call o k ih =>
    rw [call_bind, handled_call, handled_call, bind_assoc']
    refine congrArg _ ?_
    funext r
    exact ih r.1 r.2
  | halt => rfl

/-- The rule of handlers: a contract over what the operations do holds of the handled program, when
the program of each operation does that. -/
theorem wp_handled {V : World I (κ × σ)} {W : World J σ}
    (hop : ∀ o c s, V.permits (c, s) o → wp W (h o c) (fun r s' => V.step (c, s) o r.1 (r.2, s')) s)
    (hhalts : V.halts → W.halts) {p : Prog I α} {Q : α → κ × σ → Prop} {c : κ} {s : σ}
    (hp : wp V p Q (c, s)) : wp W (p.handled h c) (fun r s' => Q r.1 (r.2, s')) s := by
  induction p generalizing c s with
  | pure a => exact hp
  | call o k ih =>
    rw [Prog.handled_call, wp_bind]
    refine wp_mono (hop o c s hp.1) ?_
    intro r s' hstep
    exact ih r.1 (hp.2 r.1 (r.2, s') hstep)
  | halt => exact hhalts hp

/-- A handled program is not cut short where neither it is nor its operations are. -/
theorem Prog.Total.handled {p : Prog I α} (hp : p.Total) (hop : ∀ o c, (h o c).Total) (c : κ) :
    (p.handled h c).Total := by
  induction p generalizing c with
  | pure a => exact trivial
  | call o k ih => exact (hop o c).bind fun r => ih r.1 (hp r.1) r.2
  | halt => exact hp

/-- Operations that the handler hands on are performed as they are. -/
theorem Prog.handled_of_anything {h : (o : I.Op) → κ → Prog I (I.Ans o × κ)} {P : I.Op → Prop}
    {c : κ} (hforward : ∀ o, P o → h o c = .call o fun a => .pure (a, c)) {p : Prog I α}
    {Q : α → Unit → Prop} (hp : wp (anything P) p Q ()) :
    p.handled h c = p >>= fun a => .pure (a, c) := by
  induction p with
  | pure a => rfl
  | call o k ih =>
    rw [handled_call, hforward o hp.1, call_bind, call_bind]
    refine congrArg _ ?_
    funext a
    exact ih a (hp.2 a () trivial)
  | halt => rfl

end Handled

/-- Continuations that agree on what a program may return give equal programs. -/
theorem bind_congr_of_wp {p : Prog I β} {f g : β → Prog I α}
    (h : wp (monitor fun (_ : Unit) (_ : Event I) => ()) p (fun b _ => f b = g b) ()) :
    (p >>= f) = p >>= g := by
  induction p with
  | pure b => exact h
  | call o k ih =>
    rw [Prog.call_bind, Prog.call_bind]
    refine congrArg _ ?_
    funext a
    exact ih a (h.2 a () rfl)
  | halt => rfl

end Effects
