import FqClient.Effects.Method

namespace Effects

variable {I : Interface} {κ κ' ε α α' β β' σ τ : Type}

/-- The environments of two programs. From a miss in the second one on, nothing is said of them. -/
structure Pairing (I : Interface) (σ τ : Type) where
  first : σ → (o : I.Op) → I.Ans o × σ
  second : τ → (o : I.Op) → I.Ans o × τ
  missed : τ → Prop
  stays : ∀ t o, missed t → missed (second t o).2
  level : σ → τ → Prop

namespace Pairing

variable {P : Pairing I σ τ}

/-- Two runs end together: with results that `Q` relates, or both cut short. -/
def Ended (P : Pairing I σ τ) (Q : α → β → σ → τ → Prop) : Option α × σ → Option β × τ → Prop
  | (some a, s), (some b, t) => Q a b s t
  | (none, s), (none, t) => P.level s t
  | _, _ => False

def Together (P : Pairing I σ τ) (Q : α → β → σ → τ → Prop) (p : Prog I α) (q : Prog I β) (s : σ)
    (t : τ) : Prop :=
  P.missed (q.run P.second t).2 ∨ P.Ended Q (p.run P.first s) (q.run P.second t)

section Programs
variable {Q R : α → β → σ → τ → Prop} {p : Prog I α} {q : Prog I β} {s : σ} {t : τ}

theorem missed_run (q : Prog I β) (h : P.missed t) : P.missed (q.run P.second t).2 := by
  induction q generalizing t with
  | pure b => exact h
  | call o k ih => exact ih _ (P.stays t o h)
  | halt => exact h

theorem together_pure {a : α} {b : β} (h : Q a b s t) : P.Together Q (.pure a) (.pure b) s t :=
  Or.inr h

theorem together_halt (h : P.level s t) : P.Together Q .halt .halt s t := Or.inr h

theorem together_first {o : I.Op} {k : I.Ans o → Prog I α}
    (h : P.Together Q (k (P.first s o).1) q (P.first s o).2 t) :
    P.Together Q (.call o k) q s t := h

theorem together_second {o : I.Op} {k : I.Ans o → Prog I β}
    (h : P.Together Q p (k (P.second t o).1) s (P.second t o).2) :
    P.Together Q p (.call o k) s t := h

theorem Together.mono (h : P.Together Q p q s t) (hQ : ∀ a b s' t', Q a b s' t' → R a b s' t') :
    P.Together R p q s t := by
  refine h.imp_right ?_
  generalize p.run P.first s = x, q.run P.second t = y
  obtain ⟨_ | a, s'⟩ := x <;> obtain ⟨_ | b, t'⟩ := y
  · exact id
  · exact id
  · exact id
  · exact hQ a b s' t'

theorem Together.bind {Q : α' → β' → σ → τ → Prop} {f : α → Prog I α'} {g : β → Prog I β'}
    (h : P.Together (fun a b s' t' => P.Together Q (f a) (g b) s' t') p q s t) :
    P.Together Q (p >>= f) (q >>= g) s t := by
  unfold Together at h ⊢
  rw [Prog.run_bind, Prog.run_bind]
  generalize p.run P.first s = x, q.run P.second t = y at h
  obtain ⟨_ | a, s'⟩ := x <;> obtain ⟨_ | b, t'⟩ := y
  · exact h
  · exact Or.inl (missed_run _ (h.resolve_right id))
  · exact Or.inl (h.resolve_right id)
  · rcases h with h | h
    · exact Or.inl (missed_run _ h)
    · exact h

end Programs

/-! ## Methods side by side -/

/-- Two methods run on two objects. -/
def Both (P : Pairing I σ τ) (Q : Except ε α → Except ε β → κ → κ → σ → τ → Prop)
    (m : Method I κ ε α) (m' : Method I κ ε β) (c c' : κ) (s : σ) (t : τ) : Prop :=
  P.Together (fun x y s' t' => Q x.1 y.1 x.2 y.2 s' t') (m c) (m' c') s t

/-- Two results are alike. -/
def Agree (E : ε → ε → Prop) (V : α → β → Prop) : Except ε α → Except ε β → Prop
  | .ok a, .ok b => V a b
  | .error e, .error e' => E e e'
  | _, _ => False

theorem agree_refl {E : ε → ε → Prop} (hE : ∀ e, E e e) (r : Except ε α) : Agree E Eq r r := by
  cases r with
  | ok a => exact rfl
  | error e => exact hE e

/-- The methods keep the environments level, and leave alike results and one object. -/
def Level (P : Pairing I σ τ) (E : ε → ε → Prop) (V : α → β → Prop) (r : Except ε α)
    (r' : Except ε β) (c c' : κ) (s : σ) (t : τ) : Prop := Agree E V r r' ∧ c = c' ∧ P.level s t

def Alike (P : Pairing I σ τ) (E : ε → ε → Prop) (V : α → β → Prop) (m : Method I κ ε α)
    (m' : Method I κ ε β) : Prop := ∀ c s t, P.level s t → P.Both (P.Level E V) m m' c c s t

section Methods
variable {E : ε → ε → Prop} {V : α → β → Prop} {W : α' → β' → Prop} {m : Method I κ ε α}
  {m' : Method I κ ε β} {f : α → Method I κ ε α'} {f' : β → Method I κ ε β'}

theorem Both.bind {Q : Except ε α' → Except ε β' → κ → κ → σ → τ → Prop} {c c' : κ} {s : σ} {t : τ}
    (h : P.Both (fun r r' c₁ c₁' s' t' => match r, r' with
      | .ok a, .ok b => P.Both Q (f a) (f' b) c₁ c₁' s' t'
      | .error e, .error e' => Q (.error e) (.error e') c₁ c₁' s' t'
      | _, _ => False) m m' c c' s t) : P.Both Q (m >>= f) (m' >>= f') c c' s t := by
  refine Together.bind (Together.mono h ?_)
  rintro ⟨_ | a, c₁⟩ ⟨_ | b, c₁'⟩ s' t' h
  · exact together_pure h
  · exact h.elim
  · exact h.elim
  · exact h

theorem Both.alike_bind {c : κ} {s : σ} {t : τ} (h : P.Both (P.Level E V) m m' c c s t)
    (hf : ∀ a b, V a b → P.Alike E W (f a) (f' b)) :
    P.Both (P.Level E W) (m >>= f) (m' >>= f') c c s t := by
  refine Both.bind (Together.mono h ?_)
  rintro ⟨_ | a, c₁⟩ ⟨_ | b, c₁'⟩ s' t' ⟨hagree, rfl, hlevel⟩
  · exact ⟨hagree, rfl, hlevel⟩
  · exact hagree
  · exact hagree
  · exact hf a b hagree c₁ s' t' hlevel

theorem Alike.bind (hm : P.Alike E V m m') (hf : ∀ a b, V a b → P.Alike E W (f a) (f' b)) :
    P.Alike E W (m >>= f) (m' >>= f') := fun c s t h => (hm c s t h).alike_bind hf

theorem alike_pure {a : α} {b : β} (h : V a b) :
    P.Alike E V (Pure.pure a : Method I κ ε α) (Pure.pure b) :=
  fun _ _ _ hlevel => together_pure ⟨h, rfl, hlevel⟩

theorem alike_throw {e e' : ε} (h : E e e') :
    P.Alike E V (throw e : Method I κ ε α) (throw e') :=
  fun _ _ _ hlevel => together_pure ⟨h, rfl, hlevel⟩

theorem alike_ofExcept {r : Except ε α} {r' : Except ε β} (h : Agree E V r r') :
    P.Alike E V (Method.ofExcept r : Method I κ ε α) (Method.ofExcept r') :=
  fun _ _ _ hlevel => together_pure ⟨h, rfl, hlevel⟩

theorem alike_self : P.Alike E Eq (Method.self : Method I κ ε κ) Method.self :=
  fun _ _ _ hlevel => together_pure ⟨rfl, rfl, hlevel⟩

theorem alike_update (g : κ → κ) :
    P.Alike E Eq (Method.update g : Method I κ ε Unit) (Method.update g) :=
  fun _ _ _ hlevel => together_pure ⟨rfl, rfl, hlevel⟩

theorem alike_halt : P.Alike E V (Method.halt : Method I κ ε α) Method.halt :=
  fun _ _ _ hlevel => together_halt hlevel

theorem Alike.attempt (hm : P.Alike E V m m') :
    P.Alike E (Agree E V) (Method.attempt m) (Method.attempt m') := by
  intro c s t hlevel
  refine Together.bind (Together.mono (hm c s t hlevel) ?_)
  intro x y s' t' h
  exact together_pure h

theorem Alike.on (hm : P.Alike E V m m') (c : κ) :
    P.Alike E (fun x y => Agree E V x.1 y.1 ∧ x.2 = y.2) (m.on c : Method I κ' ε _) (m'.on c) := by
  intro k s t hlevel
  refine Together.bind (Together.mono (hm c s t hlevel) ?_)
  intro x y s' t' ⟨hagree, hc, hlevel'⟩
  exact together_pure ⟨⟨hagree, hc⟩, rfl, hlevel'⟩

theorem Alike.ite {p : Prop} [Decidable p] {n : Method I κ ε α} {n' : Method I κ ε β}
    (hm : P.Alike E V m m') (hn : P.Alike E V n n') :
    P.Alike E V (if p then m else n) (if p then m' else n') := by
  split
  · exact hm
  · exact hn

/-- A method is alike itself when both environments answer its operations in one way. -/
theorem alike_same {A : I.Op → Prop} {F : ε → Prop} (hE : ∀ e, E e e)
    (hA : ∀ o, A o → ∀ s t, P.level s t →
      (P.first s o).1 = (P.second t o).1 ∧ P.level (P.first s o).2 (P.second t o).2)
    (hm : m.Only A F) : P.Alike E Eq m m := by
  intro c s t hlevel
  have hm : wp (anything A) (m c) (fun _ _ => True) () := wp_mono (hm c) fun _ _ _ => trivial
  unfold Both
  generalize m c = p at hm
  induction p generalizing s t with
  | pure x => exact together_pure ⟨agree_refl hE x.1, rfl, hlevel⟩
  | call o k ih =>
    obtain ⟨hanswer, hlevel'⟩ := hA o hm.1 s t hlevel
    refine together_first (together_second ?_)
    rw [hanswer]
    exact ih _ _ _ hlevel' (hm.2 _ () trivial)
  | halt => exact together_halt hlevel

theorem both_first {Q : Except ε α → Except ε β → κ → κ → σ → τ → Prop} {o : I.Op}
    {f : I.Ans o → Method I κ ε α} {c c' : κ} {s : σ} {t : τ}
    (h : P.Both Q (f (P.first s o).1) m' c c' (P.first s o).2 t) :
    P.Both Q (Method.perform o >>= f) m' c c' s t := h

theorem both_second {Q : Except ε α → Except ε β → κ → κ → σ → τ → Prop} {o : I.Op}
    {f : I.Ans o → Method I κ ε β} {c c' : κ} {s : σ} {t : τ}
    (h : P.Both Q m (f (P.second t o).1) c c' s (P.second t o).2) :
    P.Both Q m (Method.perform o >>= f) c c' s t := h

end Methods

/-- The same environments, with another relation that runs keep. -/
def relevel (P : Pairing I σ τ) (level : σ → τ → Prop) : Pairing I σ τ := { P with level := level }

theorem Together.of_relevel {L : σ → τ → Prop} {Q : α → β → σ → τ → Prop} {p : Prog I α}
    {q : Prog I β} {s : σ} {t : τ} (h : (P.relevel L).Together Q p q s t)
    (hL : ∀ s t, L s t → P.level s t) : P.Together Q p q s t := by
  refine h.imp_right ?_
  change (P.relevel L).Ended Q (p.run P.first s) (q.run P.second t) → _
  generalize p.run P.first s = x, q.run P.second t = y
  obtain ⟨_ | a, s'⟩ := x <;> obtain ⟨_ | b, t'⟩ := y
  · exact hL s' t'
  · exact id
  · exact id
  · exact id

end Pairing

end Effects
