import FqClient.Effects.Contract
import Mathlib.Data.List.Forall2

namespace Effects

/-- A program that may end in an exception. -/
abbrev Task (I : Interface) (ε α : Type) := Prog I (Except ε α)

/-- A method of an object: it may perform operations, change the object and raise. What it did
to the object before raising stays done. -/
def Method (I : Interface) (κ ε α : Type) := κ → Prog I (Except ε α × κ)

variable {I : Interface} {κ ε α β σ : Type}

namespace Method

def pure (a : α) : Method I κ ε α := fun c => .pure (.ok a, c)

def throw (e : ε) : Method I κ ε α := fun c => .pure (.error e, c)

def bind (m : Method I κ ε α) (f : α → Method I κ ε β) : Method I κ ε β := fun c =>
  m c >>= fun
    | (.ok a, c') => f a c'
    | (.error e, c') => .pure (.error e, c')

def tryCatch (m : Method I κ ε α) (handler : ε → Method I κ ε α) : Method I κ ε α := fun c =>
  m c >>= fun
    | (.ok a, c') => .pure (.ok a, c')
    | (.error e, c') => handler e c'

instance : Monad (Method I κ ε) where
  pure := Method.pure
  bind := Method.bind

instance : MonadExceptOf ε (Method I κ ε) where
  throw := Method.throw
  tryCatch := Method.tryCatch

theorem id_map' (m : Method I κ ε α) : id <$> m = m := by
  funext c
  change (m c >>= _) = m c
  refine Eq.trans (congrArg _ ?_) (Prog.bind_pure' (m c))
  funext ⟨r, c'⟩
  cases r <;> rfl

theorem bind_assoc' {γ : Type} (m : Method I κ ε α) (f : α → Method I κ ε β)
    (g : β → Method I κ ε γ) : (m >>= f >>= g) = m >>= fun a => f a >>= g := by
  funext c
  change (m c >>= _ >>= _) = (m c >>= _)
  rw [Prog.bind_assoc']
  refine congrArg _ ?_
  funext ⟨r, c'⟩
  cases r <;> rfl

instance : LawfulMonad (Method I κ ε) :=
  LawfulMonad.mk' _ id_map' (fun _ _ => rfl) bind_assoc'

/-- The object itself. -/
def self : Method I κ ε κ := fun c => .pure (.ok c, c)

def update (f : κ → κ) : Method I κ ε Unit := fun c => .pure (.ok (), f c)

/-- One operation, and its answer. -/
def perform (o : I.Op) : Method I κ ε (I.Ans o) := fun c => .call o fun a => .pure (.ok a, c)

/-- A program that does not touch the object. -/
def lift (p : Task I ε α) : Method I κ ε α := fun c => p >>= fun r => .pure (r, c)

/-- A pure computation that may raise. -/
def ofExcept (r : Except ε α) : Method I κ ε α := fun c => .pure (r, c)

/-- Runs the method and hands over how it ended. -/
def attempt (m : Method I κ ε α) : Method I κ ε (Except ε α) := fun c =>
  m c >>= fun rc => .pure (.ok rc.1, rc.2)

/-- Runs a method on another object, and hands over how it ended and what became of the object. -/
def on {κ' : Type} (m : Method I κ ε α) (c : κ) : Method I κ' ε (Except ε α × κ) := fun c' =>
  m c >>= fun rc => .pure (.ok rc, c')

/-- A loop that has used up its rounds. -/
def halt : Method I κ ε α := fun _ => .halt

end Method

/-- The contract of a method: how it ends, and what the object and the environment are then. -/
def wpm (W : World I σ) (m : Method I κ ε α) (Q : Except ε α → κ → σ → Prop) (c : κ) (s : σ) :
    Prop := wp W (m c) (fun rc s' => Q rc.1 rc.2 s') s

section Rules
variable {W : World I σ} {Q R : Except ε α → κ → σ → Prop} {c : κ} {s : σ}

@[simp] theorem wpm_pure (a : α) : wpm W (Pure.pure a) Q c s ↔ Q (.ok a) c s := Iff.rfl

@[simp] theorem wpm_throw (e : ε) : wpm W (throw e) Q c s ↔ Q (.error e) c s := Iff.rfl

@[simp] theorem wpm_self {Q : Except ε κ → κ → σ → Prop} :
    wpm W Method.self Q c s ↔ Q (.ok c) c s := Iff.rfl

@[simp] theorem wpm_update {Q : Except ε Unit → κ → σ → Prop} (f : κ → κ) :
    wpm W (Method.update f) Q c s ↔ Q (.ok ()) (f c) s := Iff.rfl

@[simp] theorem wpm_halt : wpm W Method.halt Q c s ↔ W.halts := Iff.rfl

@[simp] theorem wpm_ofExcept (r : Except ε α) : wpm W (Method.ofExcept r) Q c s ↔ Q r c s := Iff.rfl

@[simp] theorem wpm_bind (m : Method I κ ε β) (f : β → Method I κ ε α) :
    wpm W (m >>= f) Q c s ↔
      wpm W m (fun r c' s' => match r with
        | .ok b => wpm W (f b) Q c' s'
        | .error e => Q (.error e) c' s') c s := by
  change wp W (m c >>= _) _ s ↔ _
  rw [wp_bind]
  unfold wpm
  have he : ∀ (rc : Except ε β × κ) (s' : σ),
      wp W (match rc with
        | (.ok a, c') => f a c'
        | (.error e, c') => .pure (.error e, c')) (fun rc s' => Q rc.1 rc.2 s') s' ↔
      match rc.1 with
        | .ok b => wp W (f b rc.2) (fun rc s' => Q rc.1 rc.2 s') s'
        | .error e => Q (.error e) rc.2 s' := by
    rintro ⟨r, c'⟩ s'
    cases r <;> rfl
  simp only [he]

@[simp] theorem wpm_map (m : Method I κ ε β) (f : β → α) :
    wpm W (f <$> m) Q c s ↔
      wpm W m (fun r c' s' => match r with
        | .ok b => Q (.ok (f b)) c' s'
        | .error e => Q (.error e) c' s') c s := wpm_bind m _

@[simp] theorem wpm_attempt {Q : Except ε (Except ε β) → κ → σ → Prop} (m : Method I κ ε β) :
    wpm W (Method.attempt m) Q c s ↔ wpm W m (fun r c' s' => Q (.ok r) c' s') c s := by
  unfold wpm Method.attempt
  rw [wp_bind]
  rfl

@[simp] theorem wpm_on {κ' : Type} {c' : κ'} {Q : Except ε (Except ε β × κ) → κ' → σ → Prop}
    (m : Method I κ ε β) :
    wpm W (m.on c) Q c' s ↔ wpm W m (fun r k s' => Q (.ok (r, k)) c' s') c s := by
  unfold wpm Method.on
  rw [wp_bind]
  rfl

@[simp] theorem wpm_lift (p : Task I ε α) :
    wpm W (Method.lift p) Q c s ↔ wp W p (fun r s' => Q r c s') s := by
  unfold wpm Method.lift
  rw [wp_bind]
  rfl

theorem wpm_mono {m : Method I κ ε α} (h : wpm W m Q c s)
    (hQ : ∀ r c' s', Q r c' s' → R r c' s') : wpm W m R c s :=
  wp_mono h fun rc s' => hQ rc.1 rc.2 s'

theorem wpm_and {m : Method I κ ε α} (hQ : wpm W m Q c s) (hR : wpm W m R c s) :
    wpm W m (fun r c' s' => Q r c' s' ∧ R r c' s') c s := wp_and hQ hR

theorem wpm_ite {p : Prop} [Decidable p] (m n : Method I κ ε α) :
    wpm W (if p then m else n) Q c s ↔ if p then wpm W m Q c s else wpm W n Q c s := by
  split <;> rfl

theorem wpm_of_anything {P : I.Op → Prop} {Q : Except ε α → κ → Prop} {J : σ → Prop}
    {m : Method I κ ε α} (hpermits : ∀ s o, P o → J s → W.permits s o)
    (hstep : ∀ s o a s', P o → J s → W.step s o a s' → J s')
    (hm : wpm (anything P) m (fun r c' _ => Q r c') c ()) (hs : J s) :
    wpm W m (fun r c' s' => Q r c' ∧ J s') c s :=
  wp_of_anything (Q := fun rc : Except ε α × κ => Q rc.1 rc.2) hpermits hstep hm hs

end Rules

theorem run_on_bind {κ' : Type} (h : σ → (o : I.Op) → I.Ans o × σ) (m : Method I κ ε β) (c : κ)
    (f : Except ε β × κ → Method I κ' ε α) (c' : κ') (s : σ) :
    ((m.on c >>= f) c').run h s =
      match (m c).run h s with
      | (some rc, s') => (f rc c').run h s'
      | (none, s') => (none, s') := by
  change ((m c >>= _ >>= _) : Prog I (Except ε α × κ')).run h s = _
  rw [Prog.bind_assoc', Prog.run_bind]
  generalize (m c).run h s = result
  obtain ⟨_ | rc, s'⟩ := result <;> rfl

theorem run_method_bind (h : σ → (o : I.Op) → I.Ans o × σ) (m : Method I κ ε β)
    (f : β → Method I κ ε α) (c : κ) (s : σ) :
    ((m >>= f) c).run h s =
      match (m c).run h s with
      | (some (.ok b, c'), s') => (f b c').run h s'
      | (some (.error e, c'), s') => (some (.error e, c'), s')
      | (none, s') => (none, s') := by
  change (m c >>= _ : Prog I (Except ε α × κ)).run h s = _
  rw [Prog.run_bind]
  generalize (m c).run h s = result
  obtain ⟨_ | ⟨_ | _, c'⟩, s'⟩ := result <;> rfl

theorem run_self_bind (h : σ → (o : I.Op) → I.Ans o × σ) (f : κ → Method I κ ε α) (c : κ) (s : σ) :
    ((Method.self >>= f) c).run h s = (f c c).run h s := rfl

theorem run_perform_bind (h : σ → (o : I.Op) → I.Ans o × σ) {o : I.Op}
    (f : I.Ans o → Method I κ ε α) (c : κ) (s : σ) :
    ((Method.perform o >>= f) c).run h s = (f (h s o).1 c).run h (h s o).2 := rfl

/-! ## Methods by what they perform and raise -/

/-- The errors of a pure computation satisfy `E`. -/
def Raises (E : ε → Prop) (r : Except ε α) : Prop := ∀ e, r = .error e → E e

section Raises
variable {E : ε → Prop}

theorem raises_ok (a : α) : Raises E (.ok a) := by
  intro e h
  cases h

theorem raises_error {e : ε} (h : E e) : Raises E (.error e : Except ε α) := by
  intro e' h'
  cases h'
  exact h

theorem Raises.bind {r : Except ε β} {f : β → Except ε α} (hr : Raises E r)
    (hf : ∀ b, Raises E (f b)) : Raises E (r >>= f) := by
  cases r with
  | error e => exact raises_error (hr e rfl)
  | ok b => exact hf b

theorem Raises.mono {E' : ε → Prop} {r : Except ε α} (hr : Raises E' r) (h : ∀ e, E' e → E e) :
    Raises E r := fun e he => h e (hr e he)

theorem Raises.ite {p : Prop} [Decidable p] {r r' : Except ε α} (hr : Raises E r)
    (hr' : Raises E r') : Raises E (if p then r else r') := by
  split
  · exact hr
  · exact hr'

theorem bind_ok_iff {r : Except ε β} {f : β → Except ε α} {a : α} :
    (r >>= f) = .ok a ↔ ∃ b, r = .ok b ∧ f b = .ok a := by
  cases r with
  | error e =>
    constructor
    · intro h
      cases h
    · intro ⟨b, hb, _⟩
      cases hb
  | ok b =>
    constructor
    · intro h
      exact ⟨b, rfl, h⟩
    · intro ⟨b', hb, hf⟩
      cases hb
      exact hf

theorem raises_mapM {γ : Type} {f : γ → Except ε α} (hf : ∀ x, Raises E (f x)) (l : List γ) :
    Raises E (l.mapM f) := by
  induction l with
  | nil => exact raises_ok _
  | cons x l ih =>
    rw [List.mapM_cons]
    exact (hf x).bind fun _ => ih.bind fun _ => raises_ok _

theorem mapM_ok_iff {γ : Type} {f : γ → Except ε α} {R : γ → α → Prop}
    (h : ∀ x a, f x = .ok a ↔ R x a) {l : List γ} {as : List α} :
    l.mapM f = .ok as ↔ List.Forall₂ R l as := by
  induction l generalizing as with
  | nil =>
    rw [List.forall₂_nil_left_iff, List.mapM_nil]
    constructor
    · intro heq
      exact (Except.ok.inj heq).symm
    · intro heq
      exact congrArg Except.ok heq.symm
  | cons x l ih =>
    simp only [List.mapM_cons, bind_ok_iff, h, ih, List.forall₂_cons_left_iff]
    constructor
    · intro ⟨a, ha, as', has, heq⟩
      exact ⟨a, as', ha, has, (Except.ok.inj heq).symm⟩
    · intro ⟨a, as', ha, has, heq⟩
      exact ⟨a, ha, as', has, congrArg Except.ok heq.symm⟩

/-- What holds of each result holds of all of them. -/
theorem forall_of_mapM {γ : Type} {f : γ → Except ε α} {P : α → Prop}
    (hf : ∀ x a, f x = .ok a → P a) {l : List γ} {as : List α} (h : l.mapM f = .ok as) :
    ∀ a ∈ as, P a := by
  rw [mapM_ok_iff (R := fun x a => f x = .ok a) fun _ _ => Iff.rfl] at h
  induction h with
  | nil => exact fun _ ha => absurd ha List.not_mem_nil
  | cons hx _ ih => exact List.forall_mem_cons.mpr ⟨hf _ _ hx, ih⟩

end Raises

/-- The method only performs operations in `P`, only raises what is in `E`, and does not change its
object. -/
def Method.Leaves (P : I.Op → Prop) (E : ε → Prop) (m : Method I κ ε α) : Prop :=
  ∀ c, wpm (anything P) m (fun r c' _ => c' = c ∧ Raises E r) c ()

/-- The method only performs operations in `P` and only raises what is in `E`. -/
def Method.Only (P : I.Op → Prop) (E : ε → Prop) (m : Method I κ ε α) : Prop :=
  ∀ c, wpm (anything P) m (fun r _ _ => Raises E r) c ()

namespace Method.Leaves

variable {P : I.Op → Prop} {E : ε → Prop} {m : Method I κ ε β} {f : β → Method I κ ε α}

theorem pure (a : α) : Leaves P E (Pure.pure a : Method I κ ε α) := fun _ => ⟨rfl, raises_ok a⟩

theorem throw {e : ε} (h : E e) : Leaves P E (throw e : Method I κ ε α) :=
  fun _ => ⟨rfl, raises_error h⟩

theorem ofExcept {r : Except ε α} (h : Raises E r) :
    Leaves P E (Method.ofExcept r : Method I κ ε α) := fun _ => ⟨rfl, h⟩

theorem self : Leaves P E (Method.self : Method I κ ε κ) := fun c => ⟨rfl, raises_ok c⟩

theorem perform {o : I.Op} (h : P o) : Leaves P E (Method.perform o : Method I κ ε (I.Ans o)) :=
  fun _ => ⟨h, fun a _ _ => ⟨rfl, raises_ok a⟩⟩

theorem bind (hm : Leaves P E m) (hf : ∀ b, Leaves P E (f b)) : Leaves P E (m >>= f) := by
  intro c
  rw [wpm_bind]
  refine wpm_mono (hm c) ?_
  rintro (e | b) _ _ ⟨rfl, h⟩
  · exact ⟨rfl, raises_error (h e rfl)⟩
  · exact hf b _

theorem mono {P' : I.Op → Prop} {E' : ε → Prop} (hP : ∀ o, P' o → P o) (hE : ∀ e, E' e → E e)
    (hm : Leaves P' E' m) : Leaves P E m := by
  intro c
  have h : wpm (anything P) m (fun r c' _ => c' = c ∧ Raises E' r) c () := wp_anything_mono hP (hm c)
  refine wpm_mono h ?_
  rintro r c' _ ⟨rfl, hr⟩
  exact ⟨rfl, fun e he => hE e (hr e he)⟩

theorem ite {p : Prop} [Decidable p] {m n : Method I κ ε α} (hm : Leaves P E m)
    (hn : Leaves P E n) : Leaves P E (if p then m else n) := by
  split
  · exact hm
  · exact hn

end Method.Leaves

namespace Method.Only

variable {P : I.Op → Prop} {E : ε → Prop} {m : Method I κ ε β} {f : β → Method I κ ε α}

theorem of_leaves (hm : Leaves P E m) : Only P E m := fun c => wpm_mono (hm c) fun _ _ _ h => h.2

theorem pure (a : α) : Only P E (Pure.pure a : Method I κ ε α) := fun _ => raises_ok a

theorem throw {e : ε} (h : E e) : Only P E (throw e : Method I κ ε α) := fun _ => raises_error h

theorem ofExcept {r : Except ε α} (h : Raises E r) :
    Only P E (Method.ofExcept r : Method I κ ε α) := fun _ => h

theorem self : Only P E (Method.self : Method I κ ε κ) := fun c => raises_ok c

theorem update (g : κ → κ) : Only P E (Method.update g : Method I κ ε Unit) := fun _ => raises_ok ()

theorem perform {o : I.Op} (h : P o) : Only P E (Method.perform o : Method I κ ε (I.Ans o)) :=
  fun _ => ⟨h, fun a _ _ => raises_ok a⟩

theorem bind (hm : Only P E m) (hf : ∀ b, Only P E (f b)) : Only P E (m >>= f) := by
  intro c
  rw [wpm_bind]
  refine wpm_mono (hm c) ?_
  rintro (e | b) c' _ h
  · exact raises_error (h e rfl)
  · exact hf b c'

theorem bind_ofExcept {r : Except ε β} (hr : Raises E r) (hf : ∀ b, r = .ok b → Only P E (f b)) :
    Only P E (Method.ofExcept r >>= f) := by
  cases r with
  | error e => exact fun _ => raises_error (hr e rfl)
  | ok b => exact hf b rfl

/-- What is caught is in `E` too. -/
theorem bind_attempt {f : Except ε β → Method I κ ε α} (hm : Only P E m)
    (hf : ∀ r, Raises E r → Only P E (f r)) : Only P E (Method.attempt m >>= f) := by
  intro c
  rw [wpm_bind, wpm_attempt]
  exact wpm_mono (hm c) fun r c' _ h => hf r h c'

theorem bind_on {κ' : Type} {m : Method I κ' ε β} {c' : κ'}
    {f : Except ε β × κ' → Method I κ ε α} (hm : Only P E m)
    (hf : ∀ r, Raises E r.1 → Only P E (f r)) : Only P E (m.on c' >>= f) := by
  intro c
  rw [wpm_bind, wpm_on]
  exact wpm_mono (hm c') fun r k _ h => hf (r, k) h c

theorem ite {p : Prop} [Decidable p] {m n : Method I κ ε α} (hm : Only P E m) (hn : Only P E n) :
    Only P E (if p then m else n) := by
  split
  · exact hm
  · exact hn

end Method.Only

/-- Every run of the method keeps an invariant of its object and the environment. -/
def Method.Preserves (W : World I σ) (J : κ → σ → Prop) (m : Method I κ ε α) : Prop :=
  ∀ c s, J c s → wpm W m (fun _ c' s' => J c' s') c s

namespace Method.Preserves

variable {W : World I σ} {J : κ → σ → Prop} {m : Method I κ ε β} {f : β → Method I κ ε α}

theorem pure (a : α) : Preserves W J (Pure.pure a : Method I κ ε α) := fun _ _ h => h

theorem throw (e : ε) : Preserves W J (throw e : Method I κ ε α) := fun _ _ h => h

theorem ofExcept (r : Except ε α) : Preserves W J (Method.ofExcept r : Method I κ ε α) :=
  fun _ _ h => h

theorem self : Preserves W J (Method.self : Method I κ ε κ) := fun _ _ h => h

theorem update {g : κ → κ} (h : ∀ c s, J c s → J (g c) s) :
    Preserves W J (Method.update g : Method I κ ε Unit) := h

theorem bind (hm : Preserves W J m) (hf : ∀ b, Preserves W J (f b)) : Preserves W J (m >>= f) := by
  intro c s h
  rw [wpm_bind]
  refine wpm_mono (hm c s h) ?_
  intro r c' s' h'
  cases r with
  | error e => exact h'
  | ok b => exact hf b c' s' h'

theorem attempt (hm : Preserves W J m) :
    Preserves W J (Method.attempt m : Method I κ ε (Except ε β)) := by
  intro c s h
  rw [wpm_attempt]
  exact hm c s h

theorem halt (h : W.halts) : Preserves W J (Method.halt : Method I κ ε α) := fun _ _ _ => h

theorem ite {p : Prop} [Decidable p] {m n : Method I κ ε α} (hm : Preserves W J m)
    (hn : Preserves W J n) : Preserves W J (if p then m else n) := by
  split
  · exact hm
  · exact hn

end Method.Preserves

/-- No run of the method is cut short. -/
def Method.Total (m : Method I κ ε α) : Prop := ∀ c, (m c).Total

section Total
variable {m : Method I κ ε β} {f : β → Method I κ ε α}

theorem Method.total_pure (a : α) : Method.Total (Pure.pure a : Method I κ ε α) := fun _ => trivial

theorem Method.total_throw (e : ε) : Method.Total (throw e : Method I κ ε α) := fun _ => trivial

theorem Method.total_ofExcept (r : Except ε α) :
    Method.Total (Method.ofExcept r : Method I κ ε α) := fun _ => trivial

theorem Method.Total.bind (hm : m.Total) (hf : ∀ b, (f b).Total) : (m >>= f).Total := by
  intro c
  refine Prog.Total.bind (hm c) ?_
  rintro ⟨b | e, c'⟩
  · trivial
  · exact hf _ c'

theorem Method.Total.attempt (hm : m.Total) :
    Method.Total (Method.attempt m : Method I κ ε (Except ε β)) :=
  fun c => (hm c).bind fun _ => trivial

end Total

end Effects
