import Mathlib.Logic.Relation

namespace Effects

/-- The operations a program may ask of its environment, each with the type of its answers. -/
structure Interface where
  Op : Type
  Ans : Op → Type

/-- A program over an interface. `halt` is a run cut short: a loop that has used up the rounds
it was given and is still going. -/
inductive Prog (I : Interface) (α : Type) : Type
  | pure (a : α)
  | call (o : I.Op) (k : I.Ans o → Prog I α)
  | halt

variable {I : Interface} {α β σ : Type}

namespace Prog

def bind : Prog I α → (α → Prog I β) → Prog I β
  | .pure a, f => f a
  | .call o k, f => .call o fun a => (k a).bind f
  | .halt, _ => .halt

instance : Monad (Prog I) where
  pure := Prog.pure
  bind := Prog.bind

/-- One operation, and its answer. -/
def perform (o : I.Op) : Prog I (I.Ans o) := .call o .pure

@[simp] theorem pure_bind' (a : α) (f : α → Prog I β) : (Prog.pure a >>= f) = f a := rfl

@[simp] theorem monad_pure_eq (a : α) : (Pure.pure a : Prog I α) = .pure a := rfl

@[simp] theorem call_bind (o : I.Op) (k : I.Ans o → Prog I α) (f : α → Prog I β) :
    (Prog.call o k >>= f) = .call o fun a => k a >>= f := rfl

@[simp] theorem halt_bind (f : α → Prog I β) : ((.halt : Prog I α) >>= f) = .halt := rfl

@[simp] theorem perform_bind (o : I.Op) (f : I.Ans o → Prog I β) :
    (perform o >>= f) = .call o f := rfl

theorem bind_pure' (p : Prog I α) : (p >>= Prog.pure) = p := by
  induction p with
  | pure a => rfl
  | call o k ih => rw [call_bind]; exact congrArg (Prog.call o) (funext ih)
  | halt => rfl

theorem bind_assoc' {γ : Type} (p : Prog I α) (f : α → Prog I β) (g : β → Prog I γ) :
    (p >>= f >>= g) = p >>= fun a => f a >>= g := by
  induction p with
  | pure a => rfl
  | call o k ih => simp only [call_bind, ih]
  | halt => rfl

/-- No run of the program is cut short. -/
def Total : Prog I α → Prop
  | .pure _ => True
  | .call _ k => ∀ a, Total (k a)
  | .halt => False

theorem Total.bind {p : Prog I α} {f : α → Prog I β} (hp : Total p) (hf : ∀ a, Total (f a)) :
    Total (p >>= f) := by
  induction p with
  | pure a => exact hf a
  | call o k ih => exact fun a => ih a (hp a)
  | halt => exact hp

/-- Runs the program against a deterministic environment; `none` is a run cut short. -/
def run (h : σ → (o : I.Op) → I.Ans o × σ) : Prog I α → σ → Option α × σ
  | .pure a, s => (some a, s)
  | .call o k, s => (k (h s o).1).run h (h s o).2
  | .halt, s => (none, s)

section Run
variable (h : σ → (o : I.Op) → I.Ans o × σ)

@[simp] theorem run_pure (a : α) (s : σ) : (Prog.pure a : Prog I α).run h s = (some a, s) := rfl

@[simp] theorem run_halt (s : σ) : (.halt : Prog I α).run h s = (none, s) := rfl

@[simp] theorem run_call (o : I.Op) (k : I.Ans o → Prog I α) (s : σ) :
    (Prog.call o k).run h s = (k (h s o).1).run h (h s o).2 := rfl

theorem run_bind (p : Prog I α) (f : α → Prog I β) (s : σ) :
    (p >>= f).run h s =
      match p.run h s with
      | (some a, s') => (f a).run h s'
      | (none, s') => (none, s') := by
  induction p generalizing s with
  | pure a => rfl
  | call o k ih => exact ih _ _
  | halt => rfl

end Run

end Prog

/-- One operation with the answer it got. -/
abbrev Event (I : Interface) := (o : I.Op) × I.Ans o

namespace Prog

/-- What a finished program returned. -/
def outcome : Prog I α → Option α
  | .pure a => some a
  | _ => none

theorem eq_pure_of_outcome {p : Prog I α} {a : α} (h : p.outcome = some a) : p = .pure a := by
  cases p with
  | pure b => exact congrArg _ (Option.some.inj h)
  | call o k => cases h
  | halt => cases h

/-- Runs the program on a list of answers and records the events. -/
def play : List ((o : I.Op) → I.Ans o) → Prog I α → List (Event I) → Prog I α × List (Event I)
  | a :: script, .call o k, log => (k (a o)).play script (log ++ [⟨o, a o⟩])
  | _, p, log => (p, log)

end Prog

end Effects
