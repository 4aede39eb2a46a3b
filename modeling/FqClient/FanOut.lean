import FqClient.Packages

namespace FqClient

open Effects

/-- `(event, error)` in the queue of a fan-out. -/
abbrev FanItem (T : Type) := Option T × Option Exc

/-- What the workers and the generator of a fan-out over shards `ι` do with threads, streams, the
queue, the stop event and the consumer. -/
inductive FanOp (ι T : Type)
  | start (shard : ι)
  /-- The next event of the worker's own stream. -/
  | next
  | put (item : FanItem T)
  | stopIsSet
  | get
  | awaitGet
  | yieldEvent (event : T)
  | setStop
  | join (shard : ι)
  | cancel (shard : ι)
  | gather

/-- `next` answers `none` when the stream has ended. -/
@[reducible] def FanOp.Answer {ι T : Type} : FanOp ι T → Type
  | .start _ | .put _ | .setStop | .join _ | .cancel _ => Unit
  | .next => Except Exc (Option T)
  | .stopIsSet => Bool
  | .get => FanItem T
  | .awaitGet => Except Cancelled (FanItem T)
  | .yieldEvent _ => Resume
  | .gather => Except Cancelled Unit

@[reducible] def FanOps (ι T : Type) : Interface where
  Op := FanOp ι T
  Ans := FanOp.Answer

abbrev FanM (ι T α : Type) := Method (FanOps ι T) Unit Exc α

namespace FanOut

variable {ι T : Type}

def perform (op : FanOp ι T) : FanM ι T op.Answer := fun c =>
  .call op fun answer => .pure (.ok answer, c)

theorem wpm_perform_op {σ : Type} {W : World (FanOps ι T) σ} {op : FanOp ι T}
    {Q : Except Exc op.Answer → Unit → σ → Prop} {c : Unit} {s : σ} :
    wpm W (perform op) Q c s ↔
      W.permits s op ∧ ∀ answer s', W.step s op answer s' → Q (.ok answer) c s' := Iff.rfl

/-- `for shard in shards: f(shard)`. -/
def each (f : ι → FanM ι T Unit) : List ι → FanM ι T Unit
  | [] => return ()
  | shard :: shards => do
    f shard
    each f shards

/-- The loop of a worker. -/
def produce (p : Package) : (rounds : ℕ) → FanM ι T Unit
  | 0 => Method.halt
  | rounds + 1 => do
    match ← Method.ofExcept (← perform .next) with
    | none => return ()
    | some event => do
      perform (.put (some event, none))
      match p with
      | .sync => if ← perform .stopIsSet then return () else produce p rounds
      | .aio => produce p rounds

/-- `worker`. Only the asyncio one lets a cancellation through. -/
def worker (p : Package) (rounds : ℕ) : FanM ι T Unit := do
  match ← Method.attempt (produce p rounds) with
  | .ok _ => return ()
  | .error e => if p = .aio ∧ e = .cancelled then throw e else perform (.put (none, some e))

def receive : Package → FanM ι T (FanItem T)
  | .sync => perform .get
  | .aio => do
    match ← perform .awaitGet with
    | .ok item => return item
    | .error _ => throw .cancelled

/-- The `while True` loop of the generator. -/
def merge (p : Package) : (rounds : ℕ) → FanM ι T Unit
  | 0 => Method.halt
  | rounds + 1 => do
    match ← receive p with
    | (_, some error) => throw error
    | (some event, none) => do
      match ← perform (.yieldEvent event) with
      | .next => merge p rounds
      | .close => throw .generatorExit
    | (none, none) => throw .assertionError

/-- The `finally` block. -/
def finish (shards : List ι) : Package → FanM ι T Unit
  | .sync => do
    perform .setStop
    each (fun shard => perform (.join shard)) shards
  | .aio => do
    each (fun shard => perform (.cancel shard)) shards
    match ← perform .gather with
    | .ok _ => return ()
    | .error _ => throw .cancelled

/-- `_fan_out`. -/
def fanOut (p : Package) (shards : List ι) (rounds : ℕ) : FanM ι T Unit := do
  each (fun shard => perform (.start shard)) shards
  let outcome ← Method.attempt (merge p rounds)
  finish shards p
  Method.ofExcept outcome

end FanOut

end FqClient
