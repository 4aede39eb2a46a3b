import FqClient.Network

namespace FqClient

open Effects

/-! ## The operations of the pools -/

/-- What a pool does with its flag, its queue of slots, its factory and the connections `C` that
the factory makes. An empty slot stands for a connection that is yet to be opened. -/
inductive PoolOp (C : Type)
  | closedFlag
  | setClosed
  | getNowait
  /-- `_take`. -/
  | take (deadline : Deadline)
  | put (slot : Option C)
  | factory
  | closed (connection : C)
  | close (connection : C)
  /-- `wait_closed`, after `close` in asyncio. -/
  | waitClosed (connection : C)
  /-- The body of the `with` block. -/
  | hold (connection : C)

/-- `getNowait` answers `none` for `queue.Empty`, and `put` answers whether there was room. -/
@[reducible] def PoolOp.Answer {C : Type} : PoolOp C → Type
  | .closedFlag | .closed _ => Bool
  | .setClosed | .close _ | .waitClosed _ => Unit
  | .getNowait => Option (Option C)
  | .take _ => Except Exc (Option C)
  | .put _ => Bool
  | .factory => Except Exc C
  | .hold _ => Except Exc Unit

@[reducible] def PoolOps (C : Type) : Interface where
  Op := PoolOp C
  Ans := PoolOp.Answer

/-- Code of a pool. -/
abbrev PoolM (C α : Type) := Method (PoolOps C) Unit Exc α

namespace Pool

variable {C : Type} {κ : Type}

/-- Performs one operation. -/
def perform (op : PoolOp C) : Method (PoolOps C) κ Exc op.Answer := fun c =>
  .call op fun answer => .pure (.ok answer, c)

theorem wpm_perform_op {σ : Type} {W : World (PoolOps C) σ} {op : PoolOp C}
    {Q : Except Exc op.Answer → κ → σ → Prop} {c : κ} {s : σ} :
    wpm W (perform op) Q c s ↔
      W.permits s op ∧ ∀ answer s', W.step s op answer s' → Q (.ok answer) c s' := Iff.rfl

/-- `put` or `put_nowait`. -/
def put (slot : Option C) : Method (PoolOps C) κ Exc Unit := do
  if ← perform (.put slot) then return () else throw .queueFull

/-- `close` of a connection; what it waits for is the socket's own closing. -/
def closeOne (connection : C) : Method (PoolOps C) κ Exc Unit := do
  perform (.close connection)
  perform (.waitClosed connection)

/-- The loop of `prefill`, on the connections opened so far. -/
def fill : ℕ → Method (PoolOps C) (List C) Exc Unit
  | 0 => return ()
  | count + 1 => do
    match ← perform .getNowait with
    | none => throw .queueEmpty
    | some _ => do
      let connection ← Method.ofExcept (← perform .factory)
      Method.update (· ++ [connection])
      fill count

/-- `for connection in opened: connection.close()`. -/
def closeAll : List C → PoolM C Unit
  | [] => return ()
  | connection :: opened => do
    closeOne connection
    closeAll opened

def putAll : List (Option C) → PoolM C Unit
  | [] => return ()
  | slot :: slots => do
    put slot
    putAll slots

/-- Opens every connection upfront. -/
def prefill (size : ℕ) : PoolM C Unit := do
  let (outcome, opened) ← (fill size).on []
  match outcome with
  | .ok _ => putAll (opened.map some)
  | .error e => do
    closeAll opened
    putAll (List.replicate opened.length none)
    throw e

/-- `acquire` up to its `yield`. -/
def acquire (deadline : Deadline) : PoolM C C := do
  if ← perform .closedFlag then throw .poolClosed
  else do
    match ← Method.ofExcept (← perform (.take deadline)) with
    | some connection => return connection
    | none => do
      match ← perform .factory with
      | .ok connection => return connection
      | .error e => do
        put none
        throw e

def release (connection : C) : PoolM C Unit := do
  if ← perform .closedFlag then closeOne connection
  else do
    let closed ← perform (.closed connection)
    put (if closed then none else some connection)

/-- `with pool.acquire(deadline) as connection`. -/
def withConnection (deadline : Deadline) : PoolM C Unit := do
  let connection ← acquire deadline
  let outcome ← perform (.hold connection)
  release connection
  Method.ofExcept outcome

/-- The `while True` loop of `close` and `aclose`. -/
def drain : (rounds : ℕ) → PoolM C Unit
  | 0 => Method.halt
  | rounds + 1 => do
    match ← perform .getNowait with
    | none => return ()
    | some none => drain rounds
    | some (some connection) => do
      closeOne connection
      drain rounds

/-- `close` and `aclose`. -/
def close (rounds : ℕ) : PoolM C Unit := do
  if ← perform .closedFlag then return ()
  else do
    perform .setClosed
    drain rounds

end Pool

end FqClient
