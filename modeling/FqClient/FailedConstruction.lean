import FqClient.Construction
import FqClient.Contracts
import Mathlib.Algebra.BigOperators.Group.List.Basic
import Mathlib.Algebra.Order.Group.Multiset

namespace FqClient.FailedConstruction

open Effects Pool

/-! ## The sockets that are open -/

/-- The sockets opened so far and not closed again. -/
def track (opened : Multiset SockId) : Event Net → Multiset SockId
  | ⟨.createConnection _ _ _, .ok sock⟩ => sock ::ₘ opened
  | ⟨.openConnection _ _ _, .ok sock⟩ => sock ::ₘ opened
  | ⟨.closeSocket sock, _⟩ => opened.erase sock
  | _ => opened

/-- Any operation, any answer. -/
abbrev env : World Net (Multiset SockId) := (monitor track).live

theorem permitted (s : Multiset SockId) (op : NetOp) : env.permits s op :=
  ⟨trivial, op.calm, _, rfl⟩

theorem keeps_exchanging (s : Multiset SockId) : Keeps env NetOp.Exchanging (· = s) := by
  intro s₁ op hop hs
  refine ⟨permitted s₁ op, fun a s' hstep => ?_⟩
  rw [← hs]
  cases op <;> first | exact hop.elim | exact hstep

theorem dialer (s : Multiset SockId) : Dialer env (· = s) (fun sock s' => s' = sock ::ₘ s) where
  timeout s₁ delay hs := by
    refine ⟨permitted s₁ _, fun a s' hstep => ?_⟩
    exact Eq.trans hstep hs
  create s₁ host port timeout hs := by
    refine ⟨permitted s₁ _, fun a s' hstep => ?_⟩
    cases a with
    | ok sock => exact Eq.trans hstep (congrArg (sock ::ₘ ·) hs)
    | error fault => exact Eq.trans hstep hs
  openTo s₁ host port hostname hs := by
    refine ⟨permitted s₁ _, fun a s' hstep => ?_⟩
    cases a with
    | ok sock => exact Eq.trans hstep (congrArg (sock ::ₘ ·) hs)
    | error fault => exact Eq.trans hstep hs
  wrap s₁ sock hostname hs := by
    refine ⟨permitted s₁ _, fun a s' hstep => ?_⟩
    exact Eq.trans hstep hs
  close s₁ sock hs := by
    refine ⟨permitted s₁ _, fun a s' hstep => ?_⟩
    rw [show s' = s₁.erase sock from hstep, hs]
    exact Multiset.erase_cons_head sock s

/-! ## One connection -/

/-- The socket of a connection. -/
def own (connection : Connection) : Multiset SockId := connection.sock.elim 0 ({·})

theorem own_of_sock {connection : Connection} {sock : SockId} (h : connection.sock = some sock) :
    own connection = {sock} := by
  unfold own
  rw [h]
  rfl

theorem wpm_close (connection : Connection) (s : Multiset SockId) :
    wpm env closeConnection (fun r _ s' => r = .ok () ∧ s' = s - own connection) connection s := by
  rw [wpm_closeConnection]
  cases hsock : connection.sock with
  | none =>
    refine ⟨rfl, ?_⟩
    rw [own, hsock]
    exact (Multiset.sub_zero s).symm
  | some sock =>
    refine ⟨permitted s _, fun s' hstep => ⟨rfl, ?_⟩⟩
    rw [own_of_sock hsock, Multiset.sub_singleton]
    exact hstep

/-- A connect opens one socket, or leaves none open. -/
theorem wpm_connect_tracked (p : Package) (connection : Connection) (s : Multiset SockId) :
    wpm env p.transport.connect (fun r c' s' => match r with
      | .ok _ => ∃ sock, c'.sock = some sock ∧ s' = sock ::ₘ s
      | .error _ => s' = s) connection s :=
  wpm_connect p (dialer s) (fun _ => keeps_exchanging _) connection rfl

/-! ## What the operations of a pool do to the open sockets -/

/-- A queue with the sockets that are open. -/
abbrev Account := ConnectionPool × Multiset SockId

/-- The first slot, if there is one, is taken. -/
def Pops (a a' : Account) : Option (Option Connection) → Prop
  | none => a.1.slots = [] ∧ a' = a
  | some slot => ∃ slots, a.1.slots = slot :: slots ∧ a' = ({ a.1 with slots := slots }, a.2)

/-- A pool whose factory opens one socket for each connection that it returns. A slot may only be
waited for while there is one. -/
def ledger : World (PoolOps Connection) Account where
  permits a op := match op with
    | .take _ => a.1.slots ≠ []
    | _ => True
  step a op answer a' := match op, answer with
    | .closedFlag, flag => flag = a.1.closed ∧ a' = a
    | .setClosed, _ => a' = ({ a.1 with closed := true }, a.2)
    | .getNowait, slot => Pops a a' slot
    | .take _, .ok slot => Pops a a' (some slot)
    | .take _, .error _ => False
    | .put slot, room =>
      if a.1.slots.length < a.1.size then
        room = true ∧ a' = ({ a.1 with slots := slot :: a.1.slots }, a.2)
      else room = false ∧ a' = a
    | .factory, .ok connection =>
      ∃ sock, connection.sock = some sock ∧ a' = (a.1, sock ::ₘ a.2)
    | .factory, .error _ => a' = a
    | .closed connection, closed => closed = connection.closed ∧ a' = a
    | .close connection, _ => a' = (a.1, a.2 - own connection)
    | .waitClosed _, _ => a' = a
    | .hold _, _ => a' = a
  halts := False

/-- Taking a slot that is there takes the first one. -/
theorem wp_take (p : Package) (deadline : Deadline) {pool : ConnectionPool} (hslots : pool.slots ≠ [])
    (s : Multiset SockId) :
    wp env ((p.transport.take deadline ()).handled ConnectionPool.queue pool)
      (fun r s' => match r.1.1 with
        | .ok slot => Pops (pool, s) (r.2, s') (some slot)
        | .error _ => False) s := by
  obtain ⟨size, slots, closed⟩ := pool
  obtain ⟨slot, slots, rfl⟩ := List.exists_cons_of_ne_nil hslots
  have hpops : Pops (⟨size, slot :: slots, closed⟩, s) (⟨size, slots, closed⟩, s) (some slot) :=
    ⟨slots, rfl, rfl⟩
  have hclock : ∀ a s', env.step s .monotonic a s' → s' = s := fun _ _ hstep => hstep
  obtain ⟨_ | moment⟩ := deadline
  · cases p with
    | sync => exact hpops
    | aio =>
      refine ⟨permitted s (.enterTimeout none), fun a s' hstep => ?_⟩
      rw [show s' = s from hstep]
      exact hpops
  · cases p with
    | sync =>
      refine ⟨permitted s .monotonic, fun now s' hstep => ?_⟩
      rw [hclock now s' hstep]
      exact hpops
    | aio =>
      refine ⟨permitted s .monotonic, fun now s' hstep => ?_⟩
      rw [hclock now s' hstep]
      refine ⟨permitted s (.enterTimeout (some (moment - now))), fun a s' hstep => ?_⟩
      rw [show s' = s from hstep]
      exact hpops

/-- The pools of both packages keep the ledger. -/
theorem wp_serve (p : Package) (settings : Settings) (op : PoolOp Connection) (pool : ConnectionPool)
    (s : Multiset SockId) (hop : ledger.permits (pool, s) op) :
    wp env (ConnectionPool.serve p.transport settings op pool)
      (fun r s' => ledger.step (pool, s) op r.1 (r.2, s')) s := by
  unfold ConnectionPool.serve
  cases op with
  | closedFlag => exact ⟨rfl, rfl⟩
  | setClosed => exact rfl
  | getNowait =>
    dsimp only
    split
    next slot slots hslots => exact ⟨slots, hslots, rfl⟩
    next hslots => exact ⟨hslots, rfl⟩
  | take deadline =>
    dsimp only
    rw [wp_bind]
    refine wp_mono (wp_take p deadline hop s) ?_
    intro ⟨⟨slot, _⟩, pool'⟩ s' htake
    cases slot <;> exact htake
  | put slot =>
    dsimp only
    split
    next hroom =>
      change if pool.slots.length < pool.size then _ else _
      rw [if_pos hroom]
      exact ⟨rfl, rfl⟩
    next hfull =>
      change if pool.slots.length < pool.size then _ else _
      rw [if_neg hfull]
      exact ⟨rfl, rfl⟩
  | factory =>
    dsimp only
    rw [wp_bind]
    refine wp_mono (wpm_connect_tracked p (Connection.new settings) s) ?_
    intro ⟨outcome, connection⟩ s' hconnect
    cases outcome with
    | error e => exact congrArg (pool, ·) hconnect
    | ok _ =>
      obtain ⟨sock, hsock, hs'⟩ := hconnect
      exact ⟨sock, hsock, congrArg (pool, ·) hs'⟩
  | closed connection => exact ⟨rfl, rfl⟩
  | close connection =>
    dsimp only
    rw [wp_bind]
    refine wp_mono (wpm_close connection s) ?_
    intro r s' ⟨_, hs'⟩
    exact congrArg (pool, ·) hs'
  | waitClosed connection => exact rfl
  | hold connection => exact rfl

/-- Code of a pool, run by a client. -/
theorem wpm_pooled {α : Type} (p : Package) {m : PoolM Connection α}
    {Q : Except Exc α → Client → Multiset SockId → Prop} {client : Client} {s : Multiset SockId}
    (h : wpm ledger m (fun r _ a => Q r { client with pool := a.1 } a.2) () (client.pool, s)) :
    wpm env (Client.pooled p.transport m) Q client s := by
  unfold wpm Client.pooled
  rw [wp_bind]
  refine wp_mono (wp_handled (wp_serve p client.config.settings) False.elim h) ?_
  intro r s' hr
  exact hr

/-! ## The pool -/

/-- The sockets of the connections in the slots. -/
def held (slots : List (Option Connection)) : Multiset SockId :=
  (slots.map fun slot => slot.elim 0 own).sum

@[simp] theorem held_nil : held [] = 0 := rfl

@[simp] theorem held_none (slots : List (Option Connection)) : held (none :: slots) = held slots := by
  simp [held]

@[simp] theorem held_some (connection : Connection) (slots : List (Option Connection)) :
    held (some connection :: slots) = own connection + held slots := by
  simp [held]

@[simp] theorem held_append (slots slots' : List (Option Connection)) :
    held (slots ++ slots') = held slots + held slots' := by
  simp [held]

@[simp] theorem held_replicate (n : ℕ) : held (List.replicate n none) = 0 := by
  simp [held]

theorem held_reverse (slots : List (Option Connection)) : held slots.reverse = held slots := by
  unfold held
  rw [List.map_reverse, List.sum_reverse]

theorem own_of_closed {connection : Connection}
    (h : connection.closed = true) : own connection = 0 := by
  unfold own
  rw [Option.isNone_iff_eq_none.mp h]
  rfl

section Ledger
variable {κ : Type} {pool : ConnectionPool} {s base : Multiset SockId} {c : κ}

theorem wpm_put {slot : Option Connection} {Q : Except Exc Unit → κ → Account → Prop}
    (hroom : pool.slots.length < pool.size)
    (h : Q (.ok ()) c ({ pool with slots := slot :: pool.slots }, s)) :
    wpm ledger (put slot) Q c (pool, s) := by
  unfold put
  rw [wpm_bind, Pool.wpm_perform_op]
  refine ⟨trivial, fun room a hstep => ?_⟩
  replace hstep : if pool.slots.length < pool.size then
      room = true ∧ a = ({ pool with slots := slot :: pool.slots }, s)
    else room = false ∧ a = (pool, s) := hstep
  rw [if_pos hroom] at hstep
  rw [hstep.1, hstep.2]
  exact h

theorem wpm_closeOne {connection : Connection} {Q : Except Exc Unit → κ → Account → Prop}
    (h : Q (.ok ()) c (pool, s - own connection)) :
    wpm ledger (closeOne connection) Q c (pool, s) := by
  unfold closeOne
  rw [wpm_bind, Pool.wpm_perform_op]
  refine ⟨trivial, fun _ a hclose => ?_⟩
  dsimp only
  rw [Pool.wpm_perform_op]
  refine ⟨trivial, fun _ a' hwait => ?_⟩
  rw [show a' = a from hwait, show a = (pool, s - own connection) from hclose]
  exact h

theorem wpm_closeAll (opened : List Connection) {Q : Except Exc Unit → Unit → Account → Prop}
    (h : Q (.ok ()) () (pool, base)) :
    wpm ledger (closeAll opened) Q () (pool, held (opened.map some) + base) := by
  induction opened with
  | nil =>
    rw [List.map_nil, held_nil, zero_add]
    exact h
  | cons connection opened ih =>
    unfold closeAll
    rw [wpm_bind]
    apply wpm_closeOne
    rw [List.map_cons, held_some, add_assoc, add_tsub_cancel_left]
    exact ih

theorem wpm_putAll (slots : List (Option Connection)) {Q : Except Exc Unit → Unit → Account → Prop}
    (hroom : pool.slots.length + slots.length ≤ pool.size)
    (h : Q (.ok ()) () ({ pool with slots := slots.reverse ++ pool.slots }, s)) :
    wpm ledger (putAll slots) Q () (pool, s) := by
  induction slots generalizing pool with
  | nil => exact h
  | cons slot slots ih =>
    rw [List.length_cons] at hroom
    unfold putAll
    rw [wpm_bind]
    apply wpm_put (by omega)
    apply ih
    · dsimp only
      rw [List.length_cons]
      omega
    · rw [List.reverse_cons, List.append_assoc] at h
      exact h

/-- Slots that are empty hold nothing, wherever there is room for them. -/
theorem wpm_putAll_none (n : ℕ) :
    wpm ledger (putAll (List.replicate n none)) (fun _ _ a => a.2 = s) () (pool, s) := by
  induction n generalizing pool with
  | zero => exact rfl
  | succ n ih =>
    rw [List.replicate_succ]
    unfold putAll put
    rw [wpm_bind, wpm_bind, Pool.wpm_perform_op]
    refine ⟨trivial, fun room a hstep => ?_⟩
    replace hstep : if pool.slots.length < pool.size then
        room = true ∧ a = ({ pool with slots := none :: pool.slots }, s)
      else room = false ∧ a = (pool, s) := hstep
    split at hstep
    · rw [hstep.1, hstep.2]
      exact ih
    · rw [hstep.1, hstep.2]
      exact rfl

/-- The loop of `prefill` on slots that are empty: what was opened is held. -/
theorem wpm_fill (count : ℕ) {n : ℕ} {opened : List Connection}
    (hslots : pool.slots = List.replicate (count + n) none) :
    wpm ledger (fill count) (fun r opened' a =>
      a.1.size = pool.size ∧ a.1.closed = pool.closed ∧ a.2 = held (opened'.map some) + base ∧
      (r = .ok () → opened'.length = opened.length + count ∧ a.1.slots = List.replicate n none))
      opened (pool, held (opened.map some) + base) := by
  induction count generalizing pool opened with
  | zero =>
    refine ⟨rfl, rfl, rfl, fun _ => ⟨rfl, ?_⟩⟩
    rwa [Nat.zero_add] at hslots
  | succ count ih =>
    have hcons : pool.slots = none :: List.replicate (count + n) none := by
      rw [hslots, Nat.add_right_comm, List.replicate_succ]
    unfold fill
    rw [wpm_bind, Pool.wpm_perform_op]
    refine ⟨trivial, fun slot a hpop => ?_⟩
    replace hpop : Pops (pool, held (opened.map some) + base) a slot := hpop
    cases slot with
    | none =>
      rw [Pops, hcons] at hpop
      cases hpop.1
    | some slot =>
      obtain ⟨slots, heq, ha⟩ := hpop
      obtain ⟨-, hrest⟩ := List.cons.inj (hcons.symm.trans heq)
      dsimp only at ha ⊢
      rw [ha, wpm_bind, Pool.wpm_perform_op]
      refine ⟨trivial, fun answer a' hfactory => ?_⟩
      cases answer with
      | error e =>
        rw [show a' = _ from hfactory]
        exact ⟨rfl, rfl, rfl, fun h => by cases h⟩
      | ok connection =>
        obtain ⟨sock, hsock, ha'⟩ := hfactory
        dsimp only at ha' ⊢
        rw [wpm_bind, wpm_ofExcept]
        dsimp only
        rw [wpm_bind, wpm_update]
        -- the new socket counts for the connection that has just been opened
        have hheld : sock ::ₘ (held (opened.map some) + base) =
            held ((opened ++ [connection]).map some) + base := by
          rw [List.map_append, held_append, List.map_singleton, held_some, held_nil, add_zero,
            own_of_sock hsock, add_right_comm, ← Multiset.singleton_add]
          exact add_comm _ _
        rw [ha', hheld]
        refine wpm_mono (ih hrest.symm) ?_
        intro r opened' a₁ ⟨hsize, hclosed, hopen, hok⟩
        refine ⟨hsize, hclosed, hopen, fun hr => ?_⟩
        obtain ⟨hlength, hslots'⟩ := hok hr
        refine ⟨?_, hslots'⟩
        rw [hlength, List.length_append, List.length_singleton]
        omega

/-- The slots of an open pool account for the sockets that are open beside those of `base`. -/
structure Owns (pool : ConnectionPool) (s base : Multiset SockId) : Prop where
  isOpen : pool.closed = false
  accounted : s = held pool.slots + base

/-- Every slot holds a connection. -/
structure Filled (pool : ConnectionPool) (s base : Multiset SockId) : Prop
    extends Owns pool s base where
  full : pool.slots.length = pool.size
  some : ∀ slot ∈ pool.slots, slot ≠ none

/-- Nothing is left open by a `prefill` that raises. -/
theorem wpm_prefill (hopen : pool.closed = false)
    (hslots : pool.slots = List.replicate pool.size none) :
    wpm ledger (prefill pool.size) (fun r _ a => match r with
      | .ok _ => a.1.size = pool.size ∧ Filled a.1 a.2 base
      | .error _ => a.2 = base) () (pool, base) := by
  have hfill : wpm ledger (fill pool.size) _ [] (pool, held ([].map some) + base) :=
    wpm_fill (n := 0) pool.size hslots
  rw [List.map_nil, held_nil, zero_add] at hfill
  unfold prefill
  rw [wpm_bind, wpm_on]
  refine wpm_mono hfill ?_
  intro r opened ⟨pool', s'⟩ ⟨hsize, hclosed, hs', hok⟩
  dsimp only at hsize hclosed hs' hok ⊢
  cases r with
  | ok _ =>
    obtain ⟨hlength, hempty⟩ := hok rfl
    rw [List.replicate_zero] at hempty
    rw [List.length_nil, Nat.zero_add] at hlength
    apply wpm_putAll
    · rw [hempty, List.length_map, hlength, hsize, List.length_nil, Nat.zero_add]
    · dsimp only
      rw [hempty, List.append_nil]
      refine ⟨hsize, ⟨hclosed.trans hopen, ?_⟩, ?_, ?_⟩
      · rw [held_reverse]
        exact hs'
      · rw [List.length_reverse, List.length_map, hlength]
        exact hsize.symm
      · intro slot hslot
        rw [List.mem_reverse, List.mem_map] at hslot
        obtain ⟨connection, _, rfl⟩ := hslot
        exact Option.some_ne_none _
  | error e =>
    dsimp only
    -- what was opened is closed, and its slots go back empty
    rw [hs', wpm_bind]
    apply wpm_closeAll
    dsimp only
    rw [wpm_bind]
    refine wpm_mono (wpm_putAll_none opened.length) ?_
    intro r _ a ha
    cases r <;> exact ha

/-- A pool whose slots hold connections lends one at once. -/
theorem wpm_acquire (deadline : Deadline) (hopen : pool.closed = false)
    (hsome : ∀ slot ∈ pool.slots, slot ≠ none) (hpos : 0 < pool.slots.length) :
    wpm ledger (acquire deadline) (fun r _ a => ∃ connection slots, r = .ok connection ∧
      pool.slots = some connection :: slots ∧ a = ({ pool with slots := slots }, s)) () (pool, s) := by
  unfold acquire
  rw [wpm_bind, Pool.wpm_perform_op]
  refine ⟨trivial, fun flag a hflag => ?_⟩
  rw [hflag.1.trans hopen, hflag.2]
  dsimp only
  rw [if_neg Bool.false_ne_true, wpm_bind, Pool.wpm_perform_op]
  refine ⟨List.ne_nil_of_length_pos hpos, fun slot a htake => ?_⟩
  dsimp only
  rw [wpm_bind, wpm_ofExcept]
  cases slot with
  | error e => exact htake.elim
  | ok slot =>
    obtain ⟨slots, hslots, ha⟩ := htake
    cases slot with
    | none => exact absurd rfl (hsome none (hslots ▸ List.mem_cons_self))
    | some connection => exact ⟨connection, slots, rfl, hslots, ha⟩

theorem wpm_release {connection : Connection} (hopen : pool.closed = false)
    (hroom : pool.slots.length < pool.size) :
    wpm ledger (release connection) (fun r _ a => r = .ok () ∧ ∃ slot,
      own connection = slot.elim 0 own ∧ a = ({ pool with slots := slot :: pool.slots }, s))
      () (pool, s) := by
  unfold release
  rw [wpm_bind, Pool.wpm_perform_op]
  refine ⟨trivial, fun flag a hflag => ?_⟩
  rw [hflag.1.trans hopen, hflag.2]
  dsimp only
  rw [if_neg Bool.false_ne_true, wpm_bind, Pool.wpm_perform_op]
  refine ⟨trivial, fun closed a hclosed => ?_⟩
  rw [hclosed.1, hclosed.2]
  dsimp only
  apply wpm_put hroom
  refine ⟨rfl, _, ?_, rfl⟩
  split
  next h => exact own_of_closed h
  next => rfl

/-- A pool can be drained to its end, and that closes what the slots hold. -/
theorem wpm_drain (rounds : ℕ) (pool : ConnectionPool) (s : Multiset SockId)
    (hrounds : pool.slots.length < rounds) :
    wpm ledger (drain rounds) (fun r _ a => r = .ok () ∧ a.2 = s - held pool.slots) () (pool, s) := by
  induction rounds generalizing pool s with
  | zero => omega
  | succ rounds ih =>
    unfold drain
    rw [wpm_bind, Pool.wpm_perform_op]
    refine ⟨trivial, fun slot a hpop => ?_⟩
    replace hpop : Pops (pool, s) a slot := hpop
    cases slot with
    | none =>
      rw [hpop.2, hpop.1, held_nil, tsub_zero]
      exact ⟨rfl, rfl⟩
    | some slot =>
      obtain ⟨slots, hslots, ha⟩ := hpop
      replace hslots : pool.slots = slot :: slots := hslots
      rw [hslots, List.length_cons] at hrounds
      rw [ha, hslots]
      cases slot with
      | none =>
        rw [held_none]
        exact ih { pool with slots := slots } s (Nat.lt_of_succ_lt_succ hrounds)
      | some connection =>
        dsimp only
        rw [wpm_bind]
        apply wpm_closeOne
        rw [held_some, ← tsub_tsub]
        exact ih { pool with slots := slots } (s - own connection) (Nat.lt_of_succ_lt_succ hrounds)

/-- Closing a pool closes what it owns. -/
theorem wpm_closePool (howns : Owns pool s base) :
    wpm ledger (Pool.close (pool.slots.length + 1)) (fun r _ a => r = .ok () ∧ a.2 = base) ()
      (pool, s) := by
  unfold Pool.close
  rw [wpm_bind, Pool.wpm_perform_op]
  refine ⟨trivial, fun flag a hflag => ?_⟩
  rw [hflag.1, hflag.2, howns.isOpen]
  dsimp only
  rw [if_neg Bool.false_ne_true, wpm_bind, Pool.wpm_perform_op]
  refine ⟨trivial, fun _ a hset => ?_⟩
  rw [show a = _ from hset]
  refine wpm_mono (wpm_drain _ _ _ (Nat.lt_succ_self _)) ?_
  intro r _ a ⟨hr, ha⟩
  rw [ha, howns.accounted]
  exact ⟨hr, add_tsub_cancel_left _ _⟩

end Ledger

/-! ## Clients -/

/-- A client that has not opened its pool yet. -/
structure Fresh (client : Client) : Prop where
  isOpen : client.pool.closed = false
  positive : 0 < client.pool.size
  empty : client.pool.slots = List.replicate client.pool.size none
  unopened : client.opened = false

/-- The pool of a client that was just created has room for so many connections, and no slot is in
use. -/
theorem created {load : LoadFiles} {options : ClientOptions} {address : Str} {client : Client}
    (h : Client.create load options address = .ok client) : client.opened = false ∧
      0 < options.poolSize.toNat ∧ client.pool = ⟨options.poolSize.toNat,
        List.replicate options.poolSize.toNat none, false⟩ := by
  unfold Client.create at h
  split at h
  · cases h
  · rw [bind_ok_iff] at h
    obtain ⟨_, _, h⟩ := h
    rw [bind_ok_iff] at h
    obtain ⟨pool, hpool, h⟩ := h
    cases h
    unfold ConnectionPool.new at hpool
    split at hpool
    · cases hpool
    · cases hpool
      exact ⟨rfl, by omega, rfl⟩

theorem fresh_of_create {load : LoadFiles} {options : ClientOptions} {address : Str} {client : Client}
    (h : Client.create load options address = .ok client) : Fresh client := by
  obtain ⟨hopened, hpos, hpool⟩ := created h
  refine ⟨?_, ?_, ?_, hopened⟩
  · rw [hpool]
  · rw [hpool]
    exact hpos
  · rw [hpool]

section Clients
variable {p : Package} {client : Client} {s base : Multiset SockId}

/-- How a construction ends: with a client that accounts for the sockets it opened, or with none of
them open. -/
def Built (base : Multiset SockId) : Except Exc Client → Multiset SockId → Prop
  | .ok client, s => Owns client.pool s base
  | .error _, s => s = base

theorem wpm_connectAll (hfresh : Fresh client) :
    wpm env (Client.connectAll p.transport)
      (fun r client' s' => Built base (r.map fun _ => client') s') client base := by
  unfold Client.connectAll
  rw [wpm_bind, wpm_self]
  dsimp only
  rw [wpm_bind]
  apply wpm_pooled
  refine wpm_mono (wpm_prefill hfresh.isOpen hfresh.empty) ?_
  intro r _ ⟨pool₁, s₁⟩ hprefill
  cases r with
  | error e => exact hprefill
  | ok _ =>
    dsimp only at hprefill ⊢
    obtain ⟨hsize, hfilled⟩ := hprefill
    unfold Deadline.start
    rw [wpm_bind, wpm_bind, wpm_perform_op]
    refine ⟨permitted s₁ _, fun now s₂ hclock => ?_⟩
    rw [show s₂ = s₁ from hclock]
    dsimp only
    rw [wpm_pure]
    dsimp only
    rw [wpm_bind]
    apply wpm_pooled
    -- the pool is full, so `acquire` does not wait
    have hpos : 0 < pool₁.slots.length := by
      rw [hfilled.full, hsize]
      exact hfresh.positive
    refine wpm_mono (wpm_acquire _ hfilled.isOpen hfilled.some hpos) ?_
    intro r _ a ⟨connection, slots, hr, hslots, ha⟩
    rw [hr, ha]
    dsimp only
    rw [wpm_bind, wpm_update]
    apply wpm_pooled
    have hlength := hfilled.full
    rw [hslots, List.length_cons] at hlength
    refine wpm_mono (wpm_release hfilled.isOpen ?_) ?_
    · dsimp only
      omega
    · intro r _ a ⟨hr, slot, hslot, ha⟩
      rw [hr, ha]
      refine ⟨hfilled.isOpen, ?_⟩
      rw [hfilled.accounted, hslots, held_some, hslot]
      rfl

/-- `Client.__init__`. -/
theorem wpm_init {κ : Type} (load : LoadFiles) (options : ClientOptions) (address : Str) (c : κ) :
    wpm env (Client.init p.transport load options address) (fun r c' s' => c' = c ∧ Built base r s')
      c base := by
  unfold Client.init
  rw [wpm_bind, wpm_ofExcept]
  cases hcreate : Client.create load options address with
  | error e => exact ⟨rfl, rfl⟩
  | ok client =>
    dsimp only
    rw [wpm_bind, wpm_on]
    refine wpm_mono (wpm_connectAll (fresh_of_create hcreate)) ?_
    intro r client' s' hbuilt
    cases r with
    | error e => exact ⟨rfl, hbuilt⟩
    | ok _ => exact ⟨rfl, hbuilt⟩

/-- `AsyncClient.open` of a client that was just created. -/
theorem wpm_openPool (hfresh : Fresh client) :
    wpm env (Client.openPool p.transport)
      (fun r client' s' => Built base (r.map fun _ => client') s') client base := by
  unfold Client.openPool
  rw [wpm_bind, wpm_self]
  dsimp only
  rw [if_neg (ne_true_of_eq_false hfresh.unopened), wpm_bind]
  refine wpm_mono (wpm_connectAll hfresh) ?_
  intro r client' s' hbuilt
  cases r with
  | error e => exact hbuilt
  | ok _ => exact hbuilt

theorem wpm_closeClient (howns : Owns client.pool s base) :
    wpm env (Client.close p.transport) (fun r _ s' => r = .ok () ∧ s' = base) client s := by
  unfold Client.close
  rw [wpm_bind, wpm_self]
  dsimp only
  apply wpm_pooled
  exact wpm_closePool howns

/-! ## Shards -/

/-- The clients of open pools account for the sockets that are open beside those of `base`. -/
structure OwnsAll (shards : List Client) (s base : Multiset SockId) : Prop where
  isOpen : ∀ shard ∈ shards, shard.pool.closed = false
  accounted : s = (shards.map fun shard => held shard.pool.slots).sum + base

theorem ownsAll_nil (base : Multiset SockId) : OwnsAll [] base base where
  isOpen shard hshard := by cases hshard
  accounted := (zero_add base).symm

theorem OwnsAll.snoc {shards : List Client} {shard : Client} {s s' : Multiset SockId}
    (hshards : OwnsAll shards s base) (hshard : Owns shard.pool s' s) :
    OwnsAll (shards ++ [shard]) s' base where
  isOpen other hother := by
    rcases List.mem_append.mp hother with hother | hother
    · exact hshards.isOpen other hother
    · rw [List.mem_singleton.mp hother]
      exact hshard.isOpen
  accounted := by
    rw [hshard.accounted, hshards.accounted, List.map_append, List.sum_append, List.map_singleton,
      List.sum_singleton, ← add_assoc, add_comm (held _)]

theorem wpm_closeShards (shards : List Client) (howns : OwnsAll shards s base) :
    wpm env (ShardedClient.closeAll p.transport shards)
      (fun r _ s' => r = .ok () ∧ s' = base) () s := by
  induction shards generalizing s with
  | nil => exact ⟨rfl, howns.accounted.trans (zero_add base)⟩
  | cons shard shards ih =>
    have hshard : Owns shard.pool s ((shards.map fun shard => held shard.pool.slots).sum + base) := by
      refine ⟨howns.isOpen shard List.mem_cons_self, ?_⟩
      rw [howns.accounted, List.map_cons, List.sum_cons, add_assoc]
    unfold ShardedClient.closeAll
    rw [wpm_bind, wpm_on]
    refine wpm_mono (wpm_closeClient hshard) ?_
    intro r _ s' ⟨hr, hs'⟩
    rw [hr]
    dsimp only
    rw [wpm_bind, wpm_ofExcept]
    exact ih ⟨fun other hother => howns.isOpen other (List.mem_cons_of_mem _ hother), hs'⟩

theorem wpm_construct (load : LoadFiles) (options : ClientOptions) (addresses : List Str)
    {shards : List Client} (howns : OwnsAll shards s base) :
    wpm env (ShardedClient.construct p.transport load options addresses)
      (fun _ shards' s' => OwnsAll shards' s' base) shards s := by
  induction addresses generalizing shards s with
  | nil => exact howns
  | cons address addresses ih =>
    unfold ShardedClient.construct
    rw [wpm_bind]
    refine wpm_mono (wpm_init load options address shards) ?_
    intro r shards' s' ⟨hsame, hbuilt⟩
    rw [hsame]
    cases r with
    | error e =>
      rw [show s' = s from hbuilt]
      exact howns
    | ok shard =>
      dsimp only
      rw [wpm_bind, wpm_update]
      exact ih (howns.snoc hbuilt)

theorem wpm_openEach (rest : List Client) (hfresh : ∀ shard ∈ rest, Fresh shard)
    {shards : List Client} (howns : OwnsAll shards s base) :
    wpm env (ShardedClient.openEach p.transport rest)
      (fun _ shards' s' => OwnsAll shards' s' base) shards s := by
  induction rest generalizing shards s with
  | nil => exact howns
  | cons shard rest ih =>
    unfold ShardedClient.openEach
    rw [wpm_bind, wpm_on]
    refine wpm_mono (wpm_openPool (hfresh shard List.mem_cons_self)) ?_
    intro r shard' s' hbuilt
    dsimp only
    rw [wpm_bind, wpm_ofExcept]
    cases r with
    | error e =>
      rw [show s' = s from hbuilt]
      exact howns
    | ok _ =>
      dsimp only
      rw [wpm_bind, wpm_update]
      exact ih (fun other hother => hfresh other (List.mem_cons_of_mem _ hother)) (howns.snoc hbuilt)

/-- The `except` block of both: what was opened before the failure is closed. -/
theorem wpm_orClose {build : Method Net (List Client) Exc Unit}
    (hbuild : wpm env build (fun _ shards s' => OwnsAll shards s' base) [] s) :
    wpm env (do
      let (outcome, shards) ← build.on []
      match outcome with
      | .ok _ => return shards
      | .error e => do
        ShardedClient.closeAll p.transport shards
        throw e) (fun r _ s' => ∀ e, r = .error e → s' = base) () s := by
  rw [wpm_bind, wpm_on]
  refine wpm_mono hbuild ?_
  intro r shards s' howns
  cases r with
  | ok _ =>
    intro e h
    cases h
  | error e =>
    dsimp only
    rw [wpm_bind]
    refine wpm_mono (wpm_closeShards shards howns) ?_
    intro r _ s'' ⟨hr, hs''⟩
    rw [hr]
    exact fun _ _ => hs''

end Clients

/-! ## No construction leaks a socket -/

theorem fresh_of_mapM {load : LoadFiles} {options : ClientOptions} {addresses : List Str}
    {shards : List Client} (h : addresses.mapM (Client.create load options) = .ok shards) :
    ∀ shard ∈ shards, Fresh shard := forall_of_mapM (fun _ _ => fresh_of_create) h

/-- A construction that raises has closed every socket it opened. -/
def LeaksNothing {α : Type} (m : Method Net Unit Exc α) : Prop :=
  Ends (monitor track) (m ()) (fun rc opened => ∀ e, rc.1 = .error e → opened = 0) 0

theorem leaksNothing_of_wpm {α : Type} {m : Method Net Unit Exc α}
    (h : wpm env m (fun r _ s => ∀ e, r = .error e → s = 0) () 0) : LeaksNothing m := ends_of_live h

/-- Failed construction leaks nothing. Every run of `Client.__init__`, of `ShardedClient.__init__`
and of `AsyncShardedClient.open` on a new client comes to its end, whatever the answers to its
operations, and one that raises leaves open no socket that it opened. -/
theorem failed_construction_leaks_nothing (load : LoadFiles) (options : ClientOptions) :
    (∀ address, LeaksNothing (Client.init Sync.transport load options address)) ∧
    (∀ addresses, LeaksNothing (ShardedClient.init Sync.transport load options addresses)) ∧
    ∀ addresses, LeaksNothing (ShardedClient.connect Aio.transport load options addresses) := by
  refine ⟨fun address => ?_, fun addresses => ?_, fun addresses => ?_⟩
  · apply leaksNothing_of_wpm
    refine wpm_mono (wpm_init (p := .sync) load options address ()) ?_
    intro r _ s ⟨_, hbuilt⟩ e hr
    rw [hr] at hbuilt
    exact hbuilt
  · apply leaksNothing_of_wpm
    unfold ShardedClient.init
    rw [wpm_ite]
    split
    · exact fun _ _ => rfl
    · exact wpm_orClose (p := .sync) (wpm_construct (p := .sync) load options addresses (ownsAll_nil 0))
  · apply leaksNothing_of_wpm
    unfold ShardedClient.connect ShardedClient.create
    rw [wpm_bind, wpm_ofExcept]
    split
    next shards hshards =>
      split at hshards
      · cases hshards
      · exact wpm_orClose (p := .aio) (wpm_openEach (p := .aio) shards (fresh_of_mapM hshards)
          (ownsAll_nil 0))
    next => exact fun _ _ => rfl

end FqClient.FailedConstruction
