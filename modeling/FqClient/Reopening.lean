import FqClient.FailedConstruction

namespace FqClient

open Effects

namespace ShardedClient

variable (t : Transport)

/-- The `for` loop of `AsyncShardedClient.open`: the shards that it opened, and the others. -/
def openShardsFrom : List Client → Prog Net (Except Exc Unit × List Client × List Client)
  | [] => .pure (.ok (), [], [])
  | shard :: shards => do
    let (outcome, shard) ← Client.openPool t shard
    match outcome with
    | .error e => .pure (.error e, [], shard :: shards)
    | .ok _ => do
      let (r, opened, others) ← openShardsFrom shards
      .pure (r, shard :: opened, others)

/-- `for shard in opened: await shard.aclose()`, with the shards as it leaves them. -/
def closeShards : List Client → Prog Net (Except Exc Unit × List Client)
  | [] => .pure (.ok (), [])
  | shard :: shards => do
    let (outcome, shard) ← Client.close t shard
    match outcome with
    | .error e => .pure (.error e, shard :: shards)
    | .ok _ => do
      let (r, shards) ← closeShards shards
      .pure (r, shard :: shards)

/-- `AsyncShardedClient.open`, with the shards as it leaves them. -/
def reopen : Method Net (List Client) Exc Unit := fun shards => do
  let (outcome, opened, others) ← openShardsFrom t shards
  match outcome with
  | .ok _ => .pure (.ok (), opened ++ others)
  | .error e => do
    let (closed, opened) ← closeShards t opened
    .pure (closed.bind fun _ => .error e, opened ++ others)

theorem openEach_eq (shards opened : List Client) : openEach t shards opened =
    openShardsFrom t shards >>= fun r => .pure (r.1, opened ++ r.2.1) := by
  induction shards generalizing opened with
  | nil =>
    change Prog.pure (Except.ok (), opened) = .pure (.ok (), opened ++ [])
    rw [List.append_nil]
  | cons shard shards ih =>
    unfold openEach openShardsFrom
    change (Client.openPool t shard >>= fun _ => _)
      >>= _ = (Client.openPool t shard >>= fun _ => _) >>= _
    rw [Prog.bind_assoc', Prog.bind_assoc']
    refine congrArg _ ?_
    funext result
    obtain ⟨outcome, shard⟩ := result
    cases outcome with
    | error e =>
      change Prog.pure (Except.error e, opened) = .pure (.error e, opened ++ [])
      rw [List.append_nil]
    | ok _ =>
      change openEach t shards (opened ++ [shard]) = (openShardsFrom t shards >>= fun _ => _) >>= _
      rw [ih, Prog.bind_assoc']
      refine congrArg _ ?_
      funext result
      obtain ⟨r, opened', others⟩ := result
      change Prog.pure (r, opened ++ [shard] ++ opened') = .pure (r, opened ++ shard :: opened')
      rw [List.append_assoc, List.singleton_append]

theorem closeAll_eq {κ : Type} (shards : List Client) (c : κ) : closeAll t shards c =
    closeShards t shards >>= fun r => .pure (r.1, c) := by
  induction shards with
  | nil => rfl
  | cons shard shards ih =>
    unfold closeAll closeShards
    change (Client.close t shard >>= fun _ => _) >>= _ = (Client.close t shard >>= fun _ => _) >>= _
    rw [Prog.bind_assoc', Prog.bind_assoc']
    refine congrArg _ ?_
    funext result
    obtain ⟨outcome, shard⟩ := result
    cases outcome with
    | error e => rfl
    | ok _ =>
      change closeAll t shards c = (closeShards t shards >>= fun _ => _) >>= _
      rw [ih, Prog.bind_assoc']
      rfl

/-- `open` does the same on a client that was just constructed. -/
theorem openShards_eq_reopen (shards : List Client) :
    (openShards t shards () >>= fun r => .pure (r.1.map fun _ => ())) =
      reopen t shards >>= fun r => .pure r.1 := by
  unfold openShards reopen
  change (openEach t shards [] >>= fun _ => _) >>= _ >>= _ = _
  rw [openEach_eq, Prog.bind_assoc', Prog.bind_assoc', Prog.bind_assoc', Prog.bind_assoc']
  refine congrArg _ ?_
  funext result
  obtain ⟨outcome, opened, others⟩ := result
  cases outcome with
  | ok _ => rfl
  | error e =>
    change (closeAll t ([] ++ opened) () >>= _) >>= _ = (closeShards t opened >>= _) >>= _
    rw [List.nil_append, closeAll_eq, Prog.bind_assoc', Prog.bind_assoc', Prog.bind_assoc']
    refine congrArg _ ?_
    funext result
    obtain ⟨closed, _⟩ := result
    cases closed <;> rfl

/-- So many calls of `open`, whether they return or raise. -/
def reopenTimes : ℕ → List Client → Prog Net (List Client)
  | 0, shards => .pure shards
  | calls + 1, shards => do
    let (_, shards) ← reopen t shards
    reopenTimes calls shards

end ShardedClient

namespace Reopening

open FailedConstruction Pool

/-! ## The slots of a pool -/

section Slots
variable {κ : Type} {pool : ConnectionPool} {s : Multiset SockId} {c : κ}

/-- The loop of `prefill` takes a slot for each connection it opens, and one more when it fails. -/
theorem wpm_fill_slots (count : ℕ) {opened : List Connection} :
    wpm ledger (fill count) (fun r opened' a => a.1.size = pool.size ∧ a.1.closed = pool.closed ∧
      match r with
      | .ok _ => opened'.length = opened.length + count ∧ a.1.slots.length + count = pool.slots.length
      | .error _ => a.1.slots.length + opened'.length ≤ pool.slots.length + opened.length ∧
          (count ≤ pool.slots.length →
            a.1.slots.length + opened'.length < pool.slots.length + opened.length))
      opened (pool, s) := by
  -- what is taken from the queue is opened, or lost with the failure
  induction count generalizing pool opened s with
  | zero => exact ⟨rfl, rfl, rfl, rfl⟩
  | succ count ih =>
    unfold fill
    rw [wpm_bind, Pool.wpm_perform_op]
    refine ⟨trivial, fun slot a hpop => ?_⟩
    replace hpop : Pops (pool, s) a slot := hpop
    cases slot with
    | none =>
      obtain ⟨hempty, ha⟩ := hpop
      rw [ha]
      refine ⟨rfl, rfl, le_rfl, fun hcount => ?_⟩
      rw [hempty] at hcount
      exact absurd hcount (Nat.not_succ_le_zero _)
    | some slot =>
      obtain ⟨slots, hslots, ha⟩ := hpop
      have hlength : pool.slots.length = slots.length + 1 := by
        rw [show pool.slots = _ from hslots, List.length_cons]
      dsimp only at ha ⊢
      rw [ha, wpm_bind, Pool.wpm_perform_op]
      refine ⟨trivial, fun answer a' hfactory => ?_⟩
      cases answer with
      | error e =>
        rw [show a' = _ from hfactory]
        refine ⟨rfl, rfl, ?_, fun _ => ?_⟩
        · dsimp only
          omega
        · dsimp only
          omega
      | ok connection =>
        obtain ⟨sock, hsock, ha'⟩ := hfactory
        dsimp only at ha' ⊢
        rw [wpm_bind, wpm_ofExcept]
        dsimp only
        rw [wpm_bind, wpm_update, ha']
        refine wpm_mono ih ?_
        intro r opened' a₁ hpost
        obtain ⟨hsize, hclosed, hr⟩ := hpost
        refine ⟨hsize, hclosed, ?_⟩
        dsimp only at hr
        rw [List.length_append, List.length_singleton] at hr
        cases r with
        | ok _ =>
          dsimp only at hr ⊢
          omega
        | error e =>
          dsimp only at hr ⊢
          omega

theorem wpm_closeAll_any (opened : List Connection) {Q : Except Exc Unit → Unit → Account → Prop}
    (h : ∀ s', Q (.ok ()) () (pool, s')) : wpm ledger (closeAll opened) Q () (pool, s) := by
  induction opened generalizing s with
  | nil => exact h s
  | cons connection opened ih =>
    unfold closeAll
    rw [wpm_bind]
    exact wpm_closeOne ih

/-- A `prefill` that raises leaves a slot too few, and one with a slot too few raises. -/
theorem wpm_prefill_slots (hfits : pool.slots.length ≤ pool.size) :
    wpm ledger (prefill pool.size) (fun r _ a => a.1.size = pool.size ∧ a.1.closed = pool.closed ∧
      match r with
      | .ok _ => pool.slots.length = pool.size ∧ a.1.slots.length = pool.size ∧
          ∀ slot ∈ a.1.slots, slot ≠ none
      | .error _ => a.1.slots.length < pool.size) () (pool, s) := by
  unfold prefill
  rw [wpm_bind, wpm_on]
  refine wpm_mono (wpm_fill_slots pool.size) ?_
  intro r opened ⟨pool', s'⟩ ⟨hsize, hclosed, hr⟩
  dsimp only at hsize hclosed hr ⊢
  rw [List.length_nil, Nat.zero_add, Nat.add_zero] at hr
  cases r with
  | ok _ =>
    obtain ⟨hopened, hslots⟩ := hr
    have hempty : pool'.slots = [] := List.eq_nil_of_length_eq_zero (by omega)
    apply wpm_putAll
    · rw [hempty, List.length_map, List.length_nil, hopened, hsize, Nat.zero_add]
    · rw [hempty, List.append_nil]
      refine ⟨hsize, hclosed, by omega, ?_, ?_⟩
      · rw [List.length_reverse, List.length_map]
        exact hopened
      · intro slot hslot
        rw [List.mem_reverse, List.mem_map] at hslot
        obtain ⟨connection, _, rfl⟩ := hslot
        exact Option.some_ne_none _
  | error e =>
    obtain ⟨hle, hlt⟩ := hr
    have hroom : pool'.slots.length + opened.length < pool.size := by
      rcases Nat.lt_or_ge pool.slots.length pool.size with h | h
      · exact lt_of_le_of_lt hle h
      · exact lt_of_lt_of_le (hlt h) hfits
    dsimp only
    rw [wpm_bind]
    apply wpm_closeAll_any
    intro s''
    dsimp only
    rw [wpm_bind]
    apply wpm_putAll
    · rw [List.length_replicate, hsize]
      omega
    · refine ⟨hsize, hclosed, ?_⟩
      rw [List.reverse_replicate, List.length_append, List.length_replicate]
      omega

end Slots

/-! ## A shard -/

/-- A shard that is open, with all of its slots. -/
structure Ready (size : ℕ) (shard : Client) : Prop where
  opened : shard.opened = true
  isOpen : shard.pool.closed = false
  sized : shard.pool.size = size
  slots : shard.pool.slots.length = size

/-- A shard that is yet to be opened, with so many of its slots. -/
structure Unopened (size count : ℕ) (shard : Client) : Prop where
  unopened : shard.opened = false
  isOpen : shard.pool.closed = false
  sized : shard.pool.size = size
  slots : shard.pool.slots.length = count

section Shards
variable {p : Package} {shard : Client} {s : Multiset SockId} {size count : ℕ}

theorem wpm_connectAll_slots (hpos : 0 < size) (hle : count ≤ size)
    (hshard : Unopened size count shard) :
    wpm env (Client.connectAll p.transport) (fun r shard' _ => match r with
      | .ok _ => count = size ∧ Unopened size size shard'
      | .error _ => ∃ count' < size, Unopened size count' shard') shard s := by
  have hfits : shard.pool.slots.length ≤ shard.pool.size := by
    rw [hshard.slots, hshard.sized]
    exact hle
  unfold Client.connectAll
  rw [wpm_bind, wpm_self]
  dsimp only
  rw [wpm_bind]
  apply wpm_pooled
  refine wpm_mono (wpm_prefill_slots hfits) ?_
  intro r _ ⟨pool₁, s₁⟩ ⟨hsize, hclosed, hr⟩
  dsimp only at hsize hclosed hr ⊢
  have hopen : pool₁.closed = false := hclosed.trans hshard.isOpen
  cases r with
  | error e =>
    refine ⟨_, ?_, ⟨hshard.unopened, hopen, hsize.trans hshard.sized, rfl⟩⟩
    rw [← hshard.sized]
    exact hr
  | ok _ =>
    obtain ⟨hcount, hfull, hsome⟩ := hr
    rw [hshard.slots, hshard.sized] at hcount
    rw [hshard.sized] at hfull hsize
    dsimp only
    unfold Deadline.start
    rw [wpm_bind, wpm_bind, wpm_perform_op]
    refine ⟨permitted s₁ _, fun now s₂ hclock => ?_⟩
    dsimp only
    rw [wpm_pure]
    dsimp only
    rw [wpm_bind]
    apply wpm_pooled
    refine wpm_mono (wpm_acquire _ hopen hsome (hfull ▸ hpos)) ?_
    intro r _ a ⟨connection, slots, hr, hslots, ha⟩
    rw [hr, ha]
    dsimp only
    rw [wpm_bind, wpm_update]
    apply wpm_pooled
    rw [hslots, List.length_cons] at hfull
    refine wpm_mono (wpm_release hopen ?_) ?_
    · show slots.length < pool₁.size
      omega
    · intro r _ a ⟨hr, slot, _, ha⟩
      rw [hr, ha]
      exact ⟨hcount, hshard.unopened, hopen, hsize, hfull⟩

/-- `AsyncClient.open` of a shard. -/
theorem wpm_openPool_slots (hpos : 0 < size) (hle : count ≤ size) (hshard : Unopened size count shard) :
    wpm env (Client.openPool p.transport) (fun r shard' _ => match r with
      | .ok _ => count = size ∧ Ready size shard'
      | .error _ => ∃ count' < size, Unopened size count' shard') shard s := by
  unfold Client.openPool
  rw [wpm_bind, wpm_self]
  dsimp only
  rw [if_neg (ne_true_of_eq_false hshard.unopened), wpm_bind]
  refine wpm_mono (wpm_connectAll_slots hpos hle hshard) ?_
  intro r shard' s' hr
  cases r with
  | error e => exact hr
  | ok _ =>
    obtain ⟨hcount, _, hopen, hsized, hslots⟩ := hr
    exact ⟨hcount, rfl, hopen, hsized, hslots⟩

theorem wpm_openPool_opened (hopened : shard.opened = true) :
    wpm env (Client.openPool p.transport) (fun r shard' _ => r = .ok () ∧ shard' = shard) shard s := by
  unfold Client.openPool
  rw [wpm_bind, wpm_self]
  dsimp only
  rw [if_pos hopened]
  exact ⟨rfl, rfl⟩

/-- Closing leaves the flag of `open`. -/
theorem wpm_close_opened :
    wpm env (Client.close p.transport) (fun r shard' _ => r = .ok () ∧ shard'.opened = shard.opened)
      shard s := by
  unfold Client.close
  rw [wpm_bind, wpm_self]
  dsimp only
  apply wpm_pooled
  unfold Pool.close
  rw [wpm_bind, Pool.wpm_perform_op]
  refine ⟨trivial, fun flag a hflag => ?_⟩
  rw [hflag.2]
  dsimp only
  rw [wpm_ite]
  split
  · exact ⟨rfl, rfl⟩
  · rw [wpm_bind, Pool.wpm_perform_op]
    refine ⟨trivial, fun _ a hset => ?_⟩
    rw [show a = _ from hset]
    refine wpm_mono (wpm_drain _ _ _ (Nat.lt_succ_self _)) ?_
    intro r _ a ⟨hr, _⟩
    exact ⟨hr, rfl⟩

end Shards

/-! ## All of the shards -/

/-- No shard has lost a slot. -/
def Whole (size : ℕ) (shards : List Client) : Prop :=
  ∀ shard ∈ shards, Unopened size size shard ∨ Ready size shard

/-- A shard that has lost a slot comes first. -/
def Broken (size : ℕ) (shards : List Client) : Prop :=
  ∃ shard rest count, shards = shard :: rest ∧ count < size ∧ Unopened size count shard

/-- The first shard that is not open has lost a slot. -/
def Stuck (size : ℕ) (shards : List Client) : Prop :=
  ∃ opened others, shards = opened ++ others ∧ (∀ shard ∈ opened, shard.opened = true) ∧
    Broken size others

section Sharded
variable {p : Package} {shards : List Client} {s : Multiset SockId} {size : ℕ}

/-- How the loop ends on shards that have all of their slots. -/
theorem wp_openShardsFrom (hpos : 0 < size) (hwhole : Whole size shards) :
    wp env (ShardedClient.openShardsFrom p.transport shards) (fun r _ =>
      r.2.1.length + r.2.2.length = shards.length ∧ (∀ shard ∈ r.2.1, Ready size shard) ∧
        ((r.1 = .ok () ∧ r.2.2 = []) ∨ ((∃ e, r.1 = .error e) ∧ Broken size r.2.2))) s := by
  induction shards generalizing s with
  | nil => exact ⟨rfl, fun _ h => absurd h List.not_mem_nil, Or.inl ⟨rfl, rfl⟩⟩
  | cons shard shards ih =>
    have hrest : Whole size shards := fun other h => hwhole other (List.mem_cons_of_mem _ h)
    -- an open that returns leaves the shard ready
    have hshard : wpm env (Client.openPool p.transport) (fun r shard' _ => match r with
        | .ok _ => Ready size shard'
        | .error _ => ∃ count < size, Unopened size count shard') shard s := by
      rcases hwhole shard List.mem_cons_self with hunopened | hready
      · refine wpm_mono (wpm_openPool_slots hpos le_rfl hunopened) ?_
        intro r shard' _ hr
        cases r with
        | ok _ => exact hr.2
        | error e => exact hr
      · refine wpm_mono (wpm_openPool_opened hready.opened) ?_
        intro r shard' _ ⟨hr, hsame⟩
        rw [hr, hsame]
        exact hready
    unfold ShardedClient.openShardsFrom
    rw [wp_bind]
    refine wp_mono hshard ?_
    intro ⟨outcome, shard'⟩ s' hr
    cases outcome with
    | error e =>
      obtain ⟨count, hcount, hshard'⟩ := hr
      refine ⟨Nat.zero_add _, fun _ h => absurd h List.not_mem_nil, Or.inr ⟨⟨e, rfl⟩, ?_⟩⟩
      exact ⟨shard', shards, count, rfl, hcount, hshard'⟩
    | ok _ =>
      dsimp only
      rw [wp_bind]
      refine wp_mono (ih hrest) ?_
      intro ⟨r, opened, others⟩ _ ⟨hlength, hopened, hends⟩
      refine ⟨?_, ?_, hends⟩
      · dsimp only at hlength ⊢
        rw [List.length_cons, List.length_cons]
        omega
      · exact List.forall_mem_cons.mpr ⟨hr, hopened⟩

/-- The loop raises at a shard that has lost a slot. -/
theorem wp_openShardsFrom_broken (hpos : 0 < size) {before others : List Client}
    (hbefore : ∀ shard ∈ before, shard.opened = true) (hbroken : Broken size others) :
    wp env (ShardedClient.openShardsFrom p.transport (before ++ others)) (fun r _ =>
      (∃ e, r.1 = .error e) ∧ (∀ shard ∈ r.2.1, shard.opened = true) ∧ Broken size r.2.2) s := by
  induction before generalizing s with
  | nil =>
    obtain ⟨shard, rest, count, hothers, hcount, hshard⟩ := hbroken
    rw [hothers, List.nil_append]
    unfold ShardedClient.openShardsFrom
    rw [wp_bind]
    refine wp_mono (wpm_openPool_slots hpos hcount.le hshard) ?_
    intro ⟨outcome, shard'⟩ s' hr
    cases outcome with
    | ok _ => exact absurd hr.1 (Nat.ne_of_lt hcount)
    | error e =>
      obtain ⟨count', hcount', hshard'⟩ := hr
      refine ⟨⟨e, rfl⟩, fun _ h => absurd h List.not_mem_nil, ?_⟩
      exact ⟨shard', rest, count', rfl, hcount', hshard'⟩
  | cons shard before ih =>
    obtain ⟨hshard, hbefore⟩ := List.forall_mem_cons.mp hbefore
    rw [List.cons_append]
    unfold ShardedClient.openShardsFrom
    rw [wp_bind]
    refine wp_mono (wpm_openPool_opened hshard) ?_
    intro ⟨outcome, shard'⟩ s' ⟨hr, hsame⟩
    rw [show outcome = .ok () from hr, show shard' = shard from hsame]
    dsimp only
    rw [wp_bind]
    refine wp_mono (ih hbefore) ?_
    intro ⟨r, opened, others'⟩ _ ⟨hraised, hopened, hbroken'⟩
    exact ⟨hraised, List.forall_mem_cons.mpr ⟨hshard, hopened⟩, hbroken'⟩

/-- Closing the shards does not open them again. -/
theorem wp_closeShards_opened (hopened : ∀ shard ∈ shards, shard.opened = true) :
    wp env (ShardedClient.closeShards p.transport shards)
      (fun r _ => r.1 = .ok () ∧ ∀ shard ∈ r.2, shard.opened = true) s := by
  induction shards generalizing s with
  | nil => exact ⟨rfl, hopened⟩
  | cons shard shards ih =>
    obtain ⟨hshard, hshards⟩ := List.forall_mem_cons.mp hopened
    unfold ShardedClient.closeShards
    rw [wp_bind]
    refine wp_mono (wpm_close_opened) ?_
    intro ⟨outcome, shard'⟩ s' ⟨hr, hflag⟩
    rw [show outcome = .ok () from hr]
    dsimp only
    rw [wp_bind]
    refine wp_mono (ih hshards) ?_
    intro ⟨r, shards'⟩ _ ⟨hclosed, hopened'⟩
    exact ⟨hclosed, List.forall_mem_cons.mpr ⟨hflag.trans hshard, hopened'⟩⟩

/-- `except BaseException` of `open`: the shards that were opened are closed, and the first of the
others has lost a slot. -/
theorem wp_closeShards_stuck {opened others : List Client} {e : Exc}
    (hopened : ∀ shard ∈ opened, shard.opened = true) (hbroken : Broken size others) :
    wp env (do
      let (closed, opened) ← ShardedClient.closeShards p.transport opened
      Prog.pure (closed.bind fun _ => (.error e : Except Exc Unit), opened ++ others))
      (fun r _ => (∃ e, r.1 = .error e) ∧ Stuck size r.2) s := by
  rw [wp_bind]
  refine wp_mono (wp_closeShards_opened hopened) ?_
  intro ⟨closed, opened'⟩ _ ⟨hclosed, hopened'⟩
  rw [show closed = .ok () from hclosed]
  exact ⟨⟨e, rfl⟩, opened', others, rfl, hopened', hbroken⟩

/-- `open` on shards that have all of their slots makes them ready, or raises for good. -/
theorem wpm_reopen_whole (hpos : 0 < size) (hwhole : Whole size shards) :
    wpm env (ShardedClient.reopen p.transport) (fun r shards' _ => match r with
      | .ok _ => shards'.length = shards.length ∧ ∀ shard ∈ shards', Ready size shard
      | .error _ => Stuck size shards') shards s := by
  unfold ShardedClient.reopen
  change wp env (_ >>= _) _ s
  rw [wp_bind]
  refine wp_mono (wp_openShardsFrom hpos hwhole) ?_
  intro ⟨outcome, opened, others⟩ s' ⟨hlength, hopened, hends⟩
  dsimp only at hlength hopened hends
  rcases hends with ⟨hr, hothers⟩ | ⟨⟨e, hr⟩, hbroken⟩
  · rw [hr, hothers]
    rw [hothers, List.length_nil, Nat.add_zero] at hlength
    dsimp only
    rw [List.append_nil]
    exact ⟨hlength, hopened⟩
  · rw [hr]
    refine wp_mono (wp_closeShards_stuck (fun shard h => (hopened shard h).opened) hbroken) ?_
    intro ⟨r, shards'⟩ _ ⟨⟨e', hr'⟩, hstuck⟩
    rw [show r = _ from hr']
    exact hstuck

/-- Once a shard has lost a slot, `open` raises. -/
theorem wpm_reopen_stuck (hpos : 0 < size) (hstuck : Stuck size shards) :
    wpm env (ShardedClient.reopen p.transport) (fun r shards' _ => (∃ e, r = .error e) ∧
      Stuck size shards') shards s := by
  obtain ⟨before, others, hshards, hbefore, hbroken⟩ := hstuck
  unfold ShardedClient.reopen
  change wp env (_ >>= _) _ s
  rw [wp_bind, hshards]
  refine wp_mono (wp_openShardsFrom_broken hpos hbefore hbroken) ?_
  intro ⟨outcome, opened, others'⟩ s' ⟨⟨e, hr⟩, hopened, hbroken'⟩
  rw [show outcome = _ from hr]
  exact wp_closeShards_stuck hopened hbroken'

end Sharded

/-! ## Commands -/

/-- The method does not raise that the pool is closed. -/
abbrev Admits {κ α : Type} (m : Method Net κ Exc α) : Prop := m.Only (fun _ => True) (· ≠ .poolClosed)

section Admits
variable {κ α : Type} {r : Except Exc α}

theorem admits_perform (op : NetOp) : Admits (perform op : Method Net κ Exc op.Answer) :=
  .perform (by exact trivial)

theorem admits_computed (h : Raises Exc.Computed r) : Admits
    (Method.ofExcept r : Method Net κ Exc α) := by
  refine .ofExcept (h.mono fun e he heq => ?_)
  rw [heq] at he
  exact he

theorem admits_of_clocks {m : Method Net κ Exc α} (h : Clocks m) : Admits m := by
  refine .of_leaves (h.mono (fun _ _ => trivial) fun e he => ?_)
  rw [he]
  exact Exc.noConfusion

theorem admits_requireSocket : Admits requireSocket := by
  refine .bind .self fun c => ?_
  cases c.sock with
  | none => exact .throw Exc.noConfusion
  | some sock => exact .pure sock

theorem admits_dial (host : Str) (port : ℕ) : Admits (Aio.dial host port) := by
  refine .bind .self fun c => .bind (admits_perform _) fun _ => .bind
    (admits_perform _) fun answer => ?_
  match answer with
  | .ok sock => exact .pure sock
  | .error .timeout => exact .throw Exc.noConfusion
  | .error .other => exact .throw Exc.noConfusion
  | .error .cancelled => exact .throw Exc.noConfusion

theorem admits_writeRequest (command : Command)
    (d : Deadline) : Admits (Aio.writeRequest command d) := by
  refine .bind .self fun c => .bind (admits_computed (raises_checkRequestSize _ _)) fun _ => ?_
  refine .bind admits_requireSocket fun sock => .bind (admits_of_clocks (clocks_check d)) fun _ => ?_
  refine .bind (admits_of_clocks (clocks_remaining d)) fun _ => .bind (admits_perform _) fun _ => ?_
  refine .bind (admits_computed (raises_encodeFrame _)) fun frame => ?_
  refine .bind (admits_perform _) fun answer => ?_
  match answer with
  | .ok _ => exact .update _
  | .error .timeout => exact .bind (.update _) fun _ => .throw Exc.noConfusion
  | .error .other => exact .throw Exc.noConfusion
  | .error .cancelled => exact .throw Exc.noConfusion

theorem admits_readExactly (sock : SockId) (size : ℕ) : Admits (Aio.readExactly sock size) := by
  refine .bind (admits_perform _) fun answer => ?_
  match answer with
  | .ok data => exact .pure data.1
  | .error .timeout => exact .throw Exc.noConfusion
  | .error .incomplete => exact .throw Exc.noConfusion
  | .error .other => exact .throw Exc.noConfusion
  | .error .cancelled => exact .throw Exc.noConfusion

theorem admits_readFrame (d : Deadline) : Admits (Aio.readFrame d) := by
  refine .bind admits_requireSocket fun sock => .bind (admits_of_clocks (clocks_check d)) fun _ => ?_
  refine .bind (admits_of_clocks (clocks_remaining d)) fun _ => .bind (admits_perform _) fun _ => ?_
  refine .bind (admits_readExactly _ _) fun header => .bind .self fun c => ?_
  refine .bind (admits_computed (raises_decodeFrameSize _ _)) fun size => ?_
  exact .ite (.pure _) (admits_readExactly _ _)

theorem admits_send (command : Command) (d : Deadline) : Admits (Aio.transport.send command d) := by
  refine .bind (admits_writeRequest command d) fun _ => .bind (admits_readFrame d) fun _ => ?_
  exact .bind (.update _) fun _ => .pure _

theorem admits_close : Admits closeConnection := by
  refine .bind .self fun c => ?_
  cases c.sock with
  | none => exact .pure ()
  | some sock => exact .bind (admits_perform _) fun _ => .update _

theorem admits_connect : Admits Aio.transport.connect := by
  have hhandshake : Admits Aio.transport.handshake := by
    refine .bind .self fun c => .bind (admits_computed (raises_hello _)) fun command => ?_
    refine .bind (admits_of_clocks (clocks_start _)) fun d => .bind (admits_send command d) fun _ => ?_
    refine .bind (admits_computed (raises_parseHello _)) fun info => ?_
    exact .ite (.throw Exc.noConfusion) (.update _)
  refine .bind .self fun c => .bind (admits_computed (raises_splitAddress _)) fun target => ?_
  refine .bind (admits_dial _ _) fun sock => .bind (.update _) fun _ => ?_
  refine .bind_attempt hhandshake fun r hr => ?_
  cases r with
  | ok _ => exact .pure ()
  | error e => exact .bind admits_close fun _ => .throw (hr e rfl)

theorem admits_backoff (policy : ReconnectPolicy) (attempt : ℕ) (d : Deadline) :
    Admits (Aio.transport.backoff policy attempt d) := by
  have h := Package.aio.backoff_raises policy attempt d
  refine .of_leaves (h.mono (fun _ _ => trivial) fun e he heq => ?_)
  rw [heq] at he
  exact he

theorem admits_take (d : Deadline) : Admits (Aio.take d) := by
  refine .bind (admits_of_clocks (clocks_remaining d)) fun _ => .bind (admits_perform _) fun _ => ?_
  refine .bind (admits_perform _) fun answer => ?_
  match answer with
  | .ok slot => exact .pure slot
  | .error .timeout => exact .throw Exc.noConfusion
  | .error .cancelled => exact .throw Exc.noConfusion

end Admits

/-- A pool that answers whether it is closed. -/
def lending : World Net (ConnectionPool × Unit) where
  permits _ _ := True
  step a op answer a' := a'.1.closed = a.1.closed ∧ match op, answer with
    | .poolClosed, flag => flag = a.1.closed
    | _, _ => True

section Lending
variable {κ α : Type} {a : ConnectionPool × Unit}

theorem wpm_lending {m : Method Net κ Exc α} (hm : Admits m) {c : κ} (hopen : a.1.closed = false) :
    wpm lending m (fun r _ a' => Raises (· ≠ .poolClosed) r ∧ a'.1.closed = false) c a := by
  have hkeeps : Keeps lending (fun _ => True) fun a => a.1.closed = false :=
    fun a op _ hopen => ⟨trivial, fun _ a' hstep => hstep.1.trans hopen⟩
  exact wpm_of_only hkeeps hm hopen

theorem wpm_withRetry_lending (policy : ReconnectPolicy) (command : Command) (d : Deadline)
    (rounds attempt : ℕ) {c : Connection} (hopen : a.1.closed = false) :
    wpm lending (Aio.transport.withRetry policy command d Aio.transport.send rounds attempt)
      (fun r _ a' => Raises (· ≠ .poolClosed) r ∧ a'.1.closed = false) c a := by
  -- the pool stays as it is: whether it was closed is asked before and after a call only
  induction rounds generalizing attempt c a with
  | zero => exact trivial
  | succ rounds ih =>
    unfold Transport.withRetry
    rw [wpm_bind, wpm_attempt]
    refine wpm_mono (wpm_lending (admits_send command d) hopen) ?_
    intro r c₁ a₁ ⟨hr, hopen₁⟩
    cases r with
    | ok response => exact ⟨raises_ok _, hopen₁⟩
    | error e =>
      have hraise : ∀ {a' : ConnectionPool × Unit}, a'.1.closed = false →
          Raises (· ≠ .poolClosed) (.error e : Except Exc Bytes) ∧ a'.1.closed = false :=
        fun h => ⟨raises_error (hr e rfl), h⟩
      cases e with
      | connectionError fault =>
        dsimp only
        unfold Transport.retryFailed
        rw [wpm_bind, wpm_self]
        dsimp only
        rw [wpm_ite, wpm_ite]
        split
        · exact hraise hopen₁
        · split
          · exact hraise hopen₁
          · rw [wpm_bind]
            refine wpm_mono (wpm_lending (admits_backoff policy _ d) hopen₁) ?_
            intro r c₂ a₂ ⟨hr₂, hopen₂⟩
            cases r with
            | error e' => exact ⟨raises_error (hr₂ e' rfl), hopen₂⟩
            | ok _ =>
              dsimp only
              unfold Transport.retryReconnect Transport.reconnect
              rw [wpm_bind, wpm_attempt]
              refine wpm_mono (wpm_lending (.bind admits_close fun _ => admits_connect) hopen₂) ?_
              intro r c₃ a₃ ⟨hr₃, hopen₃⟩
              cases r with
              | ok _ => exact ih _ hopen₃
              | error e' =>
                cases e' with
                | connectionError _ => exact ih _ hopen₃
                | _ => exact ⟨raises_error (hr₃ _ rfl), hopen₃⟩
      | _ => exact hraise hopen₁

theorem wpm_acquire_lending (settings : Settings) (d : Deadline) (hopen : a.1.closed = false) :
    wpm lending (Aio.transport.acquire settings d)
      (fun r _ a' => Raises (· ≠ .poolClosed) r ∧ a'.1.closed = false) () a := by
  unfold Transport.acquire
  rw [wpm_bind, wpm_perform_op]
  refine ⟨trivial, fun flag a₁ ⟨hclosed, hflag⟩ => ?_⟩
  replace hopen : a₁.1.closed = false := hclosed.trans hopen
  rw [show flag = false from hflag.trans (hclosed.symm.trans hopen)]
  dsimp only
  rw [if_neg Bool.false_ne_true]
  refine wpm_lending (.bind (admits_take d) fun slot => ?_) hopen
  cases slot with
  | some connection => exact .pure connection
  | none =>
    refine .bind_on admits_connect fun outcome houtcome => ?_
    obtain ⟨outcome, connection⟩ := outcome
    cases outcome with
    | ok _ => exact .pure connection
    | error e => exact .bind (admits_perform _) fun _ => .throw (houtcome e rfl)

theorem admits_release (connection : Connection) : Admits (Transport.release connection) := by
  refine .bind (admits_perform _) fun closed => .ite ?_ (admits_perform _)
  exact .bind_on admits_close fun _ _ => .pure ()

/-- A command on an open pool does not raise that the pool is closed. -/
theorem wpm_request_lending (config : ClientConfig) (rounds : ℕ) (command : Command)
    (timeout : Timeout) (hopen : a.1.closed = false) :
    wpm lending (Aio.transport.request config rounds command timeout)
      (fun r _ _ => Raises (· ≠ .poolClosed) r) () a := by
  unfold Transport.request
  rw [wpm_bind]
  refine wpm_mono (wpm_lending (admits_of_clocks (clocks_start _)) hopen) ?_
  intro r _ a₁ ⟨hr, hopen₁⟩
  cases r with
  | error e => exact raises_error (hr e rfl)
  | ok d =>
    dsimp only
    unfold Transport.withConnection
    rw [wpm_bind]
    refine wpm_mono (wpm_acquire_lending config.settings d hopen₁) ?_
    intro r _ a₂ ⟨hr, hopen₂⟩
    cases r with
    | error e => exact raises_error (hr e rfl)
    | ok connection =>
      dsimp only
      rw [wpm_bind, wpm_on]
      refine wpm_mono (wpm_withRetry_lending config.reconnect command d rounds 0 hopen₂) ?_
      intro outcome connection' a₃ ⟨houtcome, hopen₃⟩
      dsimp only
      rw [wpm_bind]
      refine wpm_mono (wpm_lending (admits_release connection') hopen₃) ?_
      intro r _ a₄ ⟨hr, _⟩
      cases r with
      | error e => exact raises_error (hr e rfl)
      | ok _ => exact houtcome

end Lending

/-- No command on that pool ends with a closed pool, whatever the answers to its operations. -/
def Usable (shard : Client) : Prop :=
  ∀ rounds command timeout, wp (record Net)
    ((Aio.transport.request shard.config rounds command timeout ()).handled ConnectionPool.queue
      shard.pool) (fun r _ => r.1.1 ≠ .error .poolClosed) []

/-- The queue of a pool answers like a pool. -/
theorem wp_queue (op : NetOp) (pool : ConnectionPool) (s : Unit) :
    wp (monitor fun (_ : Unit) (_ : Event Net) => ()) (ConnectionPool.queue op pool)
      (fun r s' => lending.step (pool, s) op r.1 (r.2, s')) s := by
  obtain ⟨size, slots, closed⟩ := pool
  cases op with
  | poolClosed => exact ⟨rfl, rfl⟩
  | putSlot slot => exact ⟨rfl, trivial⟩
  | getSlot timeout =>
    cases slots with
    | cons slot slots => exact ⟨rfl, trivial⟩
    | nil =>
      cases timeout with
      | none => exact trivial
      | some _ => exact ⟨rfl, trivial⟩
  | awaitSlot =>
    cases slots with
    | cons slot slots => exact ⟨rfl, trivial⟩
    | nil => exact trivial
  | _ => exact ⟨trivial, fun _ _ _ => ⟨rfl, trivial⟩⟩

theorem usable_of_open {shard : Client} (hopen : shard.pool.closed = false) : Usable shard := by
  intro rounds command timeout
  have hlending := wpm_request_lending shard.config rounds command timeout (a := (shard.pool, ())) hopen
  have hqueue := wp_handled (W := monitor fun (_ : Unit) (_ : Event Net) => ())
    (fun op pool s _ => wp_queue op pool s) (fun _ => trivial) hlending
  refine wp_mono (wp_record_of_monitor (f := fun _ _ => ()) hqueue) ?_
  intro r _ hr h
  exact hr _ h rfl

theorem sized_of_create {load : LoadFiles} {options : ClientOptions} {address : Str} {shard : Client}
    (h : Client.create load options address = .ok shard) :
    shard.pool.size = options.poolSize.toNat := by
  rw [(created h).2.2]

/-- So many shards with all of their slots, or one that has lost a slot for good. -/
def Opens (size count : ℕ) (shards : List Client) : Prop :=
  (Whole size shards ∧ shards.length = count) ∨ Stuck size shards

section Opens
variable {p : Package} {shards : List Client} {s : Multiset SockId} {size count : ℕ}

theorem wpm_reopen (hpos : 0 < size) (hopens : Opens size count shards) :
    wpm env (ShardedClient.reopen p.transport) (fun r shards' _ => Opens size count shards' ∧
      (r = .ok () → shards'.length = count ∧ ∀ shard ∈ shards', Ready size shard)) shards s := by
  rcases hopens with ⟨hwhole, hcount⟩ | hstuck
  · refine wpm_mono (wpm_reopen_whole hpos hwhole) ?_
    intro r shards' _ hr
    cases r with
    | error e => exact ⟨Or.inr hr, fun h => by cases h⟩
    | ok _ =>
      obtain ⟨hlength, hready⟩ := hr
      refine ⟨Or.inl ⟨fun shard h => Or.inr (hready shard h), hlength.trans hcount⟩, fun _ => ?_⟩
      exact ⟨hlength.trans hcount, hready⟩
  · refine wpm_mono (wpm_reopen_stuck hpos hstuck) ?_
    intro r shards' _ ⟨⟨e, hr⟩, hstuck'⟩
    rw [hr]
    exact ⟨Or.inr hstuck', fun h => by cases h⟩

theorem wp_reopenTimes (hpos : 0 < size) (calls : ℕ) (hopens : Opens size count shards) :
    wp env (ShardedClient.reopenTimes p.transport calls shards)
      (fun shards' _ => Opens size count shards') s := by
  induction calls generalizing shards s with
  | zero => exact hopens
  | succ calls ih =>
    unfold ShardedClient.reopenTimes
    rw [wp_bind]
    refine wp_mono (wpm_reopen hpos hopens) ?_
    intro ⟨r, shards'⟩ s' ⟨hopens', _⟩
    exact ih hopens'

end Opens

theorem opens_of_create {load : LoadFiles} {options : ClientOptions} {addresses : List Str}
    {shards : List Client} (h : ShardedClient.create load options addresses = .ok shards) :
    0 < options.poolSize ∧ Opens options.poolSize.toNat addresses.length shards := by
  unfold ShardedClient.create at h
  split at h
  · cases h
  next haddresses =>
    have hlength : addresses.length = shards.length := by
      rw [mapM_ok_iff (R := fun address shard => Client.create load options address = .ok shard)
        fun _ _ => Iff.rfl] at h
      exact h.length_eq
    have hsized := forall_of_mapM (fun _ _ => sized_of_create) h
    have hfresh := fresh_of_mapM h
    refine ⟨?_, Or.inl ⟨fun shard hshard => Or.inl ?_, hlength.symm⟩⟩
    · -- there is a shard, and its pool has a slot
      obtain ⟨shard, hshard⟩ := List.exists_mem_of_length_pos
        (hlength ▸ List.length_pos_iff.mpr haddresses)
      have hpositive := (hfresh shard hshard).positive
      rw [hsized shard hshard] at hpositive
      omega
    · obtain ⟨hopen, _, hempty, hunopened⟩ := hfresh shard hshard
      refine ⟨hunopened, hopen, hsized shard hshard, ?_⟩
      rw [hempty, List.length_replicate, hsized shard hshard]

/-- `open` that returns means a usable client. Whatever the sequence of calls of `open` on a new
`AsyncShardedClient` and whatever became of their connection attempts, when the next call returns
every pool is open with all of its slots, and no command on any shard raises that it is closed. -/
theorem open_returns_usable (load : LoadFiles) (options : ClientOptions) (addresses : List Str)
    (calls : ℕ) {shards : List Client}
    (hcreate : ShardedClient.create load options addresses = .ok shards) :
    Ends (monitor track)
      (do
        let shards ← ShardedClient.reopenTimes Aio.transport calls shards
        ShardedClient.reopen Aio.transport shards)
      (fun rc _ => rc.1 = .ok () → rc.2.length = addresses.length ∧ ∀ shard ∈ rc.2,
        shard.pool.closed = false ∧ (shard.pool.slots.length : ℤ) = options.poolSize ∧
          Usable shard) 0 := by
  obtain ⟨hpos, hopens⟩ := opens_of_create hcreate
  have hsize : 0 < options.poolSize.toNat := by omega
  apply ends_of_live
  rw [wp_bind]
  refine wp_mono (wp_reopenTimes (p := .aio) hsize calls hopens) ?_
  intro shards' s' hopens'
  refine wp_mono (wpm_reopen (p := .aio) hsize hopens') ?_
  intro ⟨r, shards''⟩ _ ⟨_, hready⟩ hr
  obtain ⟨hlength, hready⟩ := hready hr
  refine ⟨hlength, fun shard hshard => ?_⟩
  obtain ⟨_, hopen, _, hslots⟩ := hready shard hshard
  refine ⟨hopen, ?_, usable_of_open hopen⟩
  rw [hslots]
  omega

/-- A shard with one connection to open, and the options it is made of. -/
def single : ClientOptions := { poolSize := 1 }

def singleShard (address : Str) : Client :=
  ⟨single.config address, ⟨1, [none], false⟩, [], false, false⟩

theorem second_open_returns_usable :
    Ends (monitor track)
      (do
        let shards ← ShardedClient.reopenTimes Aio.transport 1
          [singleShard "db:7".toList, singleShard "db:8".toList]
        ShardedClient.reopen Aio.transport shards)
      (fun rc _ => rc.1 = .ok () → rc.2.length = 2 ∧ ∀ shard ∈ rc.2,
        shard.pool.closed = false ∧ (shard.pool.slots.length : ℤ) = single.poolSize ∧
          Usable shard) 0 :=
  open_returns_usable (fun _ => .ok ()) single ["db:7".toList, "db:8".toList] 1 rfl

/-- Servers that answer the handshakes of the clients. -/
def greeting (reads : ℕ) : (op : NetOp) → op.Answer × ℕ
  | .readexactly _ size =>
    let data := if reads % 2 = 0 then beBytes 17 else encodeUtf8 "ok|1;4096;0;admin".toList
    (if h : data.length = size then .ok ⟨data, h⟩ else .error .incomplete, reads + 1)
  | op => (op.calm, reads)

/-- Where they do, `open` returns. -/
example : (((ShardedClient.reopen Aio.transport
    [singleShard "db:7".toList, singleShard "db:8".toList]).run greeting 0).1.map (·.1)) =
      some (.ok ()) := by
  decide +kernel

end Reopening

end FqClient
