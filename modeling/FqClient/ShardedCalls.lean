import FqClient.Effects.Handler
import FqClient.Effects.Several
import FqClient.SequentialCalls
import FqClient.ShardedStore

namespace FqClient

open Effects HeldLines OwnResponses PooledLines Linearization SequentialCalls

/-- The networks behind the clients of the shards. -/
abbrev Nets : Interface := Net.each ℕ

/-- What the clients of the shards do for the sharded client, each over its own network. -/
def Transport.attend (t : Transport) (config : ℕ → ClientConfig) (rounds : ℕ)
    (loads : Bytes → Except LoadFault Json) :
    (op : ShardOp) → Unit → Prog Nets (Except Exc op.Result × Unit)
  | .keyed index call timeout, c =>
    (t.invoke (config index) rounds timeout (.keyed call) c).inside index
  | .mdelete index keys timeout, c =>
    (t.invoke (config index) rounds timeout (.mdelete keys) c).inside index
  | .scan index count cursor timeout, c =>
    (t.invoke (config index) rounds timeout (.scan count cursor) c).inside index
  | .pscan index pfx count cursor timeout, c =>
    (t.invoke (config index) rounds timeout (.pscan pfx count cursor) c).inside index
  | .flushdb index timeout, c => (t.invoke (config index) rounds timeout .flushdb c).inside index
  | .truncate index timeout, c => (t.invoke (config index) rounds timeout .truncate c).inside index
  | .inspect index section' timeout, c =>
    (t.inspect (config index) rounds loads section' timeout c).inside index

namespace ShardedCalls

variable {ι S : Type}

/-- A call of a keyed method of the sharded client. -/
structure Keyed where
  call : KeyCall
  timeout : Timeout
  rounds : ℕ

/-- What the client of the shard is called for. -/
def Keyed.invocation (x : Keyed) : Invocation := ⟨.keyed x.call, x.timeout, x.rounds⟩

section Method
variable (p : Package) (client : ShardedClient) (config : ℕ → ClientConfig)
  (loads : Bytes → Except LoadFault Json) (x : Keyed)

/-- The call, with its result. -/
def Keyed.task : ShardTask ((call : ClientCall) × call.Result) := do
  let result ← client.keyed x.timeout x.call
  return ⟨.keyed x.call, result⟩

/-- The call, down to the networks of the shards. -/
def Keyed.method : Prog Nets Ended :=
  (x.task client ()).handled (p.transport.attend config x.rounds loads) () >>= fun r => .pure r.1

/-- How the call ends, after that of the client. -/
def Keyed.ends (rc : Except Exc x.call.Result × Unit) : Ended :=
  (rc.1.map fun result => ⟨.keyed x.call, result⟩, rc.2)

theorem invocation_method (config : ClientConfig) : x.invocation.method p config () =
    p.transport.invoke config x.rounds x.timeout (.keyed x.call) () >>= fun rc =>
      .pure (x.ends rc) := by
  refine congrArg (Prog.bind _) ?_
  funext ⟨r, c⟩
  cases r <;> rfl

/-- The client of its shard makes the call. -/
theorem method_eq_inside (hroutes : client.Routes) :
    x.method p client config loads =
      (x.invocation.method p (config (client.shardOf x.call.routingKey)) ()).inside
        (client.shardOf x.call.routingKey) := by
  unfold Keyed.method Keyed.task
  rw [client.keyed_eq_byKey]
  unfold ShardedClient.byKey
  rw [hroutes.indexOf, invocation_method, Prog.inside_bind]
  refine (Prog.bind_assoc' _ _ _).trans ?_
  congr 1
  funext ⟨r, c⟩
  cases r <;> rfl

end Method

/-! ## The shards and their servers -/

/-- The keyed calls of a store; the other calls are none of its own. -/
def spec (store : Store S) : Spec (Str → S)
  | .keyed call, db => store.keyed call db
  | _, db => (.error .valueError, db)

/-- The systems of the shards. Only the proof keeps the requests that the servers have handled, in one
order. -/
structure Fleet (ι S : Type) where
  shard : ℕ → System ι (Str → S)
  handled : List (Handled ι)

variable [DecidableEq ι]

namespace Fleet
variable (serve : ℕ → Bytes → (Str → S) → Bytes × (Str → S))

/-- An operation on the network of one shard. -/
def step (i : ι) (s : Fleet ι S) (op : ℕ × NetOp) (a : op.2.Answer) (s' : Fleet ι S) : Prop :=
  (Linearization.env (serve op.1) i).step (s.shard op.1) op.2 a (s'.shard op.1) ∧
    (∀ k, k ≠ op.1 → s'.shard k = s.shard k) ∧
    ∃ new, (s'.shard op.1).backend.handled = (s.shard op.1).backend.handled ++ new ∧
      s'.handled = s.handled ++ new

def env (i : ι) : World Nets (Fleet ι S) where
  permits s op := (Linearization.env (serve op.1) i).permits (s.shard op.1) op.2
  step := step serve i

/-- No connection is put back while a response to it is outstanding. -/
def world (i : ι) : World Nets (Fleet ι S) :=
  (env serve i).given fun s op => Settled wire (s.shard op.1).pool op.2

theorem apart : Apart (world serve) (fun k => Linearization.world (ι := ι) (serve k))
    fun k (s : Fleet ι S) => s.shard k where
  own h := ⟨h.1, h.2.1⟩
  others h hk := h.2.2.1 _ hk

variable {serve}

/-- Every shard has its ledger, of the tasks that are at home there; the requests of all are handled in
one order. -/
structure Whole (serve : ℕ → Bytes → (Str → S) → Bytes × (Str → S)) (home : ι → ℕ) (dbs₀ : ℕ → Str → S)
    (s : Fleet ι S) : Prop where
  ledger : ∀ k, Ledger (serve k) (dbs₀ k) (s.shard k).pool.note (s.shard k).backend
  alone : ∀ k i, home i ≠ k → (s.shard k).backend.events i = []
  merged : ∀ k, s.handled.filter (fun e => home e.task = k) = (s.shard k).backend.handled

theorem whole_of_step {home : ι → ℕ} {dbs₀ : ℕ → Str → S} {s s' : Fleet ι S} {i : ι} {o : NetOp}
    {a : o.Answer} (hs : Whole serve home dbs₀ s) (h : step serve i s (home i, o) a s') :
    Whole serve home dbs₀ s' := by
  obtain ⟨hown, hothers, new, hnew, hhandled⟩ := h
  have hledger : ∀ k, Ledger (serve k) (dbs₀ k) (s'.shard k).pool.note (s'.shard k).backend := by
    intro k
    by_cases hk : k = home i
    · rw [hk]
      exact ledger_of_step (hs.ledger _) hown
    · rw [hothers k hk]
      exact hs.ledger k
  have halone : ∀ k j, home j ≠ k → (s'.shard k).backend.events j = [] := by
    intro k j hj
    by_cases hk : k = home i
    · have hji : j ≠ i := fun h => hj (h ▸ hk.symm)
      rw [hk, events_of_step hown, Function.update_of_ne hji]
      exact hs.alone _ j (hk ▸ hj)
    · rw [hothers k hk]
      exact hs.alone k j hj
  refine ⟨hledger, halone, fun k => ?_⟩
  have hhome : ∀ e ∈ new, home e.task = home i := by
    intro e he
    by_contra hne
    exact (hledger _).begun (hnew ▸ List.mem_append_right _ he) (halone _ _ hne)
  rw [hhandled, List.filter_append, hs.merged]
  by_cases hk : k = home i
  · have hall : new.filter (fun e => home e.task = k) = new :=
      List.filter_eq_self.mpr fun e he => decide_eq_true ((hhome e he).trans hk.symm)
    rw [hall, hk, hnew]
  · have hnone : new.filter (fun e => home e.task = k) = [] :=
      List.filter_eq_nil_iff.mpr fun e he h => hk ((of_decide_eq_true h).symm.trans (hhome e he))
    rw [hnone, List.append_nil, hothers k hk]

end Fleet

/-! ## One sequence for all shards -/

section Sequence
variable (store : Store S) (client : ShardedClient) (calls : ι → Keyed)

/-- The shard of a call. -/
def home (i : ι) : ℕ := client.shardOf (calls i).call.routingKey

def invocations (i : ι) : Invocation := (calls i).invocation

variable {store client calls}

omit [DecidableEq ι] in
/-- Calls made to their shards are calls made to the one database that the shards are. -/
theorem merged_after (order : List ι) (dbs : ℕ → Str → S) :
    client.merged (fun k => after (spec store) (invocations calls)
      (order.filter fun i => home client calls i = k) (dbs k)) =
      after (spec store) (invocations calls) order (client.merged dbs) := by
  induction order generalizing dbs with
  | nil => rfl
  | cons i order ih =>
    have hnext := ih (Function.update dbs (home client calls i)
      (store.keyed (calls i).call (dbs (home client calls i))).2)
    have hmerged : client.merged (Function.update dbs (home client calls i)
        (store.keyed (calls i).call (dbs (home client calls i))).2) =
          (store.keyed (calls i).call (client.merged dbs)).2 := merged_update_keyed dbs _ _
    rw [hmerged] at hnext
    refine Eq.trans (congrArg client.merged ?_) hnext
    funext k
    by_cases hk : home client calls i = k
    · have hfirst : (i :: order).filter (fun j => home client calls j = k) =
          i :: order.filter fun j => home client calls j = k := by simp [hk]
      rw [hfirst, ← hk, Function.update_self]
      rfl
    · have hrest : (i :: order).filter (fun j => home client calls j = k) =
          order.filter fun j => home client calls j = k := by simp [hk]
      rw [hrest, Function.update_of_ne (Ne.symm hk)]

omit [DecidableEq ι] in
theorem order_filter (handled : List (Handled ι)) (k : ℕ) :
    (order (invocations calls) handled).filter (fun i => home client calls i = k) =
      order (invocations calls) (handled.filter fun e => home client calls e.task = k) := by
  unfold order
  rw [List.filter_map, List.filter_filter, List.filter_filter]
  congr 1
  apply List.filter_congr
  intro e _
  exact Bool.and_comm _ _

/-- The calls that the servers of the shards have handled, in their order. -/
def servedBy (calls : ι → Keyed) (t : Tasks Nets ι Ended (Fleet ι S)) : List ι :=
  order (invocations calls) t.state.handled

/-- A task has performed an operation. -/
def BegunBy (client : ShardedClient) (calls : ι → Keyed) (t : Tasks Nets ι Ended (Fleet ι S)) (i : ι) :
    Prop :=
  ((t.state.shard (home client calls i)).backend.events i) ≠ []

/-- Calls over the pools of the shards, none of which has begun. -/
def fleet (p : Package) (client : ShardedClient) (config : ℕ → ClientConfig)
    (loads : Bytes → Except LoadFault Json) (calls : ι → Keyed) (opened : ℕ → List Connection)
    (empty : ℕ → ℕ) (first : ι) (dbs₀ : ℕ → Str → S) : Tasks Nets ι Ended (Fleet ι S) :=
  ⟨first, fun i => (calls i).method p client config loads,
    ⟨fun k => ⟨.start wire none (opened k) (empty k), dbs₀ k, [], [], fun _ => []⟩, []⟩⟩

variable {serve : ℕ → Bytes → (Str → S) → Bytes × (Str → S)} {p : Package} {config : ℕ → ClientConfig}
  {loads : Bytes → Except LoadFault Json} {opened : ℕ → List Connection} {empty : ℕ → ℕ} {first : ι}
  {dbs₀ : ℕ → Str → S} {t : Tasks Nets ι Ended (Fleet ι S)}

theorem whole_of_reaches (hroutes : client.Routes)
    (h : Tasks.Reaches (Fleet.world serve) (fun _ => True)
      (fleet p client config loads calls opened empty first dbs₀) t) :
    Fleet.Whole serve (home client calls) dbs₀ t.state := by
  have hkeeps : ∀ (i : ι) (s : Fleet ι S) (o : NetOp) (a : o.Answer) (s' : Fleet ι S),
      Fleet.Whole serve (home client calls) dbs₀ s →
        (Fleet.world serve i).step s (home client calls i, o) a s' →
          Fleet.Whole serve (home client calls) dbs₀ s' :=
    fun _ _ _ _ _ hs hstep => Fleet.whole_of_step hs hstep.2
  refine (Tasks.Reaches.keeps_inside hkeeps
    (fun i => ⟨_, method_eq_inside p client config loads (calls i) hroutes⟩) h ?_).2
  exact ⟨fun k => ledger_start (serve k) (dbs₀ k), fun k i _ => rfl, fun k => rfl⟩

/-- What a shard sees of the calls is a sequence of calls to it. -/
theorem sequential_of_shard (hroutes : client.Routes)
    (hserves : ∀ k, Serves (serve k) (spec store) (invocations calls))
    (h : Tasks.Reaches (Fleet.world serve) (fun _ => True)
      (fleet p client config loads calls opened empty first dbs₀) t) (k : ℕ) :
    ∃ u : Tasks Net ι Ended (System ι (Str → S)),
      Sequential (spec store) (invocations calls) (dbs₀ k)
        ((servedBy calls t).filter fun i => home client calls i = k) u.prog
        (t.state.shard k).backend.db (fun i => (t.state.shard k).backend.events i ≠ []) ∧
      ∀ i, home client calls i = k → t.prog i = (u.prog i).inside k := by
  have hstart : ∀ i, (fleet p client config loads calls opened empty first dbs₀).prog i =
      ((invocations calls i).method p (config (home client calls i)) ()).inside (home client calls i) :=
    fun i => method_eq_inside p client config loads (calls i) hroutes
  let awaits : NetOp → Prop := fun _ => True
  have hrun : Tasks.Reaches (Fleet.world serve) (fun (o : ℕ × NetOp) => awaits o.2) _ t := h
  obtain ⟨first', u, hreaches, hstate, hsame⟩ := Tasks.Reaches.seen
    (fun k i => (invocations calls i).method p (config k) ()) (Fleet.apart serve) hstart hrun k
  refine ⟨u, ?_, hsame⟩
  have hsequential := sequential_of_reaches (hserves k) hreaches
  unfold served Begun at hsequential
  rw [hstate, ← (whole_of_reaches hroutes h).merged k, ← order_filter] at hsequential
  exact hsequential

theorem sequential_of_fleet (hroutes : client.Routes)
    (hserves : ∀ k, Serves (serve k) (spec store) (invocations calls))
    (h : Tasks.Reaches (Fleet.world serve) (fun _ => True)
      (fleet p client config loads calls opened empty first dbs₀) t) :
    Sequential (spec store) (invocations calls) (client.merged dbs₀) (servedBy calls t) t.prog
      (client.merged fun k => (t.state.shard k).backend.db) (BegunBy client calls t) := by
  have hshard := sequential_of_shard hroutes hserves h
  constructor
  · rw [← merged_after]
    congr 1
    funext k
    obtain ⟨u, hsequential, _⟩ := hshard k
    exact hsequential.state
  · intro i result hreturned
    obtain ⟨u, hsequential, hsame⟩ := hshard (home client calls i)
    have hu := Prog.inside_eq_pure ((hsame i rfl).symm.trans hreturned)
    obtain ⟨earlier, later, hsplit, hanswer⟩ := hsequential.returned i result hu
    obtain ⟨before, rest, hserved, hearlier, hrest⟩ := List.filter_eq_append_iff.mp hsplit
    obtain ⟨others, after', rfl, hothers, _, _⟩ := List.filter_eq_cons_iff.mp hrest
    refine ⟨before ++ others, after', by rw [hserved, List.append_assoc], ?_⟩
    have hown : (before ++ others).filter
      (fun j => home client calls j = home client calls i) = earlier := by
      rw [List.filter_append, hearlier, List.filter_eq_nil_iff.mpr hothers, List.append_nil]
    rw [← merged_after, ← hanswer, ← hown]
    rfl
  · intro i hmutates
    obtain ⟨u, hsequential, _⟩ := hshard (home client calls i)
    have honce := hsequential.once i hmutates
    rwa [List.count_filter (p := fun j => decide (home client calls j = home client calls i))
      (decide_eq_true rfl)] at honce
  · intro i hi
    obtain ⟨u, hsequential, _⟩ := hshard (home client calls i)
    exact hsequential.begun i (List.mem_filter.mpr ⟨hi, decide_eq_true rfl⟩)

theorem handled_of_fleet {t' : Tasks Nets ι Ended (Fleet ι S)}
    (h : Tasks.Reaches (Fleet.world serve) (fun _ => True) t t') :
    t.state.handled <+: t'.state.handled := by
  refine Tasks.Reaches.keeps (P := fun s => t.state.handled <+: s.handled) ?_ h List.prefix_rfl
  intro i s op a s' hs hstep
  obtain ⟨_, _, _, new, _, hnew⟩ := hstep
  exact hs.trans ⟨new, hnew.symm⟩

/-- However keyed calls of a sharded client interleave, and whatever is lost on any shard, as long as no
connection is put back while a response to it is outstanding they are one sequence of calls to one store;
what follows extends that sequence. -/
theorem sharded_calls_sequential (hroutes : client.Routes)
    (hserves : ∀ k, Serves (serve k) (spec store) (invocations calls))
    (h : Tasks.Reaches (Fleet.world serve) (fun _ => True)
      (fleet p client config loads calls opened empty first dbs₀) t) :
    Sequential (spec store) (invocations calls) (client.merged dbs₀) (servedBy calls t) t.prog
      (client.merged fun k => (t.state.shard k).backend.db) (BegunBy client calls t) ∧
      ∀ t', Tasks.Reaches (Fleet.world serve) (fun _ => True) t t' →
        servedBy calls t <+: servedBy calls t' :=
  ⟨sequential_of_fleet hroutes hserves h, fun _ ht' => order_mono _ (handled_of_fleet ht')⟩

end Sequence

/-! ## Two shards -/

section Host
variable (serve : ℕ → Bytes → (Str → S) → Bytes × (Str → S)) (foresee : ι → Bytes → (Str → S) → Bytes)

/-- The servers of the shards, given the responses that they will come to give. -/
def hostAll (i : ι) (s : Fleet ι S) (op : ℕ × NetOp) : Option (op.2.Answer × Fleet ι S) :=
  (host (serve op.1) foresee i (s.shard op.1) op.2).map fun done =>
    (done.1, ⟨Function.update s.shard op.1 done.2,
      s.handled ++ done.2.backend.handled.drop (s.shard op.1).backend.handled.length⟩)

theorem step_hostAll (i : ι) (s : Fleet ι S) (op : ℕ × NetOp) (a : op.2.Answer) (s' : Fleet ι S)
    (h : hostAll serve foresee i s op = some (a, s')) : (Fleet.world serve i).step s op a s' := by
  obtain ⟨⟨a, after⟩, hhost, heq⟩ := Option.map_eq_some_iff.mp h
  cases heq
  obtain ⟨hsettled, hstep⟩ := step_host (serve op.1) foresee i (s.shard op.1) op.2 a after hhost
  refine ⟨hsettled, ?_, fun k hk => Function.update_of_ne hk _ _, _, ?_, rfl⟩
  · dsimp only
    rw [Function.update_self]
    exact hstep
  · dsimp only
    rw [Function.update_self]
    exact (List.prefix_iff_eq_append.mp (handled_of_step hstep)).symm

end Host

/-- INCRs of keys on two shards. -/
def twoKeys (i : Bool) : Keyed := ⟨.incr ⟨if i then "miss".toList else "hit".toList, 60⟩, .unlimited, 1⟩

/-- A store that counts the calls for every key. -/
def counters : Store ℕ where
  answer call n := (call.parse (okPayload (valueParts (n + 1))), n + 1)
  mdel _ n := (true, n)

/-- A server with such a store. -/
def countersServe (frame : Bytes) (db : Str → ℕ) : Bytes × (Str → ℕ) :=
  match [false, true].find? fun i => (invocations twoKeys i).Asks frame with
  | some i =>
    let key := (twoKeys i).call.routingKey
    (okPayload (valueParts (db key + 1)), Function.update db key (db key + 1))
  | none => (encodeUtf8 "err|1|unknown".toList, db)

/-- The requests tell the calls apart. -/
theorem find_asks {i : Bool} {frame : Bytes} (h : (invocations twoKeys i).Asks frame) :
    ([false, true].find? fun j => (invocations twoKeys j).Asks frame) = some i := by
  have hall : ∀ i, ((request (invocations twoKeys i)).toOption.bind fun frame =>
      [false, true].find? fun j => (invocations twoKeys j).Asks frame) = some i := by decide +kernel
  have hi := hall i
  rw [(asks_iff _ _).mp h] at hi
  exact hi

theorem serves_counters : Serves countersServe (spec counters) (invocations twoKeys) := by
  constructor
  · intro frame db hgreets
    have hnone : ([false, true].find? fun i => (invocations twoKeys i).Asks frame) = none := by
      rw [List.find?_eq_none]
      intro i _ hasks
      have hhits : Hits ⟨if i then "miss".toList else "hit".toList, 60⟩ (invocations twoKeys i) := rfl
      exact not_asks_of_greets (mutates_of_hits hhits) hgreets (of_decide_eq_true hasks)
    unfold countersServe
    rw [hnone]
  · intro i frame db hasks
    unfold countersServe
    rw [find_asks hasks]
    rfl
  · intro i frame db hasks
    unfold countersServe
    rw [find_asks hasks]
    rfl

def twoTasks : Tasks Nets Bool Ended (Fleet Bool ℕ) :=
  fleet .sync ShardedClient.twoShards (fun _ => { settings := Connection.pooled.settings })
    (fun _ => .error .valueError) twoKeys (fun _ => [.pooled]) (fun _ => 0) false fun _ _ => 0

/-- Calls on two shards, in one sequence. -/
theorem two_shards_sequential : ∃ t : Tasks Nets Bool Ended (Fleet Bool ℕ),
    Told ⟨"hit".toList, 60⟩ t.prog false 1 ∧ Told ⟨"miss".toList, 60⟩ t.prog true 1 ∧
      Sequential (spec counters) (invocations twoKeys) (ShardedClient.twoShards.merged fun _ _ => 0)
        (servedBy twoKeys t) t.prog (ShardedClient.twoShards.merged fun k =>
          (t.state.shard k).backend.db)
        (BegunBy ShardedClient.twoShards twoKeys t) := by
  let answers : Bool → Fleet Bool ℕ → (op : ℕ × NetOp) → Option (op.2.Answer × Fleet Bool ℕ) :=
    hostAll (fun _ => countersServe) fun _ frame db => (countersServe frame db).1
  have hplays : (twoTasks.play answers turns).any (fun t =>
      t.ended false (.ok ⟨.keyed (.incr ⟨"hit".toList, 60⟩), (1 : ℕ)⟩, ()) &&
        t.ended true (.ok ⟨.keyed (.incr ⟨"miss".toList, 60⟩), (1 : ℕ)⟩, ())) = true := by
    decide +kernel
  obtain ⟨t, hreaches, hends⟩ := Tasks.exists_of_plays (W := Fleet.world fun _ => countersServe)
    (step_hostAll _ _) hplays
  obtain ⟨hfalse, htrue⟩ := (Bool.and_eq_true _ _).mp hends
  have hroutes : ShardedClient.twoShards.Routes := routes_fnv1aShard ShardedClient.twoShards rfl
  exact ⟨t, Tasks.prog_of_ended hfalse, Tasks.prog_of_ended htrue,
    (sharded_calls_sequential hroutes (fun _ => serves_counters) hreaches).1⟩

end ShardedCalls

end FqClient
