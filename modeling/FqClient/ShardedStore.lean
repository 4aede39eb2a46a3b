import FqClient.Effects.Contract
import FqClient.ShardedClient

namespace FqClient

open Effects

/-- The calls that the sharded client routes by key. -/
inductive RoutedCall
  | keyed (call : KeyCall)
  | mdelete (keys : List CappingKey)

@[reducible] def RoutedCall.Result : RoutedCall → Type
  | .keyed call => call.Result
  | .mdelete _ => List Bool

/-- A call and how it ended. -/
abbrev Outcome := (c : RoutedCall) × Except Exc c.Result

namespace ShardedClient

variable (client : ShardedClient)

/-- The method that a keyed call names. -/
def keyed (timeout : Timeout) : (call : KeyCall) → ShardTask call.Result
  | .incr key => client.incr key timeout
  | .incrby key value => client.incrby key value timeout
  | .get key => client.get key timeout
  | .watch key => client.watch key timeout
  | .delete key => client.delete key timeout
  | .rlimitFixedWindow key limit => client.rlimitFixedWindow key limit timeout
  | .rlimitSlidingWindow key limit => client.rlimitSlidingWindow key limit timeout
  | .rlimitTokenBucket key capacity refillAmount =>
    client.rlimitTokenBucket key capacity refillAmount timeout
  | .quotaSet name limit => client.quotaSet name limit timeout
  | .quotaSetN name limit clients => client.quotaSetN name limit clients timeout
  | .quotaAcquire name amount clientId ttl => client.quotaAcquire name amount clientId ttl timeout
  | .quotaAcquireN name clientId ttl => client.quotaAcquireN name clientId ttl timeout
  | .quotaAcquireLease name limit amount clientId ttl =>
    client.quotaAcquireLease name limit amount clientId ttl timeout
  | .quotaRelease name clientId => client.quotaRelease name clientId timeout
  | .quotaDelete name => client.quotaDelete name timeout
  | .quotaInfo name => client.quotaInfo name timeout

theorem keyed_eq_byKey (call : KeyCall) (timeout : Timeout) :
    client.keyed timeout call = client.byKey call timeout := by
  cases call <;> rfl

def routed (timeout : Timeout) : (c : RoutedCall) → ShardTask c.Result
  | .keyed call => client.keyed timeout call
  | .mdelete keys => client.mdelete keys timeout

theorem routed_keyed (call : KeyCall) (timeout : Timeout) :
    client.routed timeout (.keyed call) = client.byKey call timeout :=
  client.keyed_eq_byKey call timeout

/-- Calls made one after another; the caller catches what a call raises. -/
def callAll : List (RoutedCall × Timeout) → ShardTask (List Outcome)
  | [] => return []
  | (c, timeout) :: calls => do
    let outcome ← Method.attempt (client.routed timeout c)
    let outcomes ← callAll calls
    return ⟨c, outcome⟩ :: outcomes

end ShardedClient

/-! ## Stores -/

/-- What an fq instance does with a call: its answer and the next state of a key depend on the
state of that key only. -/
structure Store (S : Type) where
  answer : (call : KeyCall) → S → Except Exc call.Result × S
  /-- One pair of an MDEL. -/
  mdel : CappingKey → S → Bool × S

namespace Store

variable {S : Type} (store : Store S)

def keyed (call : KeyCall) (db : Str → S) : Except Exc call.Result × (Str → S) :=
  let r := store.answer call (db call.routingKey)
  (r.1, Function.update db call.routingKey r.2)

/-- MDEL handles its pairs in order. -/
def mdelete (keys : List CappingKey) (db : Str → S) : List Bool × (Str → S) :=
  Scatter.serve CappingKey.key store.mdel keys db

def routed : (c : RoutedCall) → (Str → S) → Except Exc c.Result × (Str → S)
  | .keyed call, db => store.keyed call db
  | .mdelete keys, db => (.ok (store.mdelete keys db).1, (store.mdelete keys db).2)

/-- The same calls on one store. -/
def callAll : List RoutedCall → (Str → S) → List Outcome × (Str → S)
  | [], db => ([], db)
  | c :: calls, db =>
    let r := store.routed c db
    let rest := callAll calls r.2
    (⟨c, r.1⟩ :: rest.1, rest.2)

/-- A store for every shard. -/
def shards : World Shards (ℕ → Str → S) where
  permits _
    | .keyed _ _ _ | .mdelete _ _ _ => True
    | _ => False
  step dbs
    | .keyed index call _ => fun answer dbs' =>
      answer = (store.keyed call (dbs index)).1 ∧
        dbs' = Function.update dbs index (store.keyed call (dbs index)).2
    | .mdelete index keys _ => fun answer dbs' =>
      answer = .ok (store.mdelete keys (dbs index)).1 ∧
        dbs' = Function.update dbs index (store.mdelete keys (dbs index)).2
    | _ => fun _ _ => False

theorem shards_answers (dbs : ℕ → Str → S) (op : Shards.Op) (h : store.shards.permits dbs op) :
    ∃ answer dbs', store.shards.step dbs op answer dbs' := by
  cases op with
  | keyed | mdelete => exact ⟨_, _, rfl, rfl⟩
  | scan | pscan | flushdb | truncate | inspect => exact h.elim

end Store

/-! ## The shards together -/

section Together
variable {S : Type} (store : Store S) (client : ShardedClient)

/-- The shard of a key. -/
def ShardedClient.shardOf (key : Str) : ℕ :=
  (client.shardingFunc key client.shardCount).toNat

/-- The one database that the shards are: every key with its state on its own shard. -/
def ShardedClient.merged (dbs : ℕ → Str → S) : Str → S := fun key => dbs (client.shardOf key) key

/-- The sharding function returns shards. -/
def ShardedClient.Routes : Prop := ∀ key,
  0 ≤ client.shardingFunc key client.shardCount ∧
    client.shardingFunc key client.shardCount < client.shardCount

variable {client}

theorem ShardedClient.Routes.indexOf (hroutes : client.Routes) (key : Str) :
    client.indexOf key = .ok (client.shardOf key) := resolveShard_ok (hroutes key)

theorem merged_update_keyed (dbs : ℕ → Str → S) (key : Str) (s : S) :
    client.merged (Function.update dbs (client.shardOf key)
      (Function.update (dbs (client.shardOf key)) key s)) =
      Function.update (client.merged dbs) key s := by
  funext k
  unfold ShardedClient.merged
  by_cases hk : k = key
  · subst hk
    simp
  · by_cases hi : client.shardOf k = client.shardOf key
    · simp [hi, hk]
    · simp [hi, hk]

theorem wpm_byKey (hroutes : client.Routes) (call : KeyCall) (timeout : Timeout)
    (dbs : ℕ → Str → S) :
    wpm store.shards (client.byKey call timeout) (fun r _ dbs' =>
      r = (store.keyed call (client.merged dbs)).1 ∧
        client.merged dbs' = (store.keyed call (client.merged dbs)).2) () dbs := by
  unfold ShardedClient.byKey
  rw [wpm_bind, wpm_ofExcept, hroutes.indexOf]
  refine ⟨trivial, ?_⟩
  rintro answer dbs' ⟨rfl, rfl⟩
  exact ⟨rfl, merged_update_keyed dbs _ _⟩

/-! ## MDEL -/

/-- The keys of one shard, with their positions. -/
def ofShard (client : ShardedClient) (keys : List CappingKey) (index : ℕ) :
    List (CappingKey × ℕ) :=
  keys.zipIdx.filter fun kp => client.shardOf kp.1.key = index

/-- The shards of some keys, in the order of their first keys. -/
def shardsOf (client : ShardedClient) (keys : List CappingKey) : List ℕ :=
  Scatter.keys (keys.zipIdx.map fun kp => (client.shardOf kp.1.key, kp.2, kp.1))

theorem mem_shardsOf {keys : List CappingKey} {index : ℕ} :
    index ∈ shardsOf client keys ↔ ∃ key ∈ keys, client.shardOf key.key = index := by
  unfold shardsOf
  rw [Scatter.mem_keys]
  constructor
  · rintro ⟨x, hx⟩
    obtain ⟨kp, hkp, he⟩ := List.mem_map.mp hx
    exact ⟨kp.1, List.fst_mem_of_mem_zipIdx hkp, (Prod.mk.inj he).1⟩
  · rintro ⟨key, hkey, rfl⟩
    obtain ⟨p, hp, rfl⟩ := List.getElem_of_mem hkey
    exact ⟨(p, keys[p]), List.mem_map.mpr ⟨(keys[p], p), List.mk_mem_zipIdx_iff_getElem?.mpr
      (List.getElem?_eq_getElem hp), rfl⟩⟩

theorem groups_eq (hroutes : client.Routes) (keys : List CappingKey) :
    groupByShard keys client.indexOf = .ok ((shardsOf client keys).map fun index =>
      (index, (ofShard client keys index).map fun kp => (kp.2, kp.1))) := by
  rw [groupByShard_ok fun key _ => hroutes.indexOf key.key, Scatter.group_eq]
  congr 1
  apply List.map_congr_left
  intro index _
  simp only [Scatter.part, ofShard, List.filter_map, List.map_map]
  rfl

theorem wpm_callShard_mdelete (index : ℕ) (keys : List CappingKey) (timeout : Timeout)
    (dbs : ℕ → Str → S) {Q : Except Exc (List Bool) → Unit → (ℕ → Str → S) → Prop} :
    wpm store.shards (callShard (.mdelete index keys timeout)) Q () dbs ↔
      Q (.ok (store.mdelete keys (dbs index)).1) ()
        (Function.update dbs index (store.mdelete keys (dbs index)).2) := by
  constructor
  · intro h
    exact h.2 _ _ ⟨rfl, rfl⟩
  · intro h
    refine ⟨trivial, ?_⟩
    rintro _ _ ⟨rfl, rfl⟩
    exact h

/-- The answers of one shard to its keys, with their positions. -/
def answersOf (client : ShardedClient) (keys : List CappingKey) (dbs : ℕ → Str → S) (index : ℕ) :
    List (ℕ × Bool) :=
  ((ofShard client keys index).map (·.2)).zip
    (store.mdelete ((ofShard client keys index).map (·.1)) (dbs index)).1

theorem wpm_mdeleteGroups (timeout : Timeout) (keys : List CappingKey) {indices : List ℕ}
    (hnd : indices.Nodup) (results : List Bool) (dbs : ℕ → Str → S) :
    wpm store.shards (ShardedClient.mdeleteGroups timeout
        (indices.map fun index => (index, (ofShard client keys index).map fun kp => (kp.2, kp.1)))
        results)
      (fun r _ dbs' =>
        r = .ok (Scatter.place (indices.flatMap (answersOf store client keys dbs)) results) ∧
        ∀ index, dbs' index = if index ∈ indices
          then (store.mdelete ((ofShard client keys index).map (·.1)) (dbs index)).2
          else dbs index) () dbs := by
  induction indices generalizing results dbs with
  | nil => exact ⟨rfl, fun index => by rw [if_neg (by simp)]⟩
  | cons index indices ih =>
    obtain ⟨hnew, hnd⟩ := List.nodup_cons.mp hnd
    have hlen : (store.mdelete ((ofShard client keys index).map (·.1)) (dbs index)).1.length =
        (ofShard client keys index).length := by
      unfold Store.mdelete
      rw [Scatter.length_serve, List.length_map]
    -- the shards of the other groups are as they were, for no shard has two groups
    have hothers : ∀ i ∈ indices, Function.update dbs index
        (store.mdelete ((ofShard client keys index).map (·.1)) (dbs index)).2 i = dbs i :=
      fun i hi => Function.update_of_ne (fun e : i = index => hnew (e ▸ hi)) _ _
    have hsame : ∀ i ∈ indices, answersOf store client keys (Function.update dbs index
        (store.mdelete ((ofShard client keys index).map (·.1)) (dbs index)).2) i =
        answersOf store client keys dbs i := by
      intro i hi
      unfold answersOf
      rw [hothers i hi]
    have hkeys : ((ofShard client keys index).map fun kp => (kp.2, kp.1)).map (·.2) =
        (ofShard client keys index).map (·.1) := List.map_map
    have hpositions : ((ofShard client keys index).map fun kp => (kp.2, kp.1)).map (·.1) =
        (ofShard client keys index).map (·.2) := List.map_map
    rw [List.map_cons, ShardedClient.mdeleteGroups, wpm_bind]
    refine (wpm_callShard_mdelete store _ _ _ _).mpr ?_
    simp only [hkeys, hpositions, List.length_map, hlen, ne_eq, not_true_eq_false, if_false]
    refine wpm_mono (ih hnd _ _) ?_
    rintro _ _ dbs' ⟨rfl, hdbs'⟩
    constructor
    · rw [List.flatMap_cons, Scatter.place_append, List.flatMap_congr hsame]
      rfl
    · intro i
      rw [hdbs' i]
      by_cases hi : i = index
      · subst hi
        rw [if_neg hnew, if_pos List.mem_cons_self, Function.update_self]
      · by_cases hm : i ∈ indices
        · rw [if_pos hm, if_pos (List.mem_cons_of_mem _ hm), hothers i hm]
        · rw [if_neg hm, if_neg (by simp [hi, hm]), Function.update_of_ne hi]

/-- A shard and the one database agree on the keys of the shard. -/
theorem merged_of_shardOf (dbs : ℕ → Str → S) {index : ℕ} {key : Str}
    (h : client.shardOf key = index) : client.merged dbs key = dbs index key := by
  rw [ShardedClient.merged, h]

theorem mdelete_zipIdx (keys : List CappingKey) (db : Str → S) :
    Scatter.serve (CappingKey.key ∘ Prod.fst) (store.mdel ∘ Prod.fst) keys.zipIdx db =
      store.mdelete keys db := by
  rw [Scatter.serve_map, List.zipIdx_map_fst]
  rfl

theorem mdelete_ofShard (keys : List CappingKey) (dbs : ℕ → Str → S) (index : ℕ) :
    ((keys.zipIdx.zip (store.mdelete keys (client.merged dbs)).1).filter
        fun p => client.shardOf p.1.1.key = index) =
      (ofShard client keys index).zip
        (store.mdelete ((ofShard client keys index).map (·.1)) (dbs index)).1 ∧
    ∀ key, client.shardOf key = index → (store.mdelete keys (client.merged dbs)).2 key =
      (store.mdelete ((ofShard client keys index).map (·.1)) (dbs index)).2 key := by
  have h := Scatter.serve_filter (CappingKey.key ∘ Prod.fst) (store.mdel ∘ Prod.fst)
    (fun key => client.shardOf key = index) keys.zipIdx fun key hkey => merged_of_shardOf dbs hkey
  rw [mdelete_zipIdx, Scatter.serve_map] at h
  exact h

/-- Each shard answers its keys as the one database would, position by position. -/
theorem mem_answersOf {keys : List CappingKey} {dbs : ℕ → Str → S} {index p : ℕ} {b : Bool} :
    (p, b) ∈ answersOf store client keys dbs index ↔
      ∃ key, keys[p]? = some key ∧ (store.mdelete keys (client.merged dbs)).1[p]? = some b ∧
        client.shardOf key.key = index := by
  have hzip : answersOf store client keys dbs index =
      ((ofShard client keys index).zip
        (store.mdelete ((ofShard client keys index).map (·.1)) (dbs index)).1).map
          (Prod.map (·.2) id) := by
    rw [answersOf, List.zip_map_left]
  rw [hzip, ← (mdelete_ofShard store keys dbs index).1, List.mem_map]
  constructor
  · rintro ⟨⟨⟨key, p'⟩, b'⟩, hmem, he⟩
    obtain ⟨rfl, rfl⟩ := Prod.mk.inj he
    obtain ⟨hmem, hshard⟩ := List.mem_filter.mp hmem
    obtain ⟨hkey, hb⟩ := Scatter.mem_zip_zipIdx.mp hmem
    exact ⟨key, hkey, hb, of_decide_eq_true hshard⟩
  · rintro ⟨key, hkey, hb, hshard⟩
    exact ⟨((key, p), b), List.mem_filter.mpr ⟨Scatter.mem_zip_zipIdx.mpr ⟨hkey, hb⟩,
      decide_eq_true hshard⟩, rfl⟩

theorem place_answers (keys : List CappingKey) (dbs : ℕ → Str → S) :
    Scatter.place ((shardsOf client keys).flatMap (answersOf store client keys dbs))
      (List.replicate keys.length false) = (store.mdelete keys (client.merged dbs)).1 := by
  have hlen : (store.mdelete keys (client.merged dbs)).1.length = keys.length :=
    Scatter.length_serve _ _ keys _
  apply Scatter.place_eq
  · rw [List.length_replicate, hlen]
  · rintro ⟨p, b⟩ hmem
    obtain ⟨index, -, hmem⟩ := List.mem_flatMap.mp hmem
    obtain ⟨key, -, hb, -⟩ := (mem_answersOf store).mp hmem
    exact hb
  · intro p hp
    have hkey : keys[p]? = some keys[p] := List.getElem?_eq_getElem (hlen ▸ hp)
    refine ⟨(p, (store.mdelete keys (client.merged dbs)).1[p]), List.mem_flatMap.mpr
      ⟨client.shardOf keys[p].key, mem_shardsOf.mpr ⟨keys[p], List.getElem_mem _, rfl⟩, ?_⟩, rfl⟩
    exact (mem_answersOf store).mpr ⟨keys[p], hkey, List.getElem?_eq_getElem hp, rfl⟩

theorem merged_mdelete {keys : List CappingKey} {dbs dbs' : ℕ → Str → S}
    (h : ∀ index, dbs' index = if index ∈ shardsOf client keys
      then (store.mdelete ((ofShard client keys index).map (·.1)) (dbs index)).2 else dbs index) :
    client.merged dbs' = (store.mdelete keys (client.merged dbs)).2 := by
  funext key
  rw [ShardedClient.merged, h]
  by_cases hm : client.shardOf key ∈ shardsOf client keys
  · rw [if_pos hm, (mdelete_ofShard store keys dbs (client.shardOf key)).2 key rfl]
  · rw [if_neg hm]
    have huntouched : ∀ k ∈ keys, k.key ≠ key := fun k hk e =>
      hm (mem_shardsOf.mpr ⟨k, hk, by rw [e]⟩)
    exact (Scatter.serve_untouched _ store.mdel keys (client.merged dbs) huntouched).symm

theorem wpm_mdelete (hroutes : client.Routes) (keys : List CappingKey) (timeout : Timeout)
    (dbs : ℕ → Str → S) :
    wpm store.shards (client.mdelete keys timeout) (fun r _ dbs' =>
      r = .ok (store.mdelete keys (client.merged dbs)).1 ∧
        client.merged dbs' = (store.mdelete keys (client.merged dbs)).2) () dbs := by
  unfold ShardedClient.mdelete
  rw [wpm_bind, wpm_ofExcept, groups_eq hroutes]
  refine wpm_mono (wpm_mdeleteGroups store timeout keys (Scatter.keys_nodup _) _ dbs) ?_
  rintro _ _ dbs' ⟨rfl, hdbs'⟩
  exact ⟨congrArg Except.ok (place_answers store keys dbs), merged_mdelete store hdbs'⟩

/-! ## Runs -/

/-- One call: the shards together answer and change as one store does. -/
theorem wpm_routed (hroutes : client.Routes) (c : RoutedCall) (timeout : Timeout)
    (dbs : ℕ → Str → S) :
    wpm store.shards (client.routed timeout c) (fun r _ dbs' =>
      r = (store.routed c (client.merged dbs)).1 ∧
        client.merged dbs' = (store.routed c (client.merged dbs)).2) () dbs := by
  cases c with
  | keyed call =>
    rw [client.routed_keyed]
    exact wpm_byKey store hroutes call timeout dbs
  | mdelete keys => exact wpm_mdelete store hroutes keys timeout dbs

theorem wpm_callAll (hroutes : client.Routes) (calls : List (RoutedCall × Timeout))
    (dbs : ℕ → Str → S) :
    wpm store.shards (client.callAll calls) (fun r _ dbs' =>
      r = .ok (store.callAll (calls.map (·.1)) (client.merged dbs)).1 ∧
        client.merged dbs' = (store.callAll (calls.map (·.1)) (client.merged dbs)).2) () dbs := by
  induction calls generalizing dbs with
  | nil => exact ⟨rfl, rfl⟩
  | cons call calls ih =>
    obtain ⟨c, timeout⟩ := call
    simp only [ShardedClient.callAll, wpm_bind, wpm_attempt]
    refine wpm_mono (wpm_routed store hroutes c timeout dbs) ?_
    rintro _ _ dbs₁ ⟨rfl, hdbs₁⟩
    refine wpm_mono (ih dbs₁) ?_
    rintro _ _ dbs₂ ⟨rfl, hdbs₂⟩
    rw [hdbs₁] at hdbs₂ ⊢
    exact ⟨rfl, hdbs₂⟩

theorem total_mdeleteGroups (timeout : Timeout) (groups : List (ℕ × List (ℕ × CappingKey)))
    (results : List Bool) : (ShardedClient.mdeleteGroups timeout groups results).Total := by
  induction groups generalizing results with
  | nil => exact Method.total_pure _
  | cons group groups ih =>
    refine Method.Total.bind (fun _ _ => trivial) fun shardResults => ?_
    split
    · exact Method.total_throw _
    · exact ih _

theorem total_routed (c : RoutedCall) (timeout : Timeout) : (client.routed timeout c).Total := by
  cases c with
  | keyed call =>
    rw [client.routed_keyed]
    exact (Method.total_ofExcept _).bind fun _ _ _ => trivial
  | mdelete keys => exact (Method.total_ofExcept _).bind fun _ => total_mdeleteGroups _ _ _

theorem total_callAll (calls : List (RoutedCall × Timeout)) : (client.callAll calls).Total := by
  induction calls with
  | nil => exact Method.total_pure _
  | cons call calls ih =>
    exact (total_routed _ _).attempt.bind fun _ => ih.bind fun _ => Method.total_pure _

/-- Any sequence of routed calls gets the answers that one store gives to the same sequence, and
leaves the shards together as that store. -/
theorem sharded_is_one_store (hroutes : client.Routes) (calls : List (RoutedCall × Timeout))
    (dbs : ℕ → Str → S) :
    Ends store.shards (client.callAll calls ()) (fun r dbs' =>
      r.1 = .ok (store.callAll (calls.map (·.1)) (client.merged dbs)).1 ∧
        client.merged dbs' = (store.callAll (calls.map (·.1)) (client.merged dbs)).2) dbs :=
  ends_of_wp store.shards_answers (total_callAll calls ()) (wpm_callAll store hroutes calls dbs)

/-- The default sharding function always routes. -/
theorem routes_fnv1aShard (client : ShardedClient) (h : client.shardingFunc = fnv1aShard) :
    client.Routes := by
  intro key
  rw [h]
  unfold fnv1aShard
  have hpos := client.pos
  exact ⟨Int.natCast_nonneg _, Int.ofNat_lt.mpr (Nat.mod_lt _ hpos)⟩

/-- A store of counters, all of one window. -/
def counters : Store ℕ where
  answer
    | .incr _, n => (.ok (n + 1), n + 1)
    | .get _, n => (.ok n, n)
    | .delete _, n => (.ok (n ≠ 0), 0)
    | _, n => (.error (.protocol (protocolError 1001 [])), n)
  mdel _ n := (n ≠ 0, 0)

/-- Two shards; a key that MDEL names twice is there once. -/
theorem two_shards_are_one_store :
    let client : ShardedClient := .twoShards
    let calls : List (RoutedCall × Timeout) := [(.keyed (.incr ⟨['a'], 60⟩), .default),
      (.keyed (.incr ⟨['b'], 60⟩), .default),
      (.mdelete [⟨['a'], 60⟩, ⟨['b'], 60⟩, ⟨['a'], 60⟩], .default)]
    Ends counters.shards (client.callAll calls ()) (fun r dbs' =>
      r.1 = .ok (counters.callAll (calls.map (·.1)) (client.merged fun _ _ => 0)).1 ∧
        client.merged dbs' = (counters.callAll (calls.map (·.1)) (client.merged fun _ _ => 0)).2)
      fun _ _ => 0 :=
  sharded_is_one_store counters (routes_fnv1aShard _ rfl) _ _

example : (counters.mdelete [⟨['a'], 60⟩, ⟨['b'], 60⟩, ⟨['a'], 60⟩] fun _ => 1).1 =
    [true, true, false] := by decide

end Together

end FqClient
