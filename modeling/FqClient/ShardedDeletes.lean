import FqClient.Effects.Runs
import FqClient.ShardedStore

namespace FqClient.ShardedDeletes

open Effects

/-- What the shards received, in its order, with their answers. -/
abbrev Requests := List (Event Shards)

def asked (log : Requests) : List ShardOp := log.map fun event => event.1

@[simp] theorem asked_append (log log' : Requests) : asked (log ++ log') = asked log ++ asked log' :=
  List.map_append

/-! ## What a deletion is to do -/

section Deletes
variable (client : ShardedClient) (keys : List CappingKey) (timeout : Timeout)

def InRange (key : CappingKey) : Prop :=
  0 ≤ client.shardingFunc key.key client.shardCount ∧
    client.shardingFunc key.key client.shardCount < client.shardCount

instance : DecidablePred (InRange client) := fun _ => inferInstanceAs (Decidable (_ ∧ _))

def outOfRange? : Option CappingKey := keys.find? fun key => ¬ InRange client key

/-- The index of the first key out of range can be formatted. -/
def Reportable : Prop := ∀ key, outOfRange? client keys = some key →
  (client.shardingFunc key.key client.shardCount).natAbs < 10 ^ intMaxStrDigits

/-- The MDEL of a shard: exactly its keys, in their order. -/
def request (index : ℕ) : ShardOp := .mdelete index ((ofShard client keys index).map (·.1)) timeout

def reply (index : ℕ) (answer : Except Exc (List Bool)) : Event Shards :=
  ⟨request client keys timeout index, answer⟩

@[simp] theorem asked_reply (index : ℕ) (answer : Except Exc (List Bool)) :
    asked [reply client keys timeout index answer] = [request client keys timeout index] := rfl

/-- What the answers of the shards are written to, in the order of writing. -/
def assignments (replies : List (ℕ × List Bool)) : List (ℕ × Bool) :=
  replies.flatMap fun reply => ((ofShard client keys reply.1).map (·.2)).zip reply.2

/-- Every shard of the keys has answered for each of its keys, every position is assigned once, and the
result at a position is the answer for the key there. -/
structure Answered (results : List Bool) (log : Requests) (replies : List (ℕ × List Bool)) : Prop where
  owners : replies.map (·.1) = shardsOf client keys
  log : log = replies.map fun answered => reply client keys timeout answered.1 (.ok answered.2)
  lengths : ∀ reply ∈ replies, reply.2.length = (ofShard client keys reply.1).length
  assigned : results = Scatter.place (assignments client keys replies)
    (List.replicate keys.length false)
  once : ((assignments client keys replies).map (·.1)).Perm (List.range keys.length)
  answers : ∀ p < keys.length, ∃ reply ∈ replies, ∃ (j : ℕ) (key : CappingKey) (b : Bool),
    keys[p]? = some key ∧ (ofShard client keys reply.1)[j]? = some (key, p) ∧ reply.2[j]? = some b ∧
      results[p]? = some b

/-- How a deletion ends, and what the shards have received by then. -/
structure Deleted (r : Except Exc (List Bool)) (log : Requests) : Prop where
  rejected : (∃ key ∈ keys, ¬ InRange client key) →
    (∃ index, r = .error (.shardIndexError index client.shardCount)) ∧ log = []
  requests : (∀ key ∈ keys, InRange client key) → ∃ contacted, contacted <+: shardsOf client keys ∧
    contacted.Nodup ∧ asked log = contacted.map (request client keys timeout)
  answered : ∀ results, r = .ok results → ∃ replies, Answered client keys timeout results log replies

variable {client keys timeout}

/-! ## Positions -/

theorem mem_positions {index p : ℕ} : p ∈ (ofShard client keys index).map (·.2) ↔
    ∃ key, keys[p]? = some key ∧ client.shardOf key.key = index := by
  simp only [ofShard, List.mem_map, List.mem_filter, Prod.exists, decide_eq_true_eq,
    List.mk_mem_zipIdx_iff_getElem?]
  constructor
  · rintro ⟨key, p', ⟨hkey, hshard⟩, rfl⟩
    exact ⟨key, hkey, hshard⟩
  · rintro ⟨key, hkey, hshard⟩
    exact ⟨key, p, ⟨hkey, hshard⟩, rfl⟩

theorem positions_nodup (index : ℕ) : ((ofShard client keys index).map (·.2)).Nodup := by
  have hsub : List.Sublist ((ofShard client keys index).map (·.2)) (keys.zipIdx.map (·.2)) :=
    List.filter_sublist.map _
  apply hsub.nodup
  rw [List.zipIdx_map_snd]
  exact List.nodup_range'

/-- The positions of the shards are all positions, each once. -/
theorem positions_perm : ((shardsOf client keys).flatMap fun index =>
    (ofShard client keys index).map (·.2)).Perm (List.range keys.length) := by
  rw [List.perm_ext_iff_of_nodup]
  · intro p
    simp only [List.mem_flatMap, mem_positions, List.mem_range, mem_shardsOf]
    constructor
    · rintro ⟨index, _, key, hkey, _⟩
      exact (List.getElem?_eq_some_iff.mp hkey).1
    · intro hp
      have hkey := List.getElem?_eq_getElem hp
      exact ⟨_, ⟨keys[p], List.getElem_mem hp, rfl⟩, keys[p], hkey, rfl⟩
  · rw [List.nodup_flatMap]
    refine ⟨fun index _ => positions_nodup index, ?_⟩
    apply (Scatter.keys_nodup _).imp
    intro i j hij p hi hj
    rw [mem_positions] at hi hj
    obtain ⟨key, hkey, hi⟩ := hi
    obtain ⟨key', hkey', hj⟩ := hj
    rw [hkey] at hkey'
    rw [← Option.some.inj hkey'] at hj
    exact hij (hi.symm.trans hj)
  · exact List.nodup_range

theorem fst_assignments {replies : List (ℕ × List Bool)}
    (hlengths : ∀ reply ∈ replies, reply.2.length = (ofShard client keys reply.1).length) :
    (assignments client keys replies).map (·.1) =
      (replies.map (·.1)).flatMap fun index => (ofShard client keys index).map (·.2) := by
  unfold assignments
  rw [List.map_flatMap, List.flatMap_map]
  apply List.flatMap_congr
  intro reply hreply
  rw [List.map_fst_zip]
  simp [hlengths reply hreply]

/-- What the answers of every shard make of the placeholders. -/
theorem answered_of {replies : List (ℕ × List Bool)}
    (howners : replies.map (·.1) = shardsOf client keys)
    (hlengths : ∀ reply ∈ replies, reply.2.length = (ofShard client keys reply.1).length) :
    Answered client keys timeout
      (Scatter.place (assignments client keys replies) (List.replicate keys.length false))
      (replies.map fun answered => reply client keys timeout answered.1 (.ok answered.2)) replies := by
  have honce : ((assignments client keys replies).map (·.1)).Perm (List.range keys.length) := by
    rw [fst_assignments hlengths, howners]
    exact positions_perm
  refine ⟨howners, rfl, hlengths, rfl, honce, fun p hp => ?_⟩
  have hmem : p ∈ (assignments client keys replies).map (·.1) := by
    rw [honce.mem_iff, List.mem_range]
    exact hp
  obtain ⟨⟨q, b⟩, hassigned, rfl⟩ := List.mem_map.mp hmem
  have hlt : q < (List.replicate keys.length false).length := by simpa using hp
  have hplaced := Scatter.getElem?_place (honce.nodup_iff.mpr List.nodup_range) hassigned hlt
  obtain ⟨reply, hreply, hzip⟩ := List.mem_flatMap.mp hassigned
  obtain ⟨j, hj⟩ := List.mem_iff_getElem?.mp hzip
  obtain ⟨hposition, hanswer⟩ := List.getElem?_zip_eq_some.mp hj
  rw [List.getElem?_map, Option.map_eq_some_iff] at hposition
  obtain ⟨⟨key, q'⟩, hkey, rfl⟩ := hposition
  refine ⟨reply, hreply, j, key, b, ?_, hkey, hanswer, hplaced⟩
  have hzipIdx := List.mem_of_mem_filter (List.mem_of_getElem? hkey)
  exact List.mk_mem_zipIdx_iff_getElem?.mp hzipIdx

/-! ## The calls -/

theorem wpm_ask {index : ℕ} {log : Requests} {Q : Except Exc (List Bool) → Unit → Requests → Prop}
    (h : ∀ answer, Q answer () (log ++ [reply client keys timeout index answer])) :
    wpm (record Shards)
      (callShard (.mdelete index ((ofShard client keys index).map (·.1)) timeout)) Q ()
      log := by
  refine ⟨trivial, fun answer log' hlog' => ?_⟩
  rw [show log' = _ from hlog']
  exact h answer

/-- The groups are asked in their order, until one fails or answers with another number of results. -/
theorem wpm_mdeleteGroups (indices : List ℕ) (results : List Bool) (log : Requests) :
    wpm (record Shards) (ShardedClient.mdeleteGroups timeout
        (indices.map fun index =>
          (index, (ofShard client keys index).map fun kp => (kp.2, kp.1))) results)
      (fun r _ log' =>
        (∃ contacted, contacted <+: indices ∧
          asked log' = asked log ++ contacted.map (request client keys timeout)) ∧
        ∀ out, r = .ok out → ∃ replies, replies.map (·.1) = indices ∧
          (∀ reply ∈ replies, reply.2.length = (ofShard client keys reply.1).length) ∧
          log' = log ++ replies.map (fun answered => reply client keys timeout answered.1
            (.ok answered.2)) ∧
          out = Scatter.place (assignments client keys replies) results) () log := by
  induction indices generalizing results log with
  | nil =>
    refine ⟨⟨[], List.nil_prefix, by simp⟩, fun out hout => ⟨[], rfl, by simp, by simp, ?_⟩⟩
    exact (Except.ok.inj hout).symm
  | cons index indices ih =>
    have hkeys : ((ofShard client keys index).map fun kp => (kp.2, kp.1)).map (·.2) =
        (ofShard client keys index).map (·.1) := List.map_map
    have hpositions : ((ofShard client keys index).map fun kp => (kp.2, kp.1)).map (·.1) =
        (ofShard client keys index).map (·.2) := List.map_map
    rw [List.map_cons, ShardedClient.mdeleteGroups, wpm_bind, hkeys, hpositions]
    apply wpm_ask
    intro answer
    -- the shard has received its request, whatever it answers
    have hstops : ∃ contacted, contacted <+: index :: indices ∧
        asked (log ++ [reply client keys timeout index answer]) =
          asked log ++ contacted.map (request client keys timeout) := ⟨[index], by simp, by simp⟩
    cases answer with
    | error e => exact ⟨hstops, fun out hout => by cases hout⟩
    | ok shardResults =>
      dsimp only
      rw [wpm_ite]
      split
      next => exact ⟨hstops, fun out hout => by cases hout⟩
      next hlength =>
        rw [List.length_map, not_not] at hlength
        refine wpm_mono (ih _ _) ?_
        intro r _ log₂ hpost
        obtain ⟨⟨contacted, hprefix, hops⟩, hok⟩ := hpost
        constructor
        · refine ⟨index :: contacted, by simpa using hprefix, ?_⟩
          rw [hops]
          simp
        · intro out hout
          obtain ⟨replies, howners, hlengths, hlog₂, hplaced⟩ := hok out hout
          refine ⟨(index, shardResults) :: replies, by simp [howners], ?_, ?_, ?_⟩
          · exact List.forall_mem_cons.mpr ⟨hlength, hlengths⟩
          · rw [hlog₂]
            simp
          · rw [hplaced]
            unfold assignments
            rw [List.flatMap_cons, Scatter.place_append]

/-- An index out of range is found before anything is grouped. -/
theorem groupByShard_error {key : CappingKey} (hbad : outOfRange? client keys = some key) :
    groupByShard keys client.indexOf = raiseAbout (client.shardingFunc key.key client.shardCount)
      (.shardIndexError (client.shardingFunc key.key client.shardCount) client.shardCount) := by
  have hfold : ∀ (items : List (CappingKey × ℕ)) (grouped : List (ℕ × List (ℕ × CappingKey))),
      (items.map (·.1)).find? (fun key => ¬ InRange client key) = some key →
        items.foldlM (fun grouped kp => do
          return Scatter.add grouped (← client.indexOf kp.1.key) (kp.2, kp.1)) grouped =
          (raiseAbout (client.shardingFunc key.key client.shardCount)
            (.shardIndexError (client.shardingFunc key.key client.shardCount) client.shardCount) :
              Except Exc _) := by
    intro items
    induction items with
    | nil => simp
    | cons kp items ih =>
      intro grouped hbad
      obtain ⟨key', position⟩ := kp
      rw [List.map_cons] at hbad
      by_cases hkey : InRange client key'
      · rw [List.find?_cons_of_neg (by simpa using hkey)] at hbad
        have hindex : client.indexOf key'.key = .ok (client.shardOf key'.key) := resolveShard_ok hkey
        simp only [List.foldlM_cons, hindex]
        exact ih _ hbad
      · rw [List.find?_cons_of_pos (by simpa using hkey)] at hbad
        obtain rfl : key' = key := Option.some.inj hbad
        rw [List.foldlM_cons, ShardedClient.indexOf, resolveShard_error hkey,
          raiseAbout_bind, raiseAbout_bind]
  refine hfold keys.zipIdx [] ?_
  rwa [List.zipIdx_map_fst]

theorem groups_of_inRange (hrange : ∀ key ∈ keys, InRange client key) :
    groupByShard keys client.indexOf = .ok ((shardsOf client keys).map fun index =>
      (index, (ofShard client keys index).map fun kp => (kp.2, kp.1))) := by
  have hindex : ∀ key ∈ keys, client.indexOf key.key = .ok (client.shardOf key.key) :=
    fun key hkey => resolveShard_ok (hrange key hkey)
  rw [groupByShard_ok hindex, Scatter.group_eq]
  congr 1
  apply List.map_congr_left
  intro index _
  simp only [Scatter.part, ofShard, List.filter_map, List.map_map]
  rfl

theorem outOfRange?_eq_none : outOfRange? client keys = none ↔ ∀ key ∈ keys, InRange client key := by
  simp [outOfRange?]

/-- A list of keys is grouped, or its first index out of range is reported. -/
theorem groupByShard_fails (hbad : ∃ key ∈ keys, ¬ InRange client key) :
    ∃ e, groupByShard keys client.indexOf = .error e := by
  cases hfirst : outOfRange? client keys with
  | none => exact absurd (outOfRange?_eq_none.mp hfirst) (by simpa using hbad)
  | some key =>
    rw [groupByShard_error hfirst]
    rcases lt_or_ge (client.shardingFunc key.key client.shardCount).natAbs
      (10 ^ intMaxStrDigits) with h | h
    · exact ⟨_, raiseAbout_of_lt _ h⟩
    · exact ⟨_, raiseAbout_of_le _ h⟩

theorem wpm_mdelete (client : ShardedClient) (keys : List CappingKey) (timeout : Timeout) :
    wpm (record Shards) (client.mdelete keys timeout)
    (fun r _ log => Deleted client keys timeout r log ↔ Reportable client keys) () [] := by
  unfold ShardedClient.mdelete
  rw [wpm_bind, wpm_ofExcept]
  cases hfirst : outOfRange? client keys with
  | none =>
    have hrange := outOfRange?_eq_none.mp hfirst
    rw [groups_of_inRange hrange]
    refine wpm_mono (wpm_mdeleteGroups _ _ _) ?_
    intro r _ log ⟨⟨contacted, hprefix, hops⟩, hok⟩
    refine iff_of_true ?_ fun key hkey => ?_
    · refine ⟨fun ⟨key, hkey, hbad⟩ => absurd (hrange key hkey) hbad, fun _ => ?_,
        fun results hresults => ?_⟩
      · exact ⟨contacted, hprefix, hprefix.sublist.nodup (Scatter.keys_nodup _), hops⟩
      · obtain ⟨replies, howners, hlengths, hlog, hplaced⟩ := hok results hresults
        rw [hplaced, hlog]
        exact ⟨replies, answered_of howners hlengths⟩
    · rw [hfirst] at hkey
      cases hkey
  | some key =>
    have hmem := List.mem_of_find?_eq_some hfirst
    have hbad : ¬ InRange client key := by simpa using List.find?_some hfirst
    rw [groupByShard_error hfirst]
    rcases lt_or_ge (client.shardingFunc key.key client.shardCount).natAbs
      (10 ^ intMaxStrDigits) with h | h
    · rw [raiseAbout_of_lt _ h]
      refine iff_of_true ?_ fun key' hkey' => ?_
      · exact ⟨fun _ => ⟨⟨_, rfl⟩, rfl⟩, fun hall => absurd (hall key hmem) hbad, fun _ h => by cases h⟩
      · rw [hfirst] at hkey'
        cases hkey'
        exact h
    · rw [raiseAbout_of_le _ h]
      refine iff_of_false (fun hdeleted => ?_) fun hreportable => ?_
      · obtain ⟨⟨index, herror⟩, _⟩ := hdeleted.rejected ⟨key, hmem, hbad⟩
        cases herror
      · exact absurd (hreportable key hfirst) (not_lt.mpr h)

/-- A deletion over shards that answer anything: when the first index out of range can be formatted, it is
raised before any request, and only then; otherwise each shard gets at most one request, with exactly its
keys; and it returns only when every shard of a key has answered for each of its keys, with each answer at
the position of its key. -/
theorem mdelete_answered_or_clean_iff (client : ShardedClient) (keys : List CappingKey)
    (timeout : Timeout)
    {r : Except Exc (List Bool) × Unit} {log : Requests}
    (hrun : Reaches (record Shards) (client.mdelete keys timeout (), []) (.pure r, log)) :
    Deleted client keys timeout r.1 log ↔ Reportable client keys := by
  have h := wp_result (wpm_mdelete client keys timeout) hrun
  exact h

end Deletes

/-- Two shards, of which the second has the key `a`. -/
def byName : ShardedClient := ⟨2, fun key _ => if key = ['a'] then 1 else 0,
      Nat.two_pos, two_le_maxsize⟩

/-- Shards that have deleted every key. -/
def deleting (log : Requests) : (op : ShardOp) → Except Exc op.Result × Requests
  | .mdelete index keys timeout =>
    (.ok (keys.map fun _ => true), log ++ [⟨.mdelete index keys timeout, .ok (keys.map fun _ => true)⟩])
  | op => (.error .poolClosed, log ++ [⟨op, .error .poolClosed⟩])

theorem record_deleting (log : Requests) (op : Shards.Op) :
    (record Shards).step log op (deleting log op).1 (deleting log op).2 := by
  cases op <;> rfl

theorem reaches_deleted : Reaches (record Shards)
    (byName.mdelete [⟨['a'], 60⟩, ⟨['b'], 60⟩, ⟨['a'], 1⟩] .default (), [])
    (.pure (.ok [true, true, true], ()),
      [⟨.mdelete 1 [⟨['a'], 60⟩, ⟨['a'], 1⟩] .default, .ok [true, true]⟩,
        ⟨.mdelete 0 [⟨['b'], 60⟩] .default, .ok [true]⟩]) :=
  reaches_run record_deleting (Prod.ext (by decide +kernel) rfl)

theorem deleted_answered_or_clean : Deleted byName [⟨['a'], 60⟩, ⟨['b'], 60⟩, ⟨['a'], 1⟩] .default
    (.ok [true, true, true])
      [⟨.mdelete 1 [⟨['a'], 60⟩, ⟨['a'], 1⟩] .default, .ok [true, true]⟩,
        ⟨.mdelete 0 [⟨['b'], 60⟩] .default, .ok [true]⟩] ↔
    Reportable byName [⟨['a'], 60⟩, ⟨['b'], 60⟩, ⟨['a'], 1⟩] :=
  mdelete_answered_or_clean_iff byName _ .default reaches_deleted

/-- Two shards, and a sharding function whose results have 4301 digits. -/
def beyondDigits : ShardedClient := ⟨2, fun _ _ => 10 ^ intMaxStrDigits, Nat.two_pos, two_le_maxsize⟩

theorem outOfRange_beyondDigits : outOfRange? beyondDigits [⟨['a'], 60⟩] = some ⟨['a'], 60⟩ := by
  decide +kernel

/-- The index is out of range, and the deletion raises `ValueError`. -/
theorem long_index_not_reported : ∃ r, Reaches (record Shards)
      (beyondDigits.mdelete [⟨['a'], 60⟩] .default (), []) (.pure r, []) ∧
    r.1 = .error .valueError ∧ ¬ InRange beyondDigits ⟨['a'], 60⟩ ∧
    ¬ Deleted beyondDigits [⟨['a'], 60⟩] .default r.1 [] := by
  have hbad : ¬ InRange beyondDigits ⟨['a'], 60⟩ := by decide +kernel
  have hgroups : groupByShard [⟨['a'], 60⟩] beyondDigits.indexOf = .error .valueError := by
    rw [groupByShard_error outOfRange_beyondDigits]
    exact raiseAbout_of_le _ (by decide +kernel)
  have hmdelete : beyondDigits.mdelete [⟨['a'], 60⟩] .default () = .pure (.error .valueError, ()) := by
    unfold ShardedClient.mdelete
    rw [hgroups]
    rfl
  rw [hmdelete]
  refine ⟨_, .refl, rfl, hbad, fun hdeleted => ?_⟩
  obtain ⟨⟨index, herror⟩, _⟩ := hdeleted.rejected ⟨_, List.mem_singleton_self _, hbad⟩
  cases herror

end FqClient.ShardedDeletes
