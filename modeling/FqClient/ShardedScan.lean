import FqClient.Effects.Contract
import FqClient.ShardedClient

namespace FqClient

open Effects

/-! ## Shards that page through their keys -/

/-- Where a cursor of a shard points, given the last cursor it returned. -/
def position (issued : Option (Str × ℕ)) (cursor : Str) : Option ℕ :=
  if cursor = scanCursorInitial then some 0
  else (issued.filter (·.1 = cursor)).map (·.2)

/-- The pages that a shard may answer from a position: the rest of its list, or a part of it that
is neither empty nor the rest. -/
inductive Page (list : List ScanKey) (pos : ℕ) : ScanResult → Option (Str × ℕ) → Prop
  | last : Page list pos ⟨scanCursorInitial, list.drop pos⟩ none
  | more (taken : ℕ) (cursor : Str) (htaken : 0 < taken) (hmore : pos + taken < list.length)
      (hne : cursor ≠ []) (hinitial : cursor ≠ scanCursorInitial) :
      Page list pos ⟨cursor, (list.drop pos).take taken⟩ (some (cursor, pos + taken))

/-- The last cursor of each shard, with its position. -/
abbrev Issued := ℕ → Option (Str × ℕ)

/-- The shard answers a page from where the cursor points. -/
def Turns (lists : ℕ → List ScanKey) (st : Issued) (index : ℕ) (cursor : Str)
    (answer : Except Exc ScanResult) (st' : Issued) : Prop :=
  ∃ pos page next, position (st index) cursor = some pos ∧ Page (lists index) pos page next ∧
    answer = .ok page ∧ st' = Function.update st index next

/-- Shards that hold lists of keys and may only be asked to start a scan or to go on from the last
cursor they returned. -/
def scanning (lists : ℕ → List ScanKey) : World Shards Issued where
  permits st
    | .scan index _ cursor _ | .pscan index _ _ cursor _ =>
      ∃ pos, position (st index) cursor = some pos
    | _ => False
  step st
    | .scan index _ cursor _ | .pscan index _ _ cursor _ => Turns lists st index cursor
    | _ => fun _ _ => False

theorem scanning_answers (lists : ℕ → List ScanKey) (st : Issued) (op : Shards.Op)
    (h : (scanning lists).permits st op) : ∃ answer st', (scanning lists).step st op answer st' := by
  cases op with
  | scan | pscan =>
    obtain ⟨pos, hpos⟩ := h
    exact ⟨_, _, pos, _, _, hpos, .last, rfl, rfl⟩
  | keyed | mdelete | flushdb | truncate | inspect => exact h.elim

/-- SCAN or PSCAN. -/
inductive ScanKind
  | scan
  | pscan (pfx : Str)

def ScanKind.op (kind : ScanKind) (timeout : Timeout) (index : ℕ) (cursor : Str) (count : ℤ) :
    ShardTask ScanResult :=
  match kind with
  | .scan => callShard (.scan index count cursor timeout)
  | .pscan pfx => callShard (.pscan index pfx count cursor timeout)

/-- `scan` or `pscan` of the sharded client. -/
def ShardedClient.page (client : ShardedClient) (kind : ScanKind) (count : ℤ) (cursor : Str)
    (timeout : Timeout) : ShardTask ScanResult :=
  match kind with
  | .scan => client.scan count cursor timeout
  | .pscan pfx => client.pscan pfx count cursor timeout

/-- Calls `scan`, or `pscan`, with the cursor of the call before until it is `'0'` again; `none`
when the counts run out first. -/
def ShardedClient.scanAll (client : ShardedClient) (kind : ScanKind) (timeout : Timeout) :
    (counts : List ℤ) → (cursor : Str) → (keys : List ScanKey) → ShardTask (Option (List ScanKey))
  | [], _, _ => return none
  | count :: counts, cursor, keys => do
    let result ← client.page kind count cursor timeout
    if result.cursor = scanCursorInitial then
      return some (keys ++ result.keys)
    else
      scanAll client kind timeout counts result.cursor (keys ++ result.keys)

/-! ## The loop of a walk -/

theorem ShardedClient.count_le (client : ShardedClient) : client.shardCount ≤ 10 ^ intMaxStrDigits := by
  have h : sysMaxsize ≤ 10 ^ intMaxStrDigits := by
    calc sysMaxsize ≤ 10 ^ 19 := by decide
      _ ≤ 10 ^ intMaxStrDigits := Nat.pow_le_pow_right (by decide) (by decide)
  exact client.le_maxsize.trans h

section Loop
variable {σ : Type} {W : World Shards σ}

theorem wpm_leave (client : ShardedClient) (index : ℕ) (shardCursor : Str) (keys : List ScanKey)
    {Q : Except Exc ScanResult → Unit → σ → Prop} {s : σ}
    (h : ∀ cursor, makeShardCursor index shardCursor client.shardCount = .ok cursor →
      Q (.ok ⟨cursor, keys⟩) () s) :
    wpm W (do return ⟨← Method.ofExcept (makeShardCursor index shardCursor client.shardCount), keys⟩)
      Q () s := by
  obtain ⟨cursor, hmade⟩ := makeShardCursor_ok index shardCursor client.count_le
  rw [wpm_bind, wpm_ofExcept, hmade]
  exact h cursor hmade

/-- `H` holds whenever the loop begins. It is left past the last shard, with enough keys, and in the
middle of a shard. -/
theorem wpm_walkShards (client : ShardedClient) {count : ℤ} {fetch : ℕ → Str → ℤ → ShardTask ScanResult}
    {H : ℕ → Str → List ScanKey → σ → Prop} {Q : Except Exc ScanResult → Unit → σ → Prop}
    (hend : ∀ c keys s, H client.shardCount c keys s → Q (.ok ⟨scanCursorInitial, keys⟩) () s)
    (henough : ∀ index c keys s cursor, index < client.shardCount → count ≤ keys.length →
      H index c keys s → makeShardCursor index scanCursorInitial client.shardCount = .ok cursor →
      Q (.ok ⟨cursor, keys⟩) () s)
    (hfetch : ∀ index c keys s, index < client.shardCount → (keys.length : ℤ) < count →
      H index c keys s →
      wpm W (fetch index c (count - keys.length)) (fun r _ s' => match r with
        | .error e => Q (.error e) () s'
        | .ok page =>
          (page.cursor = scanCursorInitial → H (index + 1) scanCursorInitial (keys ++ page.keys) s') ∧
          (page.cursor ≠ scanCursorInitial →
            ∀ cursor, makeShardCursor index page.cursor client.shardCount = .ok cursor →
              Q (.ok ⟨cursor, keys ++ page.keys⟩) () s')) () s)
    (left : ℕ) {index : ℕ} {c : Str} {keys : List ScanKey} {s : σ}
    (hleft : index + left = client.shardCount) (hs : H index c keys s) :
    wpm W (client.walkShards count fetch left index c keys) Q () s := by
  induction left generalizing index c keys s with
  | zero =>
    obtain rfl : index = client.shardCount := hleft
    refine wpm_leave client _ _ _ fun cursor hmade => ?_
    rw [← Except.ok.inj ((if_pos le_rfl).symm.trans hmade)]
    exact hend c keys s hs
  | succ left ih =>
    have hindex : index < client.shardCount := by omega
    unfold ShardedClient.walkShards
    by_cases hmore : (keys.length : ℤ) < count
    · rw [if_pos hmore, wpm_bind]
      refine wpm_mono (hfetch index c keys s hindex hmore hs) ?_
      intro r _ s' hr
      cases r with
      | error e => exact hr
      | ok page =>
        dsimp only
        by_cases hcursor : page.cursor = scanCursorInitial
        · rw [if_neg (not_not.mpr hcursor)]
          exact ih (by omega) (hr.1 hcursor)
        · rw [if_pos hcursor]
          exact wpm_leave client _ _ _ (hr.2 hcursor)
    · rw [if_neg hmore]
      exact wpm_leave client _ _ _ fun cursor => henough index c keys s cursor hindex
        (not_lt.mp hmore) hs

end Loop

/-! ## One call -/

theorem page_eq_walk (client : ShardedClient) (kind : ScanKind) (count : ℤ) (cursor : Str)
    (timeout : Timeout) : client.page kind count cursor timeout =
      client.walk cursor count fun index shardCursor remaining =>
        kind.op timeout index shardCursor remaining := by
  cases kind <;> rfl

section Walk
variable {lists : ℕ → List ScanKey}

theorem wpm_kindOp (kind : ScanKind) (timeout : Timeout) {st : Issued} {index pos : ℕ} {cursor : Str}
    (count : ℤ) {Q : Except Exc ScanResult → Unit → Issued → Prop}
    (hpos : position (st index) cursor = some pos)
    (hQ : ∀ page next, Page (lists index) pos page next →
      Q (.ok page) () (Function.update st index next)) :
    wpm (scanning lists) (kind.op timeout index cursor count) Q () st := by
  have hstep : ∀ answer st', Turns lists st index cursor answer st' → Q answer () st' := by
    rintro answer st' ⟨pos', page, next, hpos', hpage, rfl, rfl⟩
    obtain rfl := Option.some.inj (hpos.symm.trans hpos')
    exact hQ page next hpage
  cases kind <;> exact ⟨⟨pos, hpos⟩, hstep⟩

/-- The keys of the shards from `index` on. -/
def keysFrom (lists : ℕ → List ScanKey) (shardCount index : ℕ) : List ScanKey :=
  (List.range' index (shardCount - index)).flatMap lists

theorem keysFrom_of_lt {shardCount index : ℕ} (h : index < shardCount) :
    keysFrom lists shardCount index = lists index ++ keysFrom lists shardCount (index + 1) := by
  have hsub : shardCount - index = (shardCount - (index + 1)) + 1 := by omega
  simp only [keysFrom, hsub, List.range'_succ, List.flatMap_cons]

theorem keysFrom_self (shardCount : ℕ) : keysFrom lists shardCount shardCount = [] := by
  simp [keysFrom]

/-- The walk stands at a cursor of a shard, or past the last one, with `rest` still to visit. -/
def Before (lists : ℕ → List ScanKey) (shardCount : ℕ) (st : Issued) (index : ℕ)
    (shardCursor : Str) (rest : List ScanKey) : Prop :=
  (index = shardCount ∧ rest = []) ∨
    (index < shardCount ∧ ∃ pos, position (st index) shardCursor = some pos ∧
      rest = (lists index).drop pos ++ keysFrom lists shardCount (index + 1))

theorem before_initial {shardCount index : ℕ} (h : index ≤ shardCount) (st : Issued) :
    Before lists shardCount st index scanCursorInitial (keysFrom lists shardCount index) := by
  rcases Nat.eq_or_lt_of_le h with rfl | h
  · exact Or.inl ⟨rfl, keysFrom_self _⟩
  · refine Or.inr ⟨h, 0, if_pos rfl, ?_⟩
    rw [keysFrom_of_lt h, List.drop_zero]

/-- A composite cursor points before `rest`. -/
def PointsTo (lists : ℕ → List ScanKey) (shardCount : ℕ) (st : Issued) (cursor : Str)
    (rest : List ScanKey) : Prop :=
  ∃ index shardCursor, parseShardCursor cursor shardCount = .ok (index, shardCursor) ∧
    index < shardCount ∧ Before lists shardCount st index shardCursor rest

/-- What a call adds: everything that is left, or a part of it that is not empty and a cursor that
points to what follows. -/
def Advances (lists : ℕ → List ScanKey) (shardCount : ℕ) (keys rest : List ScanKey)
    (result : ScanResult) (st : Issued) : Prop :=
  (result.cursor = scanCursorInitial ∧ result.keys = keys ++ rest) ∨
    (result.cursor ≠ scanCursorInitial ∧ result.keys ≠ [] ∧
      ∃ rest', PointsTo lists shardCount st result.cursor rest' ∧
        keys ++ rest = result.keys ++ rest')

variable (client : ShardedClient)

/-- Leaving the loop at a cursor of a shard. -/
theorem advances_made {st : Issued} {index : ℕ} {shardCursor cursor : Str}
    {found keys rest rest' : List ScanKey} (hlt : index < client.shardCount)
    (hbefore : Before lists client.shardCount st index shardCursor rest') (hcursor : shardCursor ≠ [])
    (hmade : makeShardCursor index shardCursor client.shardCount = .ok cursor) (hfound : found ≠ [])
    (hrest : keys ++ rest = found ++ rest') :
    Advances lists client.shardCount keys rest ⟨cursor, found⟩ st := by
  obtain ⟨hne, hparse⟩ := parseShardCursor_make hlt hcursor hmade
  exact Or.inr ⟨hne, hfound, rest', ⟨index, shardCursor, hparse, hlt, hbefore⟩, hrest⟩

/-- One call of `scan` or `pscan`, from a cursor of the call before. -/
theorem wpm_page (kind : ScanKind) (timeout : Timeout) {count : ℤ} (hcount : 1 ≤ count)
    {cursor : Str} {rest : List ScanKey} {st : Issued}
    (hpoints : PointsTo lists client.shardCount st cursor rest) :
    wpm (scanning lists) (client.page kind count cursor timeout)
      (fun r _ st' => ∃ result, r = .ok result ∧
        Advances lists client.shardCount [] rest result st') () st := by
  obtain ⟨index, shardCursor, hparse, hlt, hbefore⟩ := hpoints
  rw [page_eq_walk, ShardedClient.walk, wpm_bind, wpm_ofExcept, hparse]
  -- what is left of the scan follows the keys found so far
  let AtHead : ℕ → Str → List ScanKey → Issued → Prop := fun index c keys st =>
    (keys = [] ∨ c = scanCursorInitial) ∧ ∃ rest', Before lists client.shardCount st index c rest' ∧
      rest = keys ++ rest'
  refine wpm_walkShards (H := AtHead) client ?_ ?_ ?_ _ (by omega) ⟨Or.inl rfl, rest, hbefore, rfl⟩
  · rintro c keys st ⟨_, rest', hbefore, hrest⟩
    obtain rfl : rest' = [] := (hbefore.resolve_right fun h => lt_irrefl _ h.1).2
    exact ⟨_, rfl, Or.inl ⟨rfl, (List.append_nil keys).symm.trans hrest.symm⟩⟩
  · rintro index c keys st cursor hlt hlength ⟨hstart, rest', hbefore, hrest⟩ hmade
    -- enough keys are there, and `1 ≤ count` makes them some
    have hkeys : keys ≠ [] := by
      rintro rfl
      simp only [List.length_nil] at hlength
      omega
    obtain rfl := hstart.resolve_left hkeys
    exact ⟨_, rfl, advances_made client hlt hbefore (by decide) hmade hkeys hrest⟩
  · rintro index c keys st hlt hmore ⟨_, rest', hbefore, hrest⟩
    obtain ⟨_, pos, hpos, rfl⟩ := hbefore.resolve_left fun h => absurd h.1 hlt.ne
    apply wpm_kindOp kind timeout _ hpos
    rintro page next (_ | ⟨taken, cursor, htaken, htakes, hne, hinitial⟩)
    · -- the shard is finished: on to the next one
      refine ⟨fun _ => ⟨Or.inr rfl, _, before_initial (by omega) _, ?_⟩, fun hnot => absurd rfl hnot⟩
      rw [hrest, List.append_assoc]
    · refine ⟨fun hinitial' => absurd hinitial' hinitial, fun _ made hmade => ?_⟩
      -- the shard has more keys: the cursor points behind those that it has returned
      have hafter : Before lists client.shardCount
          (Function.update st index (some (cursor, pos + taken))) index cursor
          ((lists index).drop (pos + taken) ++ keysFrom lists client.shardCount (index + 1)) :=
        Or.inr ⟨hlt, pos + taken, by simp [position, hinitial], rfl⟩
      refine ⟨_, rfl, advances_made client hlt hafter hne hmade ?_ ?_⟩
      · intro hnil
        have hlen := congrArg List.length hnil
        simp only [List.length_append, List.length_take, List.length_drop, List.length_nil] at hlen
        omega
      · rw [List.nil_append, hrest, ← List.drop_drop, List.append_assoc,
          ← List.append_assoc ((lists index).drop pos |>.take _), List.take_append_drop]

/-! ## A whole scan -/

theorem wpm_scanAll (kind : ScanKind) (timeout : Timeout) (counts : List ℤ)
    (hcounts : ∀ count ∈ counts, 1 ≤ count) {cursor : Str} {keys rest : List ScanKey} {st : Issued}
    (hpoints : PointsTo lists client.shardCount st cursor rest)
    (henough : rest.length < counts.length) :
    wpm (scanning lists) (client.scanAll kind timeout counts cursor keys)
      (fun r _ _ => r = .ok (some (keys ++ rest))) () st := by
  induction counts generalizing cursor keys rest st with
  | nil => exact absurd henough (Nat.not_lt_zero _)
  | cons count counts ih =>
    unfold ShardedClient.scanAll
    rw [wpm_bind]
    refine wpm_mono (wpm_page client kind timeout (hcounts count List.mem_cons_self) hpoints) ?_
    rintro _ _ st' ⟨result, rfl, ⟨hend, hkeys⟩ | ⟨hmore, hkeys, rest', hpoints', hrest⟩⟩
    · simp only [hend, if_true, wpm_pure, hkeys, List.nil_append]
    · simp only [hmore, if_false]
      -- a call that does not end the scan returns a key, so what is left gets shorter
      have hlen : rest'.length < rest.length := by
        have hpos := List.length_pos_of_ne_nil hkeys
        have hsum := congrArg List.length hrest
        simp only [List.nil_append, List.length_append] at hsum
        omega
      have henough' : rest'.length < counts.length := by
        simp only [List.length_cons] at henough
        omega
      refine wpm_mono (ih (fun c hc => hcounts c (List.mem_cons_of_mem _ hc)) hpoints' henough') ?_
      rintro r _ _ rfl
      rw [List.nil_append] at hrest
      rw [hrest, List.append_assoc]

theorem keysFrom_zero (shardCount : ℕ) :
    keysFrom lists shardCount 0 = (List.range shardCount).flatMap lists := by
  rw [keysFrom, Nat.sub_zero, List.range_eq_range']

theorem total_walkShards (kind : ScanKind) (timeout : Timeout) (count : ℤ) (left index : ℕ)
    (shardCursor : Str) (keys : List ScanKey) :
    (client.walkShards count
      (fun index shardCursor remaining => kind.op timeout index shardCursor remaining) left index
      shardCursor keys).Total := by
  have hleave : ∀ (i : ℕ) (c : Str) (found : List ScanKey), Method.Total (do
      return (⟨← Method.ofExcept (makeShardCursor i c client.shardCount), found⟩ : ScanResult) :
        ShardTask ScanResult) := by
    intro i c found
    exact (Method.total_ofExcept _).bind fun _ => Method.total_pure _
  induction left generalizing index shardCursor keys with
  | zero => exact hleave _ _ _
  | succ left ih =>
    unfold ShardedClient.walkShards
    split
    · refine Method.Total.bind (by cases kind <;> exact fun _ _ => trivial) fun page => ?_
      dsimp only
      split
      · exact hleave _ _ _
      · exact ih _ _ _
    · exact hleave _ _ _

theorem total_scanAll (kind : ScanKind) (timeout : Timeout) (counts : List ℤ) (cursor : Str)
    (keys : List ScanKey) : (client.scanAll kind timeout counts cursor keys).Total := by
  induction counts generalizing cursor keys with
  | nil => exact Method.total_pure _
  | cons count counts ih =>
    unfold ShardedClient.scanAll
    refine Method.Total.bind ?_ fun result => ?_
    · rw [page_eq_walk]
      exact (Method.total_ofExcept _).bind fun _ => total_walkShards client kind timeout _ _ _ _ _
    · split
      · exact Method.total_pure _
      · exact ih _ _

/-- A scan with positive counts ends after at most one call more than there are keys, and has then
returned the lists of the shards one after another. -/
theorem scan_visits_everything_once (client : ShardedClient) (kind : ScanKind) (timeout : Timeout)
    (lists : ℕ → List ScanKey) (issued : Issued) (counts : List ℤ)
    (hcounts : ∀ count ∈ counts, 1 ≤ count)
    (henough : ((List.range client.shardCount).flatMap lists).length < counts.length) :
    Ends (scanning lists) (client.scanAll kind timeout counts scanCursorInitial [] ())
      (fun r _ => r.1 = .ok (some ((List.range client.shardCount).flatMap lists))) issued := by
  rw [← keysFrom_zero] at henough ⊢
  have hpoints : PointsTo lists client.shardCount issued scanCursorInitial
      (keysFrom lists client.shardCount 0) :=
    ⟨0, scanCursorInitial, if_pos (Or.inr rfl), client.pos, before_initial (Nat.zero_le _) issued⟩
  exact ends_of_wp (scanning_answers lists) (total_scanAll client kind timeout counts _ _ ())
    (wpm_scanAll client kind timeout counts hcounts hpoints henough)

/-- Two shards, the second one empty, and a page for every key. -/
theorem scan_two_shards :
    Ends (scanning fun index => if index = 0 then [⟨['a'], 60⟩, ⟨['b'], 60⟩] else [])
      (ShardedClient.twoShards.scanAll .scan .default [1, 2, 3] scanCursorInitial [] ())
      (fun r _ => r.1 = .ok (some [⟨['a'], 60⟩, ⟨['b'], 60⟩])) fun _ => none :=
  scan_visits_everything_once .twoShards .scan .default _ _ [1, 2, 3]
    (by decide) (by decide)

end Walk

end FqClient
