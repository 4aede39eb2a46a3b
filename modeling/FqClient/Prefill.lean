import FqClient.Pool
import Mathlib.Data.List.Nodup

namespace FqClient.Prefill

open Effects Pool

/-- A connection that was in the pool before, or the one that a call of the factory returned. -/
inductive Handle
  | pooled (index : ℕ)
  | opened (call : ℕ)
  deriving DecidableEq

/-- A pool that only `prefill` uses: its slots, the last one put in first, the connections returned
by the factory and the ones closed so far, and how each call of the factory ends. -/
structure Bench where
  size : ℕ
  slots : List (Option Handle)
  calls : ℕ
  returned : List Handle
  closed : List Handle
  fails : ℕ → Option Exc

namespace Bench

def handle (b : Bench) : (op : PoolOp Handle) → op.Answer × Bench
  | .closedFlag => (false, b)
  | .setClosed => ((), b)
  | .getNowait =>
    match b.slots with
    | [] => (none, b)
    | slot :: slots => (some slot, { b with slots := slots })
  | .take _ =>
    match b.slots with
    | [] => (.error (.timeoutError .noFreeConnection), b)
    | slot :: slots => (.ok slot, { b with slots := slots })
  | .put slot =>
    if b.slots.length < b.size then (true, { b with slots := slot :: b.slots }) else (false, b)
  | .factory =>
    match b.fails b.calls with
    | some e => (.error e, { b with calls := b.calls + 1 })
    | none =>
      (.ok (.opened b.calls),
        { b with calls := b.calls + 1, returned := b.returned ++ [.opened b.calls] })
  | .closed connection => (decide (connection ∈ b.closed), b)
  | .close connection => ((), { b with closed := b.closed ++ [connection] })
  | .waitClosed _ => ((), b)
  | .hold _ => (.ok (), b)

/-- No slot is taken: each is empty or holds an open connection. -/
def start (before : List (Option ℕ)) (fails : ℕ → Option Exc) : Bench :=
  ⟨before.length, before.map (Option.map .pooled), 0, [], [], fails⟩

/-- The connections of the calls of the factory from `first` on. -/
def made (first count : ℕ) : List Handle := (List.range' first count).map .opened

theorem made_succ (first count : ℕ) : made first (count + 1) = .opened first :: made (first + 1) count := by
  simp [made, List.range'_succ]

theorem run_perform_bind {κ α : Type} (b : Bench) (op : PoolOp Handle)
    (f : op.Answer → Method (PoolOps Handle) κ Exc α) (c : κ) :
    ((Pool.perform op >>= f) c).run handle b =
      (f (handle b op).1 c).run handle (handle b op).2 := rfl

/-- One round of the loop. -/
theorem run_fill_succ (count : ℕ) (b : Bench) (opened : List Handle) :
    (fill (count + 1) opened).run handle b =
      match b.slots with
      | [] => (some (.error .queueEmpty, opened), b)
      | _ :: slots =>
        match b.fails b.calls with
        | some e => (some (.error e, opened), { b with slots := slots, calls := b.calls + 1 })
        | none => (fill count (opened ++ [.opened b.calls])).run handle
            { b with slots := slots, calls := b.calls + 1,
                     returned := b.returned ++ [.opened b.calls] } := by
  obtain ⟨size, slots, calls, returned, closed, fails⟩ := b
  rw [fill, run_perform_bind]
  cases slots with
  | nil => rfl
  | cons slot slots =>
    dsimp only [handle]
    rw [run_perform_bind]
    dsimp only [handle]
    cases fails calls with
    | none => rfl
    | some e => rfl

theorem run_fill_ok {count : ℕ} (b : Bench) (opened : List Handle)
    (hslots : count ≤ b.slots.length) (hok : ∀ k < count, b.fails (b.calls + k) = none) :
    (fill count opened).run handle b =
      (some (.ok (), opened ++ made b.calls count),
        { b with slots := b.slots.drop count, calls := b.calls + count,
                 returned := b.returned ++ made b.calls count }) := by
  induction count generalizing b opened with
  | zero =>
    simp only [made, List.range'_zero, List.map_nil, List.append_nil, List.drop_zero, Nat.add_zero]
    rfl
  | succ count ih =>
    obtain ⟨slot, slots, hcons⟩ := List.exists_cons_of_length_pos
      (Nat.lt_of_lt_of_le (Nat.succ_pos _) hslots)
    have hfirst : b.fails b.calls = none := hok 0 (Nat.succ_pos _)
    rw [hcons, List.length_cons] at hslots
    rw [run_fill_succ, hcons]
    dsimp only
    rw [hfirst]
    dsimp only
    rw [ih _ _ (Nat.le_of_succ_le_succ hslots)]
    · simp only [made_succ, List.append_assoc, List.singleton_append, List.drop_succ_cons,
        Nat.add_assoc, Nat.add_comm 1]
    · intro k hk
      have hnext := hok (k + 1) (Nat.succ_lt_succ hk)
      rwa [Nat.add_comm k, ← Nat.add_assoc] at hnext

/-- The first call that fails ends the loop, with the slot of that call taken as well. -/
theorem run_fill_error {count k : ℕ} {e : Exc} (b : Bench) (opened : List Handle)
    (hslots : count ≤ b.slots.length) (hk : k < count) (hok : ∀ i < k, b.fails (b.calls + i) = none)
    (hfails : b.fails (b.calls + k) = some e) :
    (fill count opened).run handle b =
      (some (.error e, opened ++ made b.calls k),
        { b with slots := b.slots.drop (k + 1), calls := b.calls + (k + 1),
                 returned := b.returned ++ made b.calls k }) := by
  induction count generalizing b opened k with
  | zero => exact absurd hk (Nat.not_lt_zero _)
  | succ count ih =>
    obtain ⟨slot, slots, hcons⟩ := List.exists_cons_of_length_pos
      (Nat.lt_of_lt_of_le (Nat.succ_pos _) hslots)
    rw [hcons, List.length_cons] at hslots
    rw [run_fill_succ, hcons]
    dsimp only
    cases k with
    | zero =>
      rw [Nat.add_zero] at hfails
      rw [hfails]
      simp [made]
    | succ k =>
      have hfirst : b.fails b.calls = none := hok 0 (Nat.succ_pos _)
      rw [hfirst]
      dsimp only
      rw [@ih k _ _ (Nat.le_of_succ_le_succ hslots) (Nat.lt_of_succ_lt_succ hk)]
      · simp only [made_succ, List.append_assoc, List.singleton_append, List.drop_succ_cons,
          Nat.add_assoc, Nat.add_comm 1]
      · intro i hi
        have hnext := hok (i + 1) (Nat.succ_lt_succ hi)
        rwa [Nat.add_comm i, ← Nat.add_assoc] at hnext
      · rwa [Nat.add_comm k, ← Nat.add_assoc] at hfails

theorem run_closeAll (b : Bench) (opened : List Handle) :
    (closeAll opened ()).run handle b =
      (some (.ok (), ()), { b with closed := b.closed ++ opened }) := by
  induction opened generalizing b with
  | nil =>
    rw [List.append_nil]
    rfl
  | cons connection opened ih =>
    change (closeAll opened ()).run handle { b with closed := b.closed ++ [connection] } = _
    rw [ih]
    simp only [List.append_assoc, List.singleton_append]

theorem run_putAll (b : Bench) (slots : List (Option Handle))
    (hroom : slots.length + b.slots.length ≤ b.size) :
    (putAll slots ()).run handle b =
      (some (.ok (), ()), { b with slots := slots.reverse ++ b.slots }) := by
  induction slots generalizing b with
  | nil => rfl
  | cons slot slots ih =>
    rw [List.length_cons] at hroom
    have hput : handle b (.put slot) = (true, { b with slots := slot :: b.slots }) := by
      change (if _ then _ else _) = _
      rw [if_pos (by omega)]
    rw [putAll, put, bind_assoc, run_perform_bind, hput]
    change (putAll slots ()).run handle { b with slots := slot :: b.slots } = _
    have hrest : slots.length + (b.slots.length + 1) ≤ b.size := by omega
    rw [ih { b with slots := slot :: b.slots } hrest]
    simp only [List.reverse_cons, List.append_assoc, List.singleton_append]

/-- Every call of the factory returns: the old slots give way to new connections. -/
theorem run_prefill_ok {before : List (Option ℕ)} {fails : ℕ → Option Exc}
    (hok : ∀ k < before.length, fails k = none) :
    (prefill before.length ()).run handle (start before fails) =
      (some (.ok (), ()), { start before fails with
        slots := ((made 0 before.length).map some).reverse, calls := before.length,
        returned := made 0 before.length }) := by
  have hslots : before.length ≤ (start before fails).slots.length := by simp [start]
  have hfill := run_fill_ok (start before fails) [] hslots fun k hk => by
    simpa [start] using hok k hk
  rw [prefill, run_on_bind, hfill]
  dsimp only
  rw [run_putAll]
  · simp [start]
  · simp [start, made]

/-- Call `k` of the factory fails: the connections before it are closed, and a slot is missing. -/
theorem run_prefill_error {before : List (Option ℕ)} {fails : ℕ → Option Exc} {k : ℕ} {e : Exc}
    (hk : k < before.length) (hok : ∀ i < k, fails i = none) (hfails : fails k = some e) :
    (prefill before.length ()).run handle (start before fails) =
      (some (.error e, ()), { start before fails with
        slots := List.replicate k none ++ (before.map (Option.map .pooled)).drop (k + 1),
        calls := k + 1, returned := made 0 k, closed := made 0 k }) := by
  have hslots : before.length ≤ (start before fails).slots.length := by simp [start]
  have hfill := @run_fill_error before.length k e (start before fails) [] hslots hk
    (fun i hi => by simpa [start] using hok i hi) (by simpa [start] using hfails)
  rw [prefill, run_on_bind, hfill]
  dsimp only
  rw [run_method_bind, run_closeAll]
  dsimp only
  rw [run_method_bind, run_putAll]
  · simp [start, made]
    rfl
  · simp [start, made]
    omega

end Bench

/-! ## When `prefill` is all or nothing -/

/-- The first call of the factory that fails. -/
theorem exists_first_failure {fails : ℕ → Option Exc} {count : ℕ}
    (h : ¬ ∀ k < count, fails k = none) :
    ∃ k < count, (∀ i < k, fails i = none) ∧ ∃ e, fails k = some e := by
  induction count with
  | zero => exact absurd (fun k hk => absurd hk (Nat.not_lt_zero k)) h
  | succ count ih =>
    by_cases hfirst : ∀ k < count, fails k = none
    · refine ⟨count, Nat.lt_succ_self _, hfirst, ?_⟩
      apply Option.ne_none_iff_exists'.mp
      intro hnone
      apply h
      intro k hk
      rcases Nat.lt_succ_iff_lt_or_eq.mp hk with hlt | heq
      · exact hfirst k hlt
      · rw [heq]
        exact hnone
    · obtain ⟨k, hk, hrest⟩ := ih hfirst
      exact ⟨k, Nat.lt_succ_of_lt hk, hrest⟩

/-- What `prefill` promises: as many open connections as slots when it returns; all slots back and
no new connection open when it raises; and no connection of the pool lost either way. -/
structure AllOrNothing (before : List (Option ℕ)) (outcome : Option (Except Exc Unit × Unit))
    (b : Bench) : Prop where
  returns : outcome = some (.ok (), ()) → b.slots.length = before.length ∧ b.slots.Nodup ∧
    ∀ slot ∈ b.slots, ∃ connection, slot = some connection ∧ connection ∉ b.closed
  raises : ∀ e, outcome = some (.error e, ()) → b.slots.length = before.length ∧
    ∀ connection ∈ b.returned, connection ∈ b.closed
  ends : outcome ≠ none
  kept : ∀ index, some index ∈ before →
    some (.pooled index) ∈ b.slots ∨ .pooled index ∈ b.closed

/-- `prefill` of a pool with no slot taken keeps its promise exactly when every call of the factory
returns and no slot holds a connection. -/
theorem prefill_all_or_nothing_iff (before : List (Option ℕ)) (fails : ℕ → Option Exc) :
    AllOrNothing before ((prefill before.length ()).run Bench.handle (Bench.start before fails)).1
        ((prefill before.length ()).run Bench.handle (Bench.start before fails)).2 ↔
      (∀ k < before.length, fails k = none) ∧ ∀ slot ∈ before, slot = none := by
  by_cases hall : ∀ k < before.length, fails k = none
  · rw [Bench.run_prefill_ok hall]
    constructor
    · intro h
      refine ⟨hall, fun slot hslot => ?_⟩
      cases slot with
      | none => rfl
      | some index =>
        rcases h.kept index hslot with hmem | hmem
        · simp [Bench.made] at hmem
        · exact absurd hmem List.not_mem_nil
    · intro ⟨_, hnone⟩
      constructor
      · intro _
        refine ⟨by simp [Bench.made], ?_, ?_⟩
        · rw [List.nodup_reverse]
          refine List.Nodup.map (Option.some_injective _) (List.Nodup.map ?_ List.nodup_range')
          exact fun call call' h => Handle.opened.inj h
        · intro slot hslot
          rw [List.mem_reverse] at hslot
          obtain ⟨connection, _, rfl⟩ := List.mem_map.mp hslot
          exact ⟨connection, rfl, List.not_mem_nil⟩
      · intro e h
        cases h
      · exact Option.some_ne_none _
      · intro index hmem
        exact absurd (hnone _ hmem) (Option.some_ne_none _)
  · obtain ⟨k, hk, hok, e, hfails⟩ := exists_first_failure hall
    rw [Bench.run_prefill_error hk hok hfails]
    refine iff_of_false ?_ fun h => hall h.1
    intro h
    -- one slot is missing: the slot of the call that failed
    have hlength := (h.raises e rfl).1
    simp only [List.length_append, List.length_replicate, List.length_drop, List.length_map] at hlength
    omega

/-- A fresh pool of one slot whose factory fails has no slot left; a pool that holds one connection
drops it, still open. -/
theorem prefill_loses_slots :
    ¬ AllOrNothing [none]
      ((prefill 1 ()).run Bench.handle (Bench.start [none] fun _ => some
        (.connectionError .closedByServer))).1
      ((prefill 1 ()).run Bench.handle (Bench.start [none] fun _ => some
        (.connectionError .closedByServer))).2 ∧
    ¬ AllOrNothing [some 0]
      ((prefill 1 ()).run Bench.handle (Bench.start [some 0] fun _ => none)).1
      ((prefill 1 ()).run Bench.handle (Bench.start [some 0] fun _ => none)).2 := by
  constructor
  · intro h
    exact absurd (h.raises (.connectionError .closedByServer) rfl).1 (by decide)
  · intro h
    exact absurd (h.kept 0 List.mem_cons_self) (by decide)

end FqClient.Prefill
