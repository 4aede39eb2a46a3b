import FqClient.Effects.Tasks
import FqClient.Pool
import Mathlib.Data.List.Nodup
import Mathlib.Data.List.Perm.Basic
import Mathlib.Data.List.ReduceOption

namespace FqClient.PoolSafety

open Effects Pool

variable {ι : Type} [DecidableEq ι]

/-! ## A pool that tasks share -/

/-- An asyncio pool and the connections of its factory, numbered as they are returned. What only
the proof keeps: the slots that tasks have taken, the task that closed the pool, and whether that
task has emptied it. -/
structure Shared (ι : Type) where
  size : ℕ
  slots : List (Option ℕ)
  flag : Bool
  made : ℕ
  isOpen : ℕ → Bool
  taken : List (ι × Option ℕ)
  closer : Option ι
  emptied : Bool

namespace Shared

/-- The connections in the queue. -/
def queued (s : Shared ι) : List ℕ := s.slots.reduceOption

/-- The connections that tasks hold. -/
def held (s : Shared ι) : List ℕ := (s.taken.map Prod.snd).reduceOption

/-- The slot of task `i`, given back. -/
def without (s : Shared ι) (i : ι) : List (ι × Option ℕ) := s.taken.filter (·.1 ≠ i)

def opened (s : Shared ι) (connection : ℕ) (value : Bool) : ℕ → Bool :=
  Function.update s.isOpen connection value

/-- A fresh pool, or one that `prefill` has filled. -/
def start (size : ℕ) : (prefilled : Bool) → Shared ι
  | false => ⟨size, List.replicate size none, false, 0, fun _ => false, [], none, false⟩
  | true => ⟨size, (List.range size).reverse.map some, false, size, fun _ => true, [], none, false⟩

end Shared

/-- Where a coroutine of the pool may be suspended. -/
def awaits : PoolOp ℕ → Prop
  | .take _ | .factory | .waitClosed _ | .hold _ => True
  | _ => False

/-- What the operations of task `i` do. Waiting for a slot may time out or be cancelled, the factory
may fail or be cancelled, and the body of a `with` block may close its connection or reopen it. -/
def step (i : ι) (s : Shared ι) : (op : PoolOp ℕ) → op.Answer → Shared ι → Prop
  | .closedFlag, flag, s' => flag = s.flag ∧ s' = s
  | .setClosed, _, s' => s' = { s with flag := true, closer := s.closer <|> some i }
  | .getNowait, answer, s' =>
    match s.slots with
    | [] => answer = none ∧ s' = { s with emptied := s.emptied || decide (s.closer = some i) }
    | none :: slots => answer = some none ∧ s' = { s with slots := slots }
    | some connection :: slots => answer = some (some connection) ∧
        s' = { s with slots := slots, taken := (i, some connection) :: s.taken }
  | .take _, .error _, s' => s' = s
  | .take _, .ok slot, s' => ∃ slots, s.slots = slot :: slots ∧
      s' = { s with slots := slots, taken := (i, slot) :: s.taken }
  | .put slot, room, s' =>
    if s.slots.length < s.size then
      room = true ∧ s' = { s with slots := slot :: s.slots, taken := s.without i }
    else room = false ∧ s' = s
  | .factory, .error _, s' => s' = s
  | .factory, .ok connection, s' => connection = s.made ∧
      s' = { s with made := s.made + 1, isOpen := s.opened connection true,
                    taken := (i, some connection) :: s.without i }
  | .closed connection, closed, s' => closed = !s.isOpen connection ∧ s' = s
  | .close connection, _, s' =>
    s' = { s with isOpen := s.opened connection false, taken := s.without i }
  | .waitClosed _, _, s' => s' = s
  | .hold connection, _, s' => ∃ value, s' = { s with isOpen := s.opened connection value }

/-- `put_nowait` must find room. -/
def permits (s : Shared ι) : PoolOp ℕ → Prop
  | .put _ => s.slots.length < s.size
  | _ => True

def env (i : ι) : World (PoolOps ℕ) (Shared ι) where
  permits := permits
  step := step i

/-- What a task does: it uses a connection, or closes the pool. -/
inductive Work
  | use (deadline : Deadline)
  | aclose (rounds : ℕ)

def Work.prog : Work → Prog (PoolOps ℕ) (Except Exc Unit × Unit)
  | .use deadline => withConnection deadline ()
  | .aclose rounds => Pool.close rounds ()

/-! ## The invariant -/

/-- These connections are distinct, the factory returned them, and no other one is open. -/
structure Census (connections : List ℕ) (made : ℕ) (isOpen : ℕ → Bool) : Prop where
  nodup : connections.Nodup
  fresh : ∀ connection ∈ connections, connection < made
  tracked : ∀ connection < made, isOpen connection = true → connection ∈ connections

namespace Census

variable {connections : List ℕ} {connection made : ℕ} {isOpen : ℕ → Bool}

theorem perm (h : Census connections made isOpen) {connections' : List ℕ}
    (hperm : connections'.Perm connections) : Census connections' made isOpen where
  nodup := hperm.nodup_iff.mpr h.nodup
  fresh c hc := h.fresh c (hperm.mem_iff.mp hc)
  tracked c hmade hopen := hperm.mem_iff.mpr (h.tracked c hmade hopen)

/-- A closed connection may be forgotten. -/
theorem forget (h : Census (connection :: connections) made isOpen)
    (hclosed : isOpen connection = false) : Census connections made isOpen where
  nodup := h.nodup.of_cons
  fresh c hc := h.fresh c (List.mem_cons_of_mem _ hc)
  tracked c hmade hopen := by
    rcases List.mem_cons.mp (h.tracked c hmade hopen) with rfl | hc
    · rw [hclosed] at hopen
      cases hopen
    · exact hc

/-- A connection that is known may be closed or reopened. -/
theorem set (h : Census connections made isOpen) (hmem : connection ∈ connections) (value : Bool) :
    Census connections made (Function.update isOpen connection value) where
  nodup := h.nodup
  fresh := h.fresh
  tracked c hmade hopen := by
    by_cases hc : c = connection
    · rw [hc]
      exact hmem
    · rw [Function.update_of_ne hc] at hopen
      exact h.tracked c hmade hopen

/-- The factory returns a connection. -/
theorem make (h : Census connections made isOpen) :
    Census (made :: connections) (made + 1) (Function.update isOpen made true) where
  nodup := List.nodup_cons.mpr ⟨fun hmem => absurd (h.fresh made hmem) (Nat.lt_irrefl _), h.nodup⟩
  fresh c hc := by
    rcases List.mem_cons.mp hc with rfl | hc
    · exact Nat.lt_succ_self _
    · exact Nat.lt_succ_of_lt (h.fresh c hc)
  tracked c hmade hopen := by
    by_cases hc : c = made
    · rw [hc]
      exact List.mem_cons_self
    · rw [Function.update_of_ne hc] at hopen
      refine List.mem_cons_of_mem _ (h.tracked c ?_ hopen)
      omega

end Census

/-- Every connection in the queue or with a task. -/
def Shared.connections (s : Shared ι) : List ℕ := s.queued ++ s.held

structure Inv (s : Shared ι) : Prop where
  count : s.slots.length + s.taken.length ≤ s.size
  full : s.flag = false → s.slots.length + s.taken.length = s.size
  census : Census s.connections s.made s.isOpen
  owners : (s.taken.map Prod.fst).Nodup
  flagged : s.flag = false ↔ s.closer = none
  empty : s.emptied = true → s.flag = true ∧ s.queued = []

/-- The part of the state that belongs to one task: the slot it has taken, whether it closed the
pool, and whether it emptied it then. -/
def own (i : ι) (s : Shared ι) : List (ι × Option ℕ) × Bool × Bool :=
  (s.taken.filter (·.1 = i), decide (s.closer = some i), s.emptied && decide (s.closer = some i))

theorem filter_without {i j : ι} (hj : j ≠ i) (s : Shared ι) :
    (s.without i).filter (·.1 = j) = s.taken.filter (·.1 = j) := by
  unfold Shared.without
  rw [List.filter_filter]
  apply List.filter_congr
  intro entry _
  by_cases h : entry.1 = j
  · simp [h, hj]
  · simp [h]

theorem filter_cons_other {i j : ι} (hj : j ≠ i) (slot : Option ℕ) (taken : List (ι × Option ℕ)) :
    ((i, slot) :: taken).filter (·.1 = j) = taken.filter (·.1 = j) :=
  List.filter_cons_of_neg (by simpa using hj.symm)

/-- The part of a task is only changed by its own steps. -/
theorem own_of_step {i j : ι} (hj : j ≠ i) {s s' : Shared ι} {op : PoolOp ℕ} {answer : op.Answer}
    (h : step i s op answer s') : own j s' = own j s := by
  cases op with
  | closedFlag => rw [h.2]
  | setClosed =>
    rw [h]
    unfold own
    cases s.closer with
    | none => simp [hj.symm]
    | some closer => rfl
  | getNowait =>
    dsimp only [step] at h
    split at h
    · rw [h.2]
      unfold own
      -- only the task that closes the pool keeps what it drains
      by_cases hcloser : s.closer = some i
      · simp [hcloser, hj.symm]
      · simp [hcloser]
    · rw [h.2]
      rfl
    · rw [h.2]
      unfold own
      dsimp only
      rw [filter_cons_other hj]
  | take deadline =>
    match answer, h with
    | .error _, h => rw [h]
    | .ok slot, ⟨slots, _, h⟩ =>
      rw [h]
      unfold own
      dsimp only
      rw [filter_cons_other hj]
  | put slot =>
    dsimp only [step] at h
    split at h
    · rw [h.2]
      unfold own
      dsimp only
      rw [filter_without hj]
    · rw [h.2]
  | factory =>
    match answer, h with
    | .error _, h => rw [h]
    | .ok connection, ⟨_, h⟩ =>
      rw [h]
      unfold own
      dsimp only
      rw [filter_cons_other hj, filter_without hj]
  | closed connection => rw [h.2]
  | close connection =>
    rw [h]
    unfold own
    dsimp only
    rw [filter_without hj]
  | waitClosed connection => rw [h]
  | hold connection =>
    obtain ⟨value, h⟩ := h
    rw [h]
    rfl

/-! ## What each step makes of the invariant -/

/-- The task has no slot, and has not closed the pool. -/
def Idle (i : ι) (s : Shared ι) : Prop := own i s = ([], false, false)

/-- The task has a slot with this connection, or an empty one. -/
def Holding (i : ι) (slot : Option ℕ) (s : Shared ι) : Prop := own i s = ([(i, slot)], false, false)

/-- The task has closed the pool and empties it. -/
def Draining (i : ι) (s : Shared ι) : Prop := own i s = ([], true, false)

theorem taken_perm {i : ι} {slot : Option ℕ} {s : Shared ι}
    (h : s.taken.filter (·.1 = i) = [(i, slot)]) : s.taken.Perm ((i, slot) :: s.without i) := by
  have hperm := List.filter_append_perm (fun entry : ι × Option ℕ => decide (entry.1 = i)) s.taken
  rw [h] at hperm
  unfold Shared.without
  simpa using hperm.symm

theorem without_of_idle {i : ι} {s : Shared ι} (h : s.taken.filter (·.1 = i) = []) :
    s.without i = s.taken := by
  unfold Shared.without
  rw [List.filter_eq_self]
  intro entry hentry
  rw [List.filter_eq_nil_iff] at h
  simpa using h entry hentry

theorem reduceOption_cons (slot : Option ℕ) (slots : List (Option ℕ)) :
    (slot :: slots).reduceOption = slot.toList ++ slots.reduceOption := by
  cases slot with
  | none => exact List.reduceOption_cons_of_none _
  | some connection => exact List.reduceOption_cons_of_some _ _

theorem held_perm {i : ι} {slot : Option ℕ} {s : Shared ι}
    (h : s.taken.filter (·.1 = i) = [(i, slot)]) :
    s.held.Perm (slot.toList ++ ((s.without i).map Prod.snd).reduceOption) := by
  rw [← reduceOption_cons]
  exact ((taken_perm h).map Prod.snd).filterMap id

theorem length_taken {i : ι} {slot : Option ℕ} {s : Shared ι}
    (h : s.taken.filter (·.1 = i) = [(i, slot)]) :
    s.taken.length = (s.without i).length + 1 := (taken_perm h).length_eq

theorem owners_without {s : Shared ι} (h : (s.taken.map Prod.fst).Nodup) (i : ι) :
    ((s.without i).map Prod.fst).Nodup := h.sublist (List.filter_sublist.map _)

theorem not_owner_without (s : Shared ι) (i : ι) : i ∉ (s.without i).map Prod.fst := by
  intro hmem
  obtain ⟨entry, hentry, heq⟩ := List.mem_map.mp hmem
  have hne := (List.mem_filter.mp hentry).2
  rw [heq] at hne
  simp at hne

/-- A slot leaves the queue for task `i`. -/
theorem Inv.take {i : ι} {slot : Option ℕ} {slots : List (Option ℕ)} {s : Shared ι} (h : Inv s)
    (hidle : s.taken.filter (·.1 = i) = []) (hslots : s.slots = slot :: slots) :
    Inv { s with slots := slots, taken := (i, slot) :: s.taken } := by
  have hlength : s.slots.length = slots.length + 1 := by rw [hslots, List.length_cons]
  constructor
  · have hcount := h.count
    simp only [List.length_cons]
    omega
  · intro hflag
    have hfull := h.full hflag
    simp only [List.length_cons]
    omega
  · apply h.census.perm
    unfold Shared.connections Shared.queued Shared.held
    rw [hslots, reduceOption_cons, List.map_cons, reduceOption_cons, ← List.append_assoc]
    exact List.perm_append_comm.append_right _
  · refine List.nodup_cons.mpr ⟨?_, h.owners⟩
    intro hmem
    rw [← without_of_idle hidle] at hmem
    exact not_owner_without s i hmem
  · exact h.flagged
  · intro hempty
    obtain ⟨hflag, hqueued⟩ := h.empty hempty
    unfold Shared.queued at hqueued
    rw [hslots, reduceOption_cons] at hqueued
    exact ⟨hflag, (List.append_eq_nil_iff.mp hqueued).2⟩

/-- The connections without those of task `i`. -/
def Shared.others (s : Shared ι) (i : ι) : List ℕ :=
  s.queued ++ ((s.without i).map Prod.snd).reduceOption

theorem connections_perm {i : ι} {slot : Option ℕ} {s : Shared ι}
    (h : s.taken.filter (·.1 = i) = [(i, slot)]) :
    s.connections.Perm (slot.toList ++ s.others i) := by
  unfold Shared.connections Shared.others
  refine ((held_perm h).append_left _).trans ?_
  rw [← List.append_assoc, ← List.append_assoc]
  exact List.perm_append_comm.append_right _

/-- Task `i` puts back its slot, or an empty one for a connection that is closed. -/
theorem Inv.put {i : ι} {slot slot' : Option ℕ} {s : Shared ι} (h : Inv s)
    (hmine : s.taken.filter (·.1 = i) = [(i, slot)])
    (hslot : slot' = slot ∨ slot' = none ∧ ∀ connection, slot = some connection →
      s.isOpen connection = false)
    (hflag : slot' ≠ none → s.flag = false) :
    Inv { s with slots := slot' :: s.slots, taken := s.without i } := by
  have hlength := length_taken hmine
  constructor
  · have hcount := h.count
    simp only [List.length_cons]
    omega
  · intro hflag
    have hfull := h.full hflag
    simp only [List.length_cons]
    omega
  · have hcensus := h.census.perm (connections_perm hmine).symm
    have hconnections : Shared.connections { s with slots := slot' :: s.slots, taken := s.without i } =
        slot'.toList ++ s.others i := by
      unfold Shared.connections Shared.queued Shared.others Shared.held
      rw [reduceOption_cons, List.append_assoc]
      rfl
    rw [hconnections]
    -- a connection goes back, or a closed one is forgotten
    rcases hslot with rfl | ⟨rfl, hclosed⟩
    · exact hcensus
    · cases slot with
      | none => exact hcensus
      | some connection => exact hcensus.forget (hclosed connection rfl)
  · exact owners_without h.owners i
  · exact h.flagged
  · intro hempty
    obtain ⟨hclosed, hqueued⟩ := h.empty hempty
    refine ⟨hclosed, ?_⟩
    cases slot' with
    | none =>
      unfold Shared.queued
      rw [reduceOption_cons]
      exact hqueued
    | some connection =>
      rw [hflag (Option.some_ne_none _)] at hclosed
      cases hclosed

/-- The pool is closed, and task `i` closes the connection it has. -/
theorem Inv.close {i : ι} {connection : ℕ} {s : Shared ι} (h : Inv s)
    (hmine : s.taken.filter (·.1 = i) = [(i, some connection)]) (hflag : s.flag = true) :
    Inv { s with isOpen := s.opened connection false, taken := s.without i } := by
  have hlength := length_taken hmine
  constructor
  · have hcount := h.count
    dsimp only
    omega
  · intro hopen
    rw [hflag] at hopen
    cases hopen
  · have hcensus := h.census.perm (connections_perm hmine).symm
    exact (hcensus.set List.mem_cons_self false).forget (Function.update_self _ _ _)
  · exact owners_without h.owners i
  · exact h.flagged
  · exact h.empty

/-- The factory returns a connection to task `i`, which has an empty slot. -/
theorem Inv.make {i : ι} {s : Shared ι} (h : Inv s)
    (hmine : s.taken.filter (·.1 = i) = [(i, none)]) :
    Inv { s with made := s.made + 1, isOpen := s.opened s.made true,
                 taken := (i, some s.made) :: s.without i } := by
  have hlength := length_taken hmine
  constructor
  · have hcount := h.count
    simp only [List.length_cons]
    omega
  · intro hflag
    have hfull := h.full hflag
    simp only [List.length_cons]
    omega
  · refine (h.census.perm (connections_perm hmine).symm).make.perm ?_
    unfold Shared.connections Shared.held Shared.others
    rw [List.map_cons, reduceOption_cons]
    exact List.perm_middle
  · exact List.nodup_cons.mpr ⟨not_owner_without s i, owners_without h.owners i⟩
  · exact h.flagged
  · exact h.empty

/-- Task `i` uses its connection. -/
theorem Inv.hold {i : ι} {connection : ℕ} {s : Shared ι} (h : Inv s)
    (hmine : s.taken.filter (·.1 = i) = [(i, some connection)]) (value : Bool) :
    Inv { s with isOpen := s.opened connection value } where
  count := h.count
  full := h.full
  census := by
    refine h.census.set ?_ value
    exact (connections_perm hmine).mem_iff.mpr List.mem_cons_self
  owners := h.owners
  flagged := h.flagged
  empty := h.empty

omit [DecidableEq ι] in
/-- Task `i` closes a pool that is open. -/
theorem Inv.setClosed {s : Shared ι} (h : Inv s) (hflag : s.flag = false) (i : ι) :
    Inv { s with flag := true, closer := s.closer <|> some i } where
  count := h.count
  full hopen := by cases hopen
  census := h.census
  owners := h.owners
  flagged := by
    rw [h.flagged.mp hflag]
    simp
  empty hempty := ⟨rfl, (h.empty hempty).2⟩

omit [DecidableEq ι] in
/-- An empty slot leaves the queue of a closed pool. -/
theorem Inv.drop {slots : List (Option ℕ)} {s : Shared ι} (h : Inv s) (hflag : s.flag = true)
    (hslots : s.slots = none :: slots) : Inv { s with slots := slots } where
  count := by
    have hcount := h.count
    rw [hslots, List.length_cons] at hcount
    dsimp only
    omega
  full hopen := by
    rw [hflag] at hopen
    cases hopen
  census := by
    have hcensus := h.census
    unfold Shared.connections Shared.queued at hcensus
    rw [hslots, reduceOption_cons] at hcensus
    exact hcensus
  owners := h.owners
  flagged := h.flagged
  empty hempty := by
    have hqueued := (h.empty hempty).2
    unfold Shared.queued at hqueued
    rw [hslots, reduceOption_cons] at hqueued
    exact ⟨hflag, hqueued⟩

omit [DecidableEq ι] in
/-- A task finds the queue of a closed pool empty. -/
theorem Inv.finish {s : Shared ι} (h : Inv s) (hflag : s.flag = true) (hslots : s.slots = [])
    (value : Bool) : Inv { s with emptied := value } where
  count := h.count
  full := h.full
  census := h.census
  owners := h.owners
  flagged := h.flagged
  empty _ := by
    refine ⟨hflag, ?_⟩
    unfold Shared.queued
    rw [hslots]
    rfl

/-! ## One task among the others -/

def among (i : ι) : World (PoolOps ℕ) (Shared ι) := (env i).cooperative awaits Inv (own i)

section Task
variable {κ : Type} {i : ι} {c : κ} {s : Shared ι}

/-- An operation that does not await. -/
theorem among_local {op : PoolOp ℕ} {Q : Except Exc op.Answer → κ → Shared ι → Prop}
    (hpermits : permits s op) (hstep : ∀ answer s', step i s op answer s' → Q (.ok answer) c s')
    (hop : ¬ awaits op := by exact not_false) : wpm (among i) (Pool.perform op) Q c s :=
  (cooperative_local hop).mpr ⟨hpermits, hstep⟩

/-- An operation that awaits: other tasks may run first. -/
theorem among_await {op : PoolOp ℕ} {Q : Except Exc op.Answer → κ → Shared ι → Prop} (hs : Inv s)
    (hstep : ∀ s₁, Inv s₁ → own i s₁ = own i s → permits s₁ op ∧
      ∀ answer s', step i s₁ op answer s' → Q (.ok answer) c s')
    (hop : awaits op := by exact trivial) : wpm (among i) (Pool.perform op) Q c s :=
  (cooperative_await hop).mpr ⟨hs, hstep⟩

theorem Idle.taken (h : Idle i s) : s.taken.filter (·.1 = i) = [] := congrArg Prod.fst h

theorem Holding.taken {slot : Option ℕ} (h : Holding i slot s) :
    s.taken.filter (·.1 = i) = [(i, slot)] := congrArg Prod.fst h

theorem filter_self_without (s : Shared ι) (i : ι) : (s.without i).filter (·.1 = i) = [] := by
  rw [List.filter_eq_nil_iff]
  intro entry hentry
  simpa [Shared.without] using (List.mem_filter.mp hentry).2

theorem filter_self_cons {slot : Option ℕ} {taken : List (ι × Option ℕ)}
    (h : taken.filter (·.1 = i) = []) : ((i, slot) :: taken).filter (·.1 = i) = [(i, slot)] := by
  rw [List.filter_cons_of_pos (by simp), h]

theorem wpm_put {slot slot' : Option ℕ} (hs : Inv s) (hmine : Holding i slot s)
    (hslot : slot' = slot ∨ slot' = none ∧ ∀ connection, slot = some connection →
      s.isOpen connection = false)
    (hflag : slot' ≠ none → s.flag = false) :
    wpm (among i) (put slot') (fun r _ s' => r = .ok () ∧ Inv s' ∧ Idle i s') c s := by
  have hlength := length_taken hmine.taken
  have hcount := hs.count
  have hroom : s.slots.length < s.size := by omega
  unfold put
  rw [wpm_bind]
  refine among_local hroom fun room s' h => ?_
  dsimp only [step] at h
  rw [if_pos hroom] at h
  obtain ⟨rfl, rfl⟩ := h
  refine ⟨rfl, hs.put hmine.taken hslot hflag, ?_⟩
  unfold Idle own
  rw [filter_self_without]
  exact congrArg (Prod.mk []) (congrArg Prod.snd hmine)

/-- The two halves of closing a connection: it is closed at once, and the task then waits. -/
theorem wpm_closeOne {connection : ℕ} {rest : Bool × Bool} (hs : Inv s) (hflag : s.flag = true)
    (hmine : own i s = ([(i, some connection)], rest)) :
    wpm (among i) (closeOne connection)
      (fun r _ s' => r = .ok () ∧ Inv s' ∧ own i s' = ([], rest)) c s := by
  unfold closeOne
  rw [wpm_bind]
  refine among_local trivial fun _ s₁ h₁ => ?_
  have hs₁ : Inv s₁ := by
    rw [h₁]
    exact hs.close (congrArg Prod.fst hmine) hflag
  have hown₁ : own i s₁ = ([], rest) := by
    rw [h₁]
    unfold own
    dsimp only
    rw [filter_self_without]
    exact congrArg (Prod.mk []) (congrArg Prod.snd hmine)
  dsimp only
  refine among_await hs₁ fun s₂ hs₂ hown₂ => ⟨trivial, fun _ s₃ h₃ => ?_⟩
  rw [h₃]
  exact ⟨rfl, hs₂, hown₂.trans hown₁⟩

theorem wpm_acquire (deadline : Deadline) (hs : Inv s) (hidle : Idle i s) :
    wpm (among i) (acquire deadline) (fun r _ s' => Inv s' ∧ match r with
      | .ok connection => Holding i (some connection) s'
      | .error _ => Idle i s') () s := by
  unfold acquire
  rw [wpm_bind]
  refine among_local trivial fun flag s' h => ?_
  obtain ⟨rfl, rfl⟩ := h
  dsimp only
  rw [wpm_ite]
  split
  · exact ⟨hs, hidle⟩
  rw [wpm_bind]
  -- other tasks run while it waits for a slot, and again while the factory works
  refine among_await hs fun s₁ hs₁ hown₁ => ⟨trivial, fun answer s₂ h₂ => ?_⟩
  have hidle₁ : Idle i s₁ := hown₁.trans hidle
  dsimp only
  rw [wpm_bind, wpm_ofExcept]
  match answer, h₂ with
  | .error e, h₂ =>
    rw [h₂]
    exact ⟨hs₁, hidle₁⟩
  | .ok slot, ⟨slots, hslots, h₂⟩ =>
    have hs₂ : Inv s₂ := by
      rw [h₂]
      exact hs₁.take hidle₁.taken hslots
    have hmine₂ : Holding i slot s₂ := by
      rw [h₂]
      unfold Holding own
      dsimp only
      rw [filter_self_cons hidle₁.taken]
      exact congrArg (Prod.mk [(i, slot)]) (congrArg Prod.snd hidle₁)
    cases slot with
    | some connection => exact ⟨hs₂, hmine₂⟩
    | none =>
      dsimp only
      rw [wpm_bind]
      refine among_await hs₂ fun s₃ hs₃ hown₃ => ⟨trivial, fun answer s₄ h₄ => ?_⟩
      have hmine₃ : Holding i none s₃ := hown₃.trans hmine₂
      match answer, h₄ with
      | .ok connection, ⟨hmade, h₄⟩ =>
        rw [h₄, hmade]
        refine ⟨hs₃.make hmine₃.taken, ?_⟩
        unfold Holding own
        dsimp only
        rw [filter_self_cons (filter_self_without s₃ i)]
        exact congrArg (Prod.mk _) (congrArg Prod.snd hmine₃)
      | .error e, h₄ =>
        rw [h₄]
        dsimp only
        rw [wpm_bind]
        refine wpm_mono (wpm_put hs₃ hmine₃ (Or.inl rfl) fun h => absurd rfl h) ?_
        intro r _ s₅ ⟨hr, hs₅, hidle₅⟩
        rw [hr]
        exact ⟨hs₅, hidle₅⟩

theorem wpm_release {connection : ℕ} (hs : Inv s) (hmine : Holding i (some connection) s) :
    wpm (among i) (release connection) (fun r _ s' => r = .ok () ∧ Inv s' ∧ Idle i s') () s := by
  unfold release
  rw [wpm_bind]
  refine among_local trivial fun flag s' h => ?_
  obtain ⟨rfl, hsame⟩ := h
  rw [hsame]
  dsimp only
  rw [wpm_ite]
  split
  · rename_i hflag
    exact wpm_closeOne hs hflag hmine
  · rename_i hflag
    rw [wpm_bind]
    refine among_local trivial fun closed s' h => ?_
    obtain ⟨rfl, hsame⟩ := h
    rw [hsame]
    dsimp only
    apply wpm_put hs hmine
    · cases hopen : s.isOpen connection with
      | true => exact Or.inl rfl
      | false =>
        refine Or.inr ⟨rfl, fun connection' heq => ?_⟩
        rw [← Option.some.inj heq]
        exact hopen
    · intro _
      exact Bool.eq_false_iff.mpr hflag

theorem wpm_withConnection (deadline : Deadline) (hs : Inv s) (hidle : Idle i s) :
    wpm (among i) (withConnection deadline) (fun _ _ s' => Inv s' ∧ Idle i s') () s := by
  unfold withConnection
  rw [wpm_bind]
  refine wpm_mono (wpm_acquire deadline hs hidle) ?_
  intro r _ s₁ ⟨hs₁, hr⟩
  cases r with
  | error e => exact ⟨hs₁, hr⟩
  | ok connection =>
    dsimp only at hr ⊢
    rw [wpm_bind]
    refine among_await hs₁ fun s₂ hs₂ hown₂ => ⟨trivial, fun outcome s₃ h₃ => ?_⟩
    have hmine₂ : Holding i (some connection) s₂ := hown₂.trans hr
    obtain ⟨value, h₃⟩ := h₃
    have hs₃ : Inv s₃ := by
      rw [h₃]
      exact hs₂.hold hmine₂.taken value
    have hmine₃ : Holding i (some connection) s₃ := by
      rw [h₃]
      exact hmine₂
    dsimp only
    rw [wpm_bind]
    refine wpm_mono (wpm_release hs₃ hmine₃) ?_
    intro r _ s₄ ⟨hr, hs₄, hidle₄⟩
    rw [hr]
    exact ⟨hs₄, hidle₄⟩

/-- The task has emptied the pool that it closed. -/
def Done (i : ι) (s : Shared ι) : Prop := own i s = ([], true, true)

theorem flag_of_closing {part : List (ι × Option ℕ)} {emptied : Bool} (hs : Inv s)
    (h : own i s = (part, true, emptied)) : s.flag = true ∧ s.closer = some i := by
  have hcloser : s.closer = some i := of_decide_eq_true (congrArg (fun x => x.2.1) h)
  refine ⟨?_, hcloser⟩
  by_contra hflag
  rw [hs.flagged.mp (Bool.eq_false_iff.mpr hflag)] at hcloser
  cases hcloser

theorem wpm_drain (rounds : ℕ) (hs : Inv s) (h : Draining i s) :
    wpm (among i) (drain rounds) (fun _ _ s' => Inv s' ∧ Done i s') () s := by
  induction rounds generalizing s with
  | zero => exact trivial
  | succ rounds ih =>
    obtain ⟨hflag, hcloser⟩ := flag_of_closing hs h
    have hidle : s.taken.filter (·.1 = i) = [] := congrArg Prod.fst h
    unfold drain
    rw [wpm_bind]
    refine among_local trivial fun answer s' hstep => ?_
    dsimp only [step] at hstep
    split at hstep
    · rename_i hslots
      obtain ⟨rfl, rfl⟩ := hstep
      refine ⟨hs.finish hflag hslots _, ?_⟩
      unfold Done own
      simp [hidle, hcloser]
    · rename_i slots hslots
      obtain ⟨rfl, rfl⟩ := hstep
      exact ih (hs.drop hflag hslots) h
    · rename_i connection slots hslots
      obtain ⟨rfl, rfl⟩ := hstep
      dsimp only
      rw [wpm_bind]
      refine wpm_mono (@wpm_closeOne ι _ Unit i () _ connection (true, false)
        (hs.take hidle hslots) hflag ?_) ?_
      · unfold own
        dsimp only
        rw [filter_self_cons hidle]
        exact congrArg (Prod.mk _) (congrArg Prod.snd h)
      · intro r _ s₁ ⟨hr, hs₁, hown₁⟩
        rw [hr]
        exact ih hs₁ hown₁

theorem wpm_aclose (rounds : ℕ) (hs : Inv s) (hidle : Idle i s) :
    wpm (among i) (Pool.close rounds) (fun _ _ s' => Inv s' ∧ (Idle i s' ∨ Done i s')) () s := by
  unfold Pool.close
  rw [wpm_bind]
  refine among_local trivial fun flag s' h => ?_
  obtain ⟨rfl, hsame⟩ := h
  rw [hsame]
  dsimp only
  rw [wpm_ite]
  split
  · exact ⟨hs, Or.inl hidle⟩
  · rename_i hflag
    have hflag : s.flag = false := Bool.eq_false_iff.mpr hflag
    have hemptied : s.emptied = false := by
      by_contra hemptied
      rw [(hs.empty (Bool.not_eq_false _ ▸ hemptied)).1] at hflag
      cases hflag
    rw [wpm_bind]
    refine among_local trivial fun _ s₁ h₁ => ?_
    have hs₁ : Inv s₁ := by
      rw [h₁]
      exact hs.setClosed hflag i
    have hdraining : Draining i s₁ := by
      rw [h₁]
      unfold Draining own
      simp [hidle.taken, hs.flagged.mp hflag, hemptied]
    refine wpm_mono (wpm_drain rounds hs₁ hdraining) ?_
    intro _ _ s₂ ⟨hs₂, hdone⟩
    exact ⟨hs₂, Or.inr hdone⟩

end Task

/-! ## Every interleaving -/

/-- What a task leaves behind: nothing, or a pool that it closed and emptied. -/
def leaves (_ : ι) (_ : Except Exc Unit × Unit) (part : List (ι × Option ℕ) × Bool × Bool) : Prop :=
  part = ([], false, false) ∨ part = ([], true, true)

theorem keeping_work (work : Work) {i : ι} {s : Shared ι} (hs : Inv s) (hidle : Idle i s) :
    Keeping env awaits Inv own leaves i work.prog s := by
  cases work with
  | use deadline =>
    refine wp_mono (wpm_withConnection deadline hs hidle) ?_
    intro r s' ⟨hs', hidle'⟩
    exact ⟨hs', Or.inl hidle'⟩
  | aclose rounds => exact wpm_aclose rounds hs hidle

/-- Tasks over a fresh or prefilled pool, none of which has begun. -/
def tasks (size : ℕ) (prefilled : Bool) (work : ι → Work) (first : ι) :
    Tasks (PoolOps ℕ) ι (Except Exc Unit × Unit) (Shared ι) :=
  ⟨first, fun i => (work i).prog, .start size prefilled⟩

omit [DecidableEq ι] in
theorem connections_start (size : ℕ) :
    (Shared.start size true : Shared ι).connections = (List.range size).reverse := by
  unfold Shared.connections Shared.queued Shared.held
  change ((List.range size).reverse.map some).reduceOption ++ [] = _
  rw [List.append_nil, List.reduceOption, List.filterMap_map]
  exact List.filterMap_some

omit [DecidableEq ι] in
theorem inv_start (size : ℕ) (prefilled : Bool) : Inv (Shared.start size prefilled : Shared ι) := by
  cases prefilled with
  | false =>
    constructor
    · exact (List.length_replicate (n := size)).le
    · exact fun _ => List.length_replicate
    · have hnone : (Shared.start size false : Shared ι).connections = [] :=
        (List.append_nil _).trans List.reduceOption_replicate_none
      rw [hnone]
      exact ⟨List.nodup_nil, List.forall_mem_nil _, fun _ h => absurd h (Nat.not_lt_zero _)⟩
    · exact List.nodup_nil
    · exact iff_of_true rfl rfl
    · intro h
      cases h
  | true =>
    have hlength : ((List.range size).reverse.map (some : ℕ → Option ℕ)).length = size := by
      rw [List.length_map, List.length_reverse, List.length_range]
    constructor
    · exact hlength.le
    · exact fun _ => hlength
    · rw [connections_start]
      refine ⟨List.nodup_reverse.mpr List.nodup_range, ?_, ?_⟩
      · intro connection hmem
        exact List.mem_range.mp (List.mem_reverse.mp hmem)
      · intro connection hmade _
        exact List.mem_reverse.mpr (List.mem_range.mpr hmade)
    · exact List.nodup_nil
    · exact iff_of_true rfl rfl
    · intro h
      cases h

theorem idle_start (size : ℕ) (prefilled : Bool) (i : ι) :
    Idle i (Shared.start size prefilled) := by
  cases prefilled <;> rfl

theorem size_of_step {i : ι} {s s' : Shared ι} {op : PoolOp ℕ} {answer : op.Answer}
    (h : step i s op answer s') : s'.size = s.size := by
  cases op with
  | closedFlag | closed => rw [h.2]
  | setClosed | close | waitClosed => rw [h]
  | getNowait =>
    dsimp only [step] at h
    split at h <;> rw [h.2]
  | take deadline =>
    match answer, h with
    | .error _, h => rw [h]
    | .ok slot, ⟨slots, _, h⟩ => rw [h]
  | put slot =>
    dsimp only [step] at h
    split at h <;> rw [h.2]
  | factory =>
    match answer, h with
    | .error _, h => rw [h]
    | .ok connection, ⟨_, h⟩ => rw [h]
  | hold connection =>
    obtain ⟨value, h⟩ := h
    rw [h]

theorem size_of_reaches {t t' : Tasks (PoolOps ℕ) ι (Except Exc Unit × Unit) (Shared ι)}
    (h : Tasks.Reaches env awaits t t') : t'.state.size = t.state.size := by
  induction h with
  | refl => rfl
  | tail _ hstep ih =>
    cases hstep with
    | op _ hstep => exact (size_of_step hstep).trans ih
    | switch => exact ih

theorem sound (size : ℕ) (prefilled : Bool) (work : ι → Work) (first : ι)
    {t : Tasks (PoolOps ℕ) ι (Except Exc Unit × Unit) (Shared ι)}
    (h : Tasks.Reaches env awaits (tasks size prefilled work first) t) :
    t.Sound env awaits Inv own leaves := by
  refine Tasks.sound_of_reaches (fun i j s o a s' hj _ _ => own_of_step hj)
    (inv_start size prefilled) ?_ h
  intro i s hs hown
  exact keeping_work (work i) hs (hown.trans (idle_start size prefilled i))

/-- One task uses a connection, the other closes the pool. -/
def userAndCloser : Bool → Work
  | true => .use ⟨none⟩
  | false => .aclose 2

end FqClient.PoolSafety
