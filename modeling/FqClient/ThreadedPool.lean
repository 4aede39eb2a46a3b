import FqClient.PoolClosing

namespace FqClient.ThreadedPool

open Effects Pool PoolSafety

/-! ## The invariant -/

section Invariant
variable {ι : Type} {s : Shared ι}

/-- What holds of the pool before every operation of every thread. -/
structure Safe (s : Shared ι) : Prop where
  count : s.slots.length + s.taken.length ≤ s.size
  full : s.flag = false → s.slots.length + s.taken.length = s.size
  census : Census s.connections s.made s.isOpen
  owners : (s.taken.map Prod.fst).Nodup

/-- The same pool, as some task of asyncio might have closed it just now. -/
def ghost (i : ι) (s : Shared ι) : Shared ι :=
  { s with closer := if s.flag then some i else none, emptied := false }

theorem Safe.inv (h : Safe s) (i : ι) : Inv (ghost i s) where
  count := h.count
  full := h.full
  census := h.census
  owners := h.owners
  flagged := by
    unfold ghost
    cases s.flag <;> simp
  empty hempty := by cases hempty

theorem safe_of_inv (h : Inv s) : Safe s := ⟨h.count, h.full, h.census, h.owners⟩

/-- The invariant does not see who closed the pool. -/
theorem Safe.of_ghost {closer : Option ι} {emptied : Bool}
    (h : Safe { s with closer := closer, emptied := emptied }) : Safe s :=
  ⟨h.count, h.full, h.census, h.owners⟩

theorem Safe.setClosed (h : Safe s) (closer : Option ι) :
    Safe { s with flag := true, closer := closer } where
  count := h.count
  full hopen := by cases hopen
  census := h.census
  owners := h.owners

theorem Safe.drop {slots : List (Option ℕ)} (h : Safe s) (hflag : s.flag = true)
    (hslots : s.slots = none :: slots) (i : ι) : Safe { s with slots := slots } :=
  .of_ghost (safe_of_inv ((h.inv i).drop hflag hslots))

end Invariant

section Threads
variable {ι : Type} [DecidableEq ι] {i j : ι} {s s' : Shared ι} {slot slot' : Option ℕ}
  {connection : ℕ} {op : PoolOp ℕ}

theorem Safe.take {slots : List (Option ℕ)} (h : Safe s)
    (hidle : s.taken.filter (·.1 = i) = []) (hslots : s.slots = slot :: slots) :
    Safe { s with slots := slots, taken := (i, slot) :: s.taken } :=
  .of_ghost (safe_of_inv ((h.inv i).take hidle hslots))

theorem Safe.close (h : Safe s) (hmine : s.taken.filter (·.1 = i) = [(i, some connection)])
    (hflag : s.flag = true) :
    Safe { s with isOpen := s.opened connection false, taken := s.without i } :=
  .of_ghost (safe_of_inv ((h.inv i).close hmine hflag))

theorem Safe.make (h : Safe s) (hmine : s.taken.filter (·.1 = i) = [(i, none)]) :
    Safe { s with made := s.made + 1, isOpen := s.opened s.made true,
                  taken := (i, some s.made) :: s.without i } :=
  .of_ghost (safe_of_inv ((h.inv i).make hmine))

theorem Safe.hold (h : Safe s) (hmine : s.taken.filter (·.1 = i) = [(i, some connection)])
    (value : Bool) : Safe { s with isOpen := s.opened connection value } :=
  .of_ghost (safe_of_inv ((h.inv i).hold hmine value))

/-- A slot may come back to a pool that was closed meanwhile. -/
theorem Safe.put (h : Safe s) (hmine : s.taken.filter (·.1 = i) = [(i, slot)])
    (hslot : slot' = slot ∨ slot' = none ∧ ∀ connection, slot = some connection →
      s.isOpen connection = false) :
    Safe { s with slots := slot' :: s.slots, taken := s.without i } := by
  have hlength := length_taken hmine
  constructor
  · have hcount := h.count
    simp only [List.length_cons]
    omega
  · intro hflag
    have hfull := h.full hflag
    simp only [List.length_cons]
    omega
  · have hcensus := h.census.perm (connections_perm hmine).symm
    have hconnections : Shared.connections { s with slots := slot' :: s.slots, taken := s.without i } =
        slot'.toList ++ s.others i := by
      unfold Shared.connections Shared.queued Shared.others Shared.held
      rw [reduceOption_cons, List.append_assoc]
      rfl
    rw [hconnections]
    rcases hslot with rfl | ⟨rfl, hclosed⟩
    · exact hcensus
    · cases slot with
      | none => exact hcensus
      | some connection => exact hcensus.forget (hclosed connection rfl)
  · exact owners_without h.owners i

/-! ## Threads on a pool -/

/-- The interpreter may switch threads before any operation. -/
def preempts (_ : PoolOp ℕ) : Prop := True

/-- A pool, and what only the proof keeps: the threads that have seen it closed. -/
structure Watched (ι : Type) where
  pool : Shared ι
  seen : ι → Bool

/-- An answer that tells the thread that the pool is closed. -/
def sees : (op : PoolOp ℕ) → op.Answer → Bool
  | .closedFlag, flag => flag
  | .setClosed, _ => true
  | _, _ => false

/-- A thread takes a slot only when it has none, and only touches the connection that it holds. It
puts back what it took, which must not block, or an empty slot for a closed connection. Once it has
seen the pool closed it puts no connection back, and before that it closes none. -/
def permits (i : ι) (s : Watched ι) : PoolOp ℕ → Prop
  | .closedFlag | .setClosed | .waitClosed _ => True
  | .take _ => s.pool.taken.filter (·.1 = i) = []
  | .getNowait => s.pool.taken.filter (·.1 = i) = [] ∧ s.seen i = true
  | .put slot' => s.pool.slots.length < s.pool.size ∧ (slot' ≠ none → s.seen i = false) ∧
    ∃ slot, s.pool.taken.filter (·.1 = i) = [(i, slot)] ∧
      (slot' = slot ∨ slot' = none ∧ ∀ connection, slot = some connection →
        s.pool.isOpen connection = false)
  | .factory => s.pool.taken.filter (·.1 = i) = [(i, none)]
  | .closed connection | .hold connection =>
    s.pool.taken.filter (·.1 = i) = [(i, some connection)]
  | .close connection =>
    s.pool.taken.filter (·.1 = i) = [(i, some connection)] ∧ s.seen i = true

/-- The operations do to the pool what they do in asyncio. -/
def thread (i : ι) : World (PoolOps ℕ) (Watched ι) where
  permits := permits i
  step s op answer s' := step i s.pool op answer s'.pool ∧
    s'.seen = if sees op answer then Function.update s.seen i true else s.seen

structure Sound (s : Watched ι) : Prop where
  safe : Safe s.pool
  seen : ∀ i, s.seen i = true → s.pool.flag = true

/-- What a thread knows of its slots: which they are, and whether their connections are open. -/
def held (i : ι) (s : Shared ι) : List (ι × Option ℕ) × List (Option Bool) :=
  (s.taken.filter (·.1 = i), (s.taken.filter (·.1 = i)).map fun entry => entry.2.map s.isOpen)

/-- The part of the state that belongs to one thread. -/
def own (i : ι) (s : Watched ι) : (List (ι × Option ℕ) × List (Option Bool)) × Bool :=
  (held i s.pool, s.seen i)

/-- Two threads do not hold one connection. -/
theorem Safe.ne_of_held (h : Safe s) (hmine : s.taken.filter (·.1 = i) = [(i, some connection)])
    (hj : j ≠ i) {other : ℕ} (hother : (j, some other) ∈ s.taken) : other ≠ connection := by
  intro heq
  have hnodup := (held_perm hmine).nodup_iff.mp (List.nodup_append.mp h.census.nodup).2.1
  refine (List.nodup_cons.mp hnodup).1 (List.reduceOption_mem_iff.mpr ?_)
  refine List.mem_map.mpr ⟨(j, some connection), List.mem_filter.mpr ⟨heq ▸ hother, ?_⟩, rfl⟩
  simpa using hj

/-- Opening or closing another connection changes nothing for a thread. -/
theorem held_congr {taken : List (ι × Option ℕ)} {isOpen : ℕ → Bool}
    (htaken : taken.filter (·.1 = j) = s.taken.filter (·.1 = j))
    (hopen : ∀ other, (j, some other) ∈ s.taken → isOpen other = s.isOpen other) :
    (taken.filter (·.1 = j), (taken.filter (·.1 = j)).map fun entry => entry.2.map isOpen) =
      held j s := by
  unfold held
  rw [htaken]
  refine congrArg (Prod.mk _) (List.map_congr_left fun entry hentry => ?_)
  obtain ⟨hmem, hmine⟩ := List.mem_filter.mp hentry
  obtain ⟨owner, slot⟩ := entry
  obtain rfl : owner = j := of_decide_eq_true hmine
  cases slot with
  | none => rfl
  | some other => exact congrArg some (hopen other hmem)

theorem held_of_step {w : Watched ι} (hj : j ≠ i) (hs : Safe w.pool) (hpermits : permits i w op)
    {answer : op.Answer} (h : step i w.pool op answer s') : held j s' = held j w.pool := by
  cases op with
  | closedFlag => rw [h.2]
  | setClosed =>
    rw [h]
    rfl
  | getNowait =>
    dsimp only [step] at h
    split at h
    · rw [h.2]
      rfl
    · rw [h.2]
      rfl
    · rw [h.2]
      exact held_congr (filter_cons_other hj _ _) fun _ _ => rfl
  | take deadline =>
    match answer, h with
    | .error _, h => rw [h]
    | .ok slot, ⟨slots, _, h⟩ =>
      rw [h]
      exact held_congr (filter_cons_other hj _ _) fun _ _ => rfl
  | put slot =>
    dsimp only [step] at h
    split at h
    · rw [h.2]
      exact held_congr (filter_without hj _) fun _ _ => rfl
    · rw [h.2]
  | factory =>
    match answer, h with
    | .error _, h => rw [h]
    | .ok connection, ⟨hmade, h⟩ =>
      rw [h, hmade]
      refine held_congr ((filter_cons_other hj _ _).trans (filter_without hj _)) fun other hother => ?_
      -- the connection of the factory is one that nobody has
      refine Function.update_of_ne (Nat.ne_of_lt (hs.census.fresh other ?_)) _ _
      refine List.mem_append_right _ (List.reduceOption_mem_iff.mpr ?_)
      exact List.mem_map.mpr ⟨(j, some other), hother, rfl⟩
  | closed connection => rw [h.2]
  | close connection =>
    rw [h]
    exact held_congr (filter_without hj _) fun other hother =>
      Function.update_of_ne (hs.ne_of_held hpermits.1 hj hother) _ _
  | waitClosed connection => rw [h]
  | hold connection =>
    obtain ⟨value, h⟩ := h
    rw [h]
    exact held_congr rfl fun other hother =>
      Function.update_of_ne (hs.ne_of_held hpermits hj hother) _ _

/-- The part of a thread is only changed by its own steps. -/
theorem own_of_step {w w' : Watched ι} (hj : j ≠ i) (hw : Sound w) (hpermits : permits i w op)
    {answer : op.Answer} (h : (thread i).step w op answer w') : own j w' = own j w := by
  refine Prod.ext (held_of_step hj hw.safe hpermits h.1) ?_
  change w'.seen j = w.seen j
  rw [h.2]
  split
  · exact Function.update_of_ne hj _ _
  · rfl

theorem flag_of_sees {answer : op.Answer} (h : step i s op answer s') (hsees : sees op answer = true) :
    s'.flag = true := by
  cases op with
  | closedFlag =>
    rw [h.2, ← h.1]
    exact hsees
  | setClosed => rw [h]
  | _ => cases hsees

/-- Threads that keep to what they may do keep the pool safe. -/
theorem safe_of_step {w : Watched ι} (hw : Sound w) (hpermits : permits i w op) {answer : op.Answer}
    (h : step i w.pool op answer s') : Safe s' := by
  cases op with
  | closedFlag | closed =>
    rw [h.2]
    exact hw.safe
  | setClosed =>
    rw [h]
    exact hw.safe.setClosed _
  | getNowait =>
    dsimp only [step] at h
    split at h
    · rw [h.2]
      exact .of_ghost hw.safe
    -- only a thread that has found the pool closed drains it
    next slots hslots =>
      rw [h.2]
      exact hw.safe.drop (hw.seen i hpermits.2) hslots i
    next connection slots hslots =>
      rw [h.2]
      exact hw.safe.take hpermits.1 hslots
  | take deadline =>
    match answer, h with
    | .error _, h =>
      rw [h]
      exact hw.safe
    | .ok slot, ⟨slots, hslots, h⟩ =>
      rw [h]
      exact hw.safe.take hpermits hslots
  | put slot =>
    obtain ⟨hroom, _, taken, hmine, hslot⟩ := hpermits
    dsimp only [step] at h
    rw [if_pos hroom] at h
    rw [h.2]
    exact hw.safe.put hmine hslot
  | factory =>
    match answer, h with
    | .error _, h =>
      rw [h]
      exact hw.safe
    | .ok connection, ⟨hmade, h⟩ =>
      rw [h, hmade]
      exact hw.safe.make hpermits
  | close connection =>
    rw [h]
    exact hw.safe.close hpermits.1 (hw.seen i hpermits.2)
  | waitClosed connection =>
    rw [h]
    exact hw.safe
  | hold connection =>
    obtain ⟨value, h⟩ := h
    rw [h]
    exact hw.safe.hold hpermits value

/-- A pool stays closed, so what a thread has seen stays true. -/
theorem sound_of_step {w w' : Watched ι} (hw : Sound w) (hpermits : permits i w op)
    {answer : op.Answer} (h : (thread i).step w op answer w') : Sound w' := by
  refine ⟨safe_of_step hw hpermits h.1, fun j hj => ?_⟩
  by_cases hsees : sees op answer = true
  · exact flag_of_sees h.1 hsees
  · rw [h.2, if_neg hsees] at hj
    exact PoolClosing.flag_of_step h.1 (hw.seen j hj)

/-! ## One thread among the others -/

def among (i : ι) : World (PoolOps ℕ) (Watched ι) := (thread i).cooperative preempts Sound (own i)

section Thread
variable {κ : Type} {c : κ} {w : Watched ι}

/-- Where a thread stands: its slots, and whether it has seen the pool closed. -/
structure At (i : ι) (entries : List (Option ℕ)) (seen : Bool) (w : Watched ι) : Prop where
  mine : w.pool.taken.filter (·.1 = i) = entries.map (Prod.mk i)
  seen : w.seen i = seen

variable {entries : List (Option ℕ)} {seen : Bool}

theorem At.of_own {w₁ : Watched ι} (h : At i entries seen w) (hown : own i w₁ = own i w) :
    At i entries seen w₁ :=
  ⟨(congrArg (fun part => part.1.1) hown).trans h.mine, (congrArg Prod.snd hown).trans h.seen⟩

theorem At.open_of_own {w₁ : Watched ι} (h : At i [some connection] seen w)
    (hown : own i w₁ = own i w) : w₁.pool.isOpen connection = w.pool.isOpen connection := by
  have hstates : (held i w₁.pool).2 = (held i w.pool).2 := congrArg (fun part => part.1.2) hown
  unfold held at hstates
  rw [(h.of_own hown).mine, h.mine] at hstates
  simpa using hstates

/-- Before any operation other threads may run. -/
theorem among_op {Q : Except Exc op.Answer → κ → Watched ι → Prop} (hw : Sound w)
    (hat : At i entries seen w)
    (hstep : ∀ w₁, Sound w₁ → own i w₁ = own i w → At i entries seen w₁ → permits i w₁ op ∧
      ∀ answer w', step i w₁.pool op answer w'.pool → Sound w' →
        w'.seen i = (sees op answer || seen) → Q (.ok answer) c w') :
    wpm (among i) (Pool.perform op) Q c w := by
  refine (cooperative_await trivial).mpr ⟨hw, fun w₁ hw₁ hown => ?_⟩
  have hat₁ := hat.of_own hown
  obtain ⟨hpermits, hnext⟩ := hstep w₁ hw₁ hown hat₁
  refine ⟨hpermits, fun answer w' h => hnext answer w' h.1 (sound_of_step hw₁ hpermits h) ?_⟩
  rw [h.2]
  split
  next hsees => rw [hsees, Function.update_self, Bool.true_or]
  next hsees =>
    rw [Bool.eq_false_iff.mpr hsees, Bool.false_or]
    exact hat₁.seen

theorem wpm_put (hw : Sound w) (hat : At i [slot] seen w)
    (hslot : slot' = slot ∨ slot' = none ∧ ∀ connection, slot = some connection →
      w.pool.isOpen connection = false) (hseen : slot' ≠ none → seen = false) :
    wpm (among i) (put slot') (fun r _ w' => r = .ok () ∧ Sound w' ∧ At i [] seen w') c w := by
  unfold put
  rw [wpm_bind]
  refine among_op hw hat fun w₁ hw₁ hown hat₁ => ?_
  have hlength := length_taken hat₁.mine
  have hcount := hw₁.safe.count
  have hroom : w₁.pool.slots.length < w₁.pool.size := by omega
  constructor
  · refine ⟨hroom, fun h => hat₁.seen.trans (hseen h), slot, hat₁.mine, ?_⟩
    refine hslot.imp_right fun ⟨hnone, hclosed⟩ => ⟨hnone, fun connection heq => ?_⟩
    rw [heq] at hat
    rw [hat.open_of_own hown]
    exact hclosed connection heq
  · intro room w₂ h hw₂ hseen₂
    dsimp only [step] at h
    rw [if_pos hroom] at h
    rw [h.1]
    refine ⟨rfl, hw₂, ?_, hseen₂⟩
    rw [h.2]
    exact filter_self_without w₁.pool i

theorem wpm_closeOne (hw : Sound w) (hat : At i [some connection] true w) :
    wpm (among i) (closeOne connection)
      (fun r _ w' => r = .ok () ∧ Sound w' ∧ At i [] true w') c w := by
  unfold closeOne
  rw [wpm_bind]
  refine among_op hw hat fun w₁ _ _ hat₁ => ⟨⟨hat₁.mine, hat₁.seen⟩, fun _ w₂ h hw₂ hseen₂ => ?_⟩
  have hat₂ : At i [] true w₂ := by
    refine ⟨?_, hseen₂⟩
    rw [show w₂.pool = _ from h]
    exact filter_self_without w₁.pool i
  refine among_op hw₂ hat₂ fun w₃ _ _ hat₃ => ⟨trivial, fun _ w₄ h hw₄ hseen₄ => ?_⟩
  refine ⟨rfl, hw₄, ?_, hseen₄⟩
  rw [show w₄.pool = _ from h]
  exact hat₃.mine

theorem wpm_acquire (deadline : Deadline) (hw : Sound w) (hat : At i [] false w) :
    wpm (among i) (acquire deadline) (fun r _ w' => Sound w' ∧ match r with
      | .ok connection => At i [some connection] false w'
      | .error _ => ∃ seen, At i [] seen w') () w := by
  unfold acquire
  rw [wpm_bind]
  refine among_op hw hat fun w₁ _ _ hat₁ => ⟨trivial, fun flag w₂ h hw₂ hseen₂ => ?_⟩
  have hmine₂ : w₂.pool.taken.filter (·.1 = i) = [] := h.2 ▸ hat₁.mine
  dsimp only
  rw [wpm_ite]
  split
  · exact ⟨hw₂, _, hmine₂, hseen₂⟩
  next hflag =>
  have hat₂ : At i [] false w₂ := ⟨hmine₂, by simpa [sees, hflag] using hseen₂⟩
  rw [wpm_bind]
  refine among_op hw₂ hat₂ fun w₃ _ _ hat₃ => ⟨hat₃.mine, fun answer w₄ h hw₄ hseen₄ => ?_⟩
  dsimp only
  rw [wpm_bind, wpm_ofExcept]
  match answer, h with
  | .error e, h => exact ⟨hw₄, false, (show w₄.pool = _ from h) ▸ hat₃.mine, hseen₄⟩
  | .ok slot, ⟨slots, hslots, h⟩ =>
    have hat₄ : At i [slot] false w₄ := by
      refine ⟨?_, hseen₄⟩
      rw [h]
      exact filter_self_cons hat₃.mine
    cases slot with
    | some connection => exact ⟨hw₄, hat₄⟩
    | none =>
      dsimp only
      rw [wpm_bind]
      refine among_op hw₄ hat₄ fun w₅ _ _ hat₅ => ⟨hat₅.mine, fun answer w₆ h hw₆ hseen₆ => ?_⟩
      match answer, h with
      | .ok connection, ⟨hmade, h⟩ =>
        refine ⟨hw₆, ?_, hseen₆⟩
        rw [h, hmade]
        exact filter_self_cons (filter_self_without w₅.pool i)
      | .error e, h =>
        have hat₆ : At i [none] false w₆ := ⟨(show w₆.pool = _ from h) ▸ hat₅.mine, hseen₆⟩
        dsimp only
        rw [wpm_bind]
        refine wpm_mono (wpm_put hw₆ hat₆ (Or.inl rfl) fun h => absurd rfl h) ?_
        intro r _ w₇ ⟨hr, hw₇, hat₇⟩
        rw [hr]
        exact ⟨hw₇, false, hat₇⟩

/-- What becomes of the connection is decided by the flag as it was when the thread looked. -/
theorem wpm_release (hw : Sound w) (hat : At i [some connection] false w) :
    wpm (among i) (release connection) (fun r _ w' => r = .ok () ∧ Sound w' ∧
      ∃ seen, At i [] seen w') () w := by
  unfold release
  rw [wpm_bind]
  refine among_op hw hat fun w₁ _ _ hat₁ => ⟨trivial, fun flag w₂ h hw₂ hseen₂ => ?_⟩
  have hmine₂ : w₂.pool.taken.filter (·.1 = i) = [(i, some connection)] := h.2 ▸ hat₁.mine
  dsimp only
  rw [wpm_ite]
  split
  next hflag =>
    have hat₂ : At i [some connection] true w₂ := ⟨hmine₂, by simpa [sees, hflag] using hseen₂⟩
    refine wpm_mono (wpm_closeOne hw₂ hat₂) ?_
    intro r _ w₃ ⟨hr, hw₃, hat₃⟩
    exact ⟨hr, hw₃, true, hat₃⟩
  next hflag =>
    have hat₂ : At i [some connection] false w₂ := ⟨hmine₂, by simpa [sees, hflag] using hseen₂⟩
    rw [wpm_bind]
    refine among_op hw₂ hat₂ fun w₃ _ _ hat₃ => ⟨hat₃.mine, fun closed w₄ h hw₄ hseen₄ => ?_⟩
    obtain ⟨hclosed, hpool₄⟩ := h
    have hat₄ : At i [some connection] false w₄ := ⟨hpool₄ ▸ hat₃.mine, hseen₄⟩
    refine wpm_mono (wpm_put hw₄ hat₄ ?_ fun _ => rfl) ?_
    · cases closed with
      | false => exact Or.inl rfl
      | true =>
        refine Or.inr ⟨rfl, fun connection' heq => ?_⟩
        rw [← Option.some.inj heq, hpool₄]
        simpa using hclosed
    · intro r _ w₅ ⟨hr, hw₅, hat₅⟩
      exact ⟨hr, hw₅, false, hat₅⟩

theorem wpm_withConnection (deadline : Deadline) (hw : Sound w) (hat : At i [] false w) :
    wpm (among i) (withConnection deadline) (fun _ _ w' => Sound w' ∧ ∃ seen, At i [] seen w')
      () w := by
  unfold withConnection
  rw [wpm_bind]
  refine wpm_mono (wpm_acquire deadline hw hat) ?_
  intro r _ w₁ ⟨hw₁, hr⟩
  cases r with
  | error e => exact ⟨hw₁, hr⟩
  | ok connection =>
    dsimp only at hr ⊢
    rw [wpm_bind]
    refine among_op hw₁ hr fun w₂ _ _ hat₂ => ⟨hat₂.mine, fun outcome w₃ h hw₃ hseen₃ => ?_⟩
    obtain ⟨value, h⟩ := h
    have hat₃ : At i [some connection] false w₃ := by
      refine ⟨?_, hseen₃⟩
      rw [h]
      exact hat₂.mine
    dsimp only
    rw [wpm_bind]
    refine wpm_mono (wpm_release hw₃ hat₃) ?_
    intro r _ w₄ ⟨hr, hw₄, hat₄⟩
    rw [hr]
    exact ⟨hw₄, hat₄⟩

theorem wpm_drain (rounds : ℕ) (hw : Sound w) (hat : At i [] true w) :
    wpm (among i) (drain rounds) (fun _ _ w' => Sound w' ∧ At i [] true w') () w := by
  induction rounds generalizing w with
  | zero => exact trivial
  | succ rounds ih =>
    unfold drain
    rw [wpm_bind]
    refine among_op hw hat fun w₁ _ _ hat₁ => ⟨⟨hat₁.mine, hat₁.seen⟩, ?_⟩
    intro answer w₂ h hw₂ hseen₂
    dsimp only [step] at h
    split at h
    · rw [h.1]
      refine ⟨hw₂, ?_, hseen₂⟩
      rw [h.2]
      exact hat₁.mine
    next slots hslots =>
      rw [h.1]
      refine ih hw₂ ⟨?_, hseen₂⟩
      rw [h.2]
      exact hat₁.mine
    next taken slots hslots =>
      have hat₂ : At i [some taken] true w₂ := by
        refine ⟨?_, hseen₂⟩
        rw [h.2]
        exact filter_self_cons hat₁.mine
      rw [h.1]
      dsimp only
      rw [wpm_bind]
      refine wpm_mono (wpm_closeOne hw₂ hat₂) ?_
      intro r _ w₃ hpost
      obtain ⟨hr, hw₃, hat₃⟩ := hpost
      rw [hr]
      exact ih hw₃ hat₃

theorem wpm_close (rounds : ℕ) (hw : Sound w) (hat : At i [] false w) :
    wpm (among i) (Pool.close rounds) (fun _ _ w' => Sound w' ∧ ∃ seen, At i [] seen w') () w := by
  unfold Pool.close
  rw [wpm_bind]
  refine among_op hw hat fun w₁ _ _ hat₁ => ⟨trivial, fun flag w₂ h hw₂ hseen₂ => ?_⟩
  have hat₂ : At i [] (sees .closedFlag flag || false) w₂ := ⟨h.2 ▸ hat₁.mine, hseen₂⟩
  dsimp only
  rw [wpm_ite]
  split
  · exact ⟨hw₂, _, hat₂⟩
  · rw [wpm_bind]
    refine among_op hw₂ hat₂ fun w₃ _ _ hat₃ => ⟨trivial, fun _ w₄ h hw₄ hseen₄ => ?_⟩
    have hat₄ : At i [] true w₄ := by
      refine ⟨?_, hseen₄⟩
      rw [show w₄.pool = _ from h]
      exact hat₃.mine
    refine wpm_mono (wpm_drain rounds hw₄ hat₄) ?_
    intro _ _ w₅ ⟨hw₅, hat₅⟩
    exact ⟨hw₅, true, hat₅⟩

end Thread

/-! ## Every interleaving -/

/-- A thread that has ended holds nothing. -/
def leaves (_ : ι) (_ : Except Exc Unit × Unit)
    (part : (List (ι × Option ℕ) × List (Option Bool)) × Bool) : Prop :=
  part.1.1 = []

theorem keeping_work (work : Work) {w : Watched ι} (hw : Sound w) (hat : At i [] false w) :
    Keeping thread preempts Sound own leaves i work.prog w := by
  cases work with
  | use deadline =>
    refine wp_mono (wpm_withConnection deadline hw hat) ?_
    intro _ w' ⟨hw', _, hat'⟩
    exact ⟨hw', hat'.mine⟩
  | aclose rounds =>
    refine wp_mono (wpm_close rounds hw hat) ?_
    intro _ w' ⟨hw', _, hat'⟩
    exact ⟨hw', hat'.mine⟩

/-- Threads over a fresh or prefilled pool, none of which has begun. -/
def threads (size : ℕ) (prefilled : Bool) (work : ι → Work) (first : ι) :
    Tasks (PoolOps ℕ) ι (Except Exc Unit × Unit) (Watched ι) :=
  ⟨first, fun i => (work i).prog, .start size prefilled, fun _ => false⟩

theorem at_start {w : Watched ι} {size : ℕ} {prefilled : Bool}
    (h : own i w = own i (⟨.start size prefilled, fun _ => false⟩ : Watched ι)) : At i [] false w := by
  have hstart : own i (⟨.start size prefilled, fun _ => false⟩ : Watched ι) = (([], []), false) := by
    cases prefilled <;> rfl
  rw [hstart] at h
  exact ⟨congrArg (fun part => part.1.1) h, congrArg Prod.snd h⟩

omit [DecidableEq ι] in
theorem sound_start (size : ℕ) (prefilled : Bool) :
    Sound (⟨.start size prefilled, fun _ => false⟩ : Watched ι) :=
  ⟨safe_of_inv (inv_start size prefilled), fun _ h => by cases h⟩

section Runs
variable {size : ℕ} {prefilled : Bool} {work : ι → Work} {first : ι}
  {t : Tasks (PoolOps ℕ) ι (Except Exc Unit × Unit) (Watched ι)}

theorem size_of_reaches (h : Tasks.Reaches thread preempts (threads size prefilled work first) t) :
    t.state.pool.size = size := by
  induction h with
  | refl => cases prefilled <;> rfl
  | tail _ hstep ih =>
    cases hstep with
    | op _ hop => exact (size_of_step hop.1).trans ih
    | switch => exact ih

theorem tasks_sound (h : Tasks.Reaches thread preempts (threads size prefilled work first) t) :
    t.Sound thread preempts Sound own leaves := by
  refine Tasks.sound_of_reaches ?_ (sound_start size prefilled) ?_ h
  · intro i j w op answer w' hj hw hpermits hstep
    exact own_of_step hj (hw trivial) hpermits hstep
  · intro i w hw hown
    exact keeping_work (work i) hw (at_start hown)

theorem sound_of_reaches (h : Tasks.Reaches thread preempts (threads size prefilled work first) t) :
    Sound t.state := by
  induction h with
  | refl => exact sound_start size prefilled
  | tail hreaches hstep ih =>
    cases hstep with
    | op hprog hop => exact sound_of_step ih ((tasks_sound hreaches).permits hprog) hop
    | switch i hparked => exact ih

/-- However threads are preempted in a pool, each keeps to what it may do: `put` finds room, and no
connection is used by two. No slot is lost until the pool is closed, the connections in the queue and
with threads are distinct, no other one is open, and a thread that has ended holds none. -/
theorem pool_safe_under_threads (size : ℕ) (prefilled : Bool) (work : ι → Work) (first : ι)
    (t : Tasks (PoolOps ℕ) ι (Except Exc Unit × Unit) (Watched ι))
    (h : Tasks.Reaches thread preempts (threads size prefilled work first) t) :
    (∀ i op k, t.prog i = .call op k → permits i t.state op) ∧
    t.state.pool.slots.length ≤ size ∧
    (t.state.pool.flag = false → t.state.pool.slots.length + t.state.pool.taken.length = size) ∧
    (t.state.pool.queued ++ t.state.pool.held).Nodup ∧
    (∀ connection < t.state.pool.made, t.state.pool.isOpen connection = true →
      connection ∈ t.state.pool.queued ++ t.state.pool.held) ∧
    ∀ i result, t.prog i = .pure result → t.state.pool.taken.filter (·.1 = i) = [] := by
  have hsound := tasks_sound h
  have hnow := sound_of_reaches h
  have hcount := hnow.safe.count
  have hfull := hnow.safe.full
  rw [size_of_reaches h] at hcount hfull
  refine ⟨fun i op k hprog => hsound.permits_of_inv hnow hprog, by omega, hfull, hnow.safe.census.nodup,
    hnow.safe.census.tracked, fun i result hended => ?_⟩
  exact hsound.ended_of_inv hnow hended

end Runs
end Threads

/-- The pool is closed and emptied between the look at the flag and the `put`, and the connection
stays open in its queue. -/
theorem open_in_closed_pool : ∃ t : Tasks (PoolOps ℕ) Bool (Except Exc Unit × Unit) (Watched Bool),
    (∀ i, t.prog i = .pure (.ok (), ())) ∧ t.state.pool.flag = true ∧
      t.state.pool.isOpen 0 = true ∧ 0 ∈ t.state.pool.queued ++ t.state.pool.held := by
  let s₀ : Shared Bool := .start 1 true
  let s₁ : Shared Bool := { s₀ with slots := [], taken := [(true, some 0)] }
  let s₂ : Shared Bool := { s₁ with isOpen := s₁.opened 0 true }
  let s₃ : Shared Bool := { s₂ with flag := true, closer := some false }
  let s₄ : Shared Bool := { s₃ with emptied := true }
  let s₅ : Shared Bool := { s₄ with slots := [some 0], taken := [] }
  let unseen : Bool → Bool := fun _ => false
  let seen : Bool → Bool := Function.update unseen false true
  have hpass : (thread true).step ⟨s₀, unseen⟩ .closedFlag false ⟨s₀, unseen⟩ := ⟨⟨rfl, rfl⟩, rfl⟩
  have htake : (thread true).step ⟨s₀, unseen⟩ (.take ⟨none⟩) (.ok (some 0)) ⟨s₁, unseen⟩ :=
    ⟨⟨[], rfl, rfl⟩, rfl⟩
  have huse : (thread true).step ⟨s₁, unseen⟩ (.hold 0) (.ok ()) ⟨s₂, unseen⟩ := ⟨⟨true, rfl⟩, rfl⟩
  have hlook : (thread true).step ⟨s₂, unseen⟩ .closedFlag false ⟨s₂, unseen⟩ := ⟨⟨rfl, rfl⟩, rfl⟩
  have hopen : (thread false).step ⟨s₂, unseen⟩ .closedFlag false ⟨s₂, unseen⟩ := ⟨⟨rfl, rfl⟩, rfl⟩
  have hclose : (thread false).step ⟨s₂, unseen⟩ .setClosed () ⟨s₃, seen⟩ := ⟨rfl, rfl⟩
  have hempty : (thread false).step ⟨s₃, seen⟩ .getNowait none ⟨s₄, seen⟩ := ⟨⟨rfl, rfl⟩, rfl⟩
  have halive : (thread true).step ⟨s₄, seen⟩ (.closed 0) false ⟨s₄, seen⟩ := ⟨⟨rfl, rfl⟩, rfl⟩
  have hput : (thread true).step ⟨s₄, seen⟩ (.put (some 0)) true ⟨s₅, seen⟩ := ⟨⟨rfl, rfl⟩, rfl⟩
  have hrun : ∃ t, Tasks.Reaches thread preempts (threads 1 true userAndCloser true) t ∧
      (∀ i, t.prog i = .pure (.ok (), ())) ∧ t.state = ⟨s₅, seen⟩ := by
    refine Tasks.exists_head (.op rfl hpass) ?_
    refine Tasks.exists_head (.op rfl htake) ?_
    refine Tasks.exists_head (.op rfl huse) ?_
    refine Tasks.exists_head (.op rfl hlook) ?_
    refine Tasks.exists_head (.switch false trivial) ?_
    -- the other thread closes the pool and finds its queue empty
    refine Tasks.exists_head (.op rfl hopen) ?_
    refine Tasks.exists_head (.op rfl hclose) ?_
    refine Tasks.exists_head (.op rfl hempty) ?_
    refine Tasks.exists_head (.switch true trivial) ?_
    refine Tasks.exists_head (.op rfl halive) ?_
    refine Tasks.exists_head (.op rfl hput) ?_
    refine ⟨_, .refl, fun i => ?_, rfl⟩
    cases i <;> rfl
  obtain ⟨t, ht, hended, hstate⟩ := hrun
  obtain ⟨_, _, _, _, htracked, _⟩ := pool_safe_under_threads 1 true userAndCloser true t ht
  have hmade : 0 < t.state.pool.made := by
    rw [hstate]
    exact Nat.one_pos
  have hconnected : t.state.pool.isOpen 0 = true := by
    rw [hstate]
    rfl
  refine ⟨t, hended, ?_, hconnected, htracked 0 hmade hconnected⟩
  rw [hstate]

end FqClient.ThreadedPool
