import FqClient.PoolSafety

namespace FqClient.PoolClosing

open Effects Pool PoolSafety

variable {ι : Type} [DecidableEq ι]

/-! ## The pool that is closed -/

/-- `_take` times out or is cancelled, and the factory fails in its own ways; the pool alone raises
`PoolClosedError`. -/
def Allowed : (op : PoolOp ℕ) → op.Answer → Prop
  | .take _, .error e => e ≠ .poolClosed
  | .factory, .error e => e ≠ .poolClosed
  | _, _ => True

def pool (i : ι) : World (PoolOps ℕ) (Shared ι) where
  permits := permits
  step s op answer s' := step i s op answer s' ∧ Allowed op answer

abbrev State (ι : Type) := Tasks (PoolOps ℕ) ι (Except Exc Unit × Unit) (Shared ι)

abbrev Run := Prog (PoolOps ℕ) (Except Exc Unit × Unit)

/-- The task is suspended in `acquire`: it waits for a slot, or connects through the factory. -/
def Pending (p : Run) : Prop := (∃ deadline k, p = .call (.take deadline) k) ∨ ∃ k, p = .call .factory k

/-- `acquire` has yielded a connection, which the task holds. -/
def Yielded (p : Run) : Prop := ∃ connection k, p = .call (.hold connection) k

def Refused (p : Run) : Prop := p = .pure (.error .poolClosed, ())

/-- The task has not left `acquire`, or not begun it. -/
def Unfinished (work : ι → Work) (t : State ι) (i : ι) : Prop :=
  Pending (t.prog i) ∨ ∃ deadline, work i = .use deadline ∧ t.prog i = (work i).prog

/-- From here on no `acquire` yields a connection, and each one that is not finished ends with
`PoolClosedError`. -/
structure Final (work : ι → Work) (t : State ι) : Prop where
  yields_none : ∀ t', Tasks.Reaches pool awaits t t' → ∀ i, Yielded (t'.prog i) → Yielded (t.prog i)
  refuses : ∀ i, Unfinished work t i →
    (∃ t', Tasks.Reaches pool awaits t t' ∧ Refused (t'.prog i)) ∧
    ∀ t', Tasks.Reaches pool awaits t t' → ∀ r, t'.prog i = .pure r → Refused (t'.prog i)

/-! ## Where a task is -/

inductive Phase
  /-- Before `acquire` looks at the flag. -/
  | entry
  /-- In `acquire`, past the flag. -/
  | waiting
  | yielded
  | released
  /-- `acquire` has failed, past the flag. -/
  | failed
  | refused
  /-- Before `aclose` looks at the flag. -/
  | closing
  | flagging
  | closed
  deriving DecidableEq

namespace Phase

def next : Phase → (op : PoolOp ℕ) → op.Answer → Phase
  | .entry, .closedFlag, flag => if flag then .refused else .waiting
  | .waiting, .take _, .error _ => .failed
  | .waiting, .take _, .ok none => .waiting
  | .waiting, .take _, .ok (some _) => .yielded
  | .waiting, .factory, .error _ => .failed
  | .waiting, .factory, .ok _ => .yielded
  | .yielded, .hold _, _ => .released
  | .closing, .closedFlag, flag => if flag then .closed else .flagging
  | .flagging, .setClosed, _ => .closed
  | phase, _, _ => phase

def permits : Phase → PoolOp ℕ → Prop
  | .entry, .closedFlag => True
  | .waiting, .take _ | .waiting, .factory => True
  | .yielded, .hold _ => True
  | .released, .closedFlag | .released, .closed _ | .released, .put _ | .released, .close _
  | .released, .waitClosed _ => True
  | .failed, .put _ => True
  | .closing, .closedFlag => True
  | .flagging, .setClosed => True
  | .closed, .getNowait | .closed, .close _ | .closed, .waitClosed _ => True
  | _, _ => False

/-- A phase of `aclose`. -/
def ofClose : Phase → Prop
  | .closing | .flagging | .closed => True
  | _ => False

/-- How a task may end in a phase. -/
def Ends (r : Except Exc Unit × Unit) : Phase → Prop
  | .refused => r.1 = .error .poolClosed
  | .failed => r.1 ≠ .error .poolClosed
  | .released | .closed => True
  | _ => False

end Phase

def Closes : Work → Prop
  | .use _ => False
  | .aclose _ => True

/-- Follows the phases of a task; only `aclose` may be cut short. -/
def phases (work : Work) : World (PoolOps ℕ) Phase where
  permits := Phase.permits
  step phase op answer phase' := Allowed op answer ∧ phase' = phase.next op answer
  halts := Closes work

section Phases
variable {work : Work} {κ : Type} {c : κ} {x : Phase}

theorem phases_perform {op : PoolOp ℕ} {Q : Except Exc op.Answer → κ → Phase → Prop} :
    wpm (phases work) (Pool.perform op) Q c x ↔
      x.permits op ∧ ∀ answer, Allowed op answer → Q (.ok answer) c (x.next op answer) := by
  rw [Pool.wpm_perform_op]
  constructor
  · exact fun ⟨hop, h⟩ => ⟨hop, fun answer ha => h answer _ ⟨ha, rfl⟩⟩
  · exact fun ⟨hop, h⟩ => ⟨hop, fun answer x' ⟨ha, hx'⟩ => by
      rw [hx']
      exact h answer ha⟩

theorem phases_put {slot : Option ℕ} (hx : x.permits (.put slot))
    (hsame : ∀ room, x.next (.put slot) room = x) :
    wpm (phases work) (Pool.put slot) (fun r _ x' => x' = x ∧ r ≠ .error .poolClosed) c x := by
  unfold Pool.put
  rw [wpm_bind, phases_perform]
  refine ⟨hx, fun room _ => ?_⟩
  rw [hsame]
  cases room
  · exact ⟨rfl, by simp⟩
  · exact ⟨rfl, by simp⟩

theorem phases_closeOne {connection : ℕ}
    (hclose : x.permits (.close connection) ∧ x.permits (.waitClosed connection))
    (hsame : x.next (.close connection) () = x ∧ x.next (.waitClosed connection) () = x) :
    wpm (phases work) (closeOne connection) (fun _ _ x' => x' = x) c x := by
  unfold closeOne
  rw [wpm_bind, phases_perform]
  refine ⟨hclose.1, fun _ _ => ?_⟩
  dsimp only
  rw [hsame.1, phases_perform]
  exact ⟨hclose.2, fun _ _ => hsame.2⟩

theorem phases_acquire (deadline : Deadline) :
    wpm (phases work) (acquire deadline) (fun r _ x' => match r with
    | .ok _ => x' = .yielded
    | .error e => e = .poolClosed ∧ x' = .refused ∨ e ≠ .poolClosed ∧ x' = .failed) () .entry := by
  unfold acquire
  rw [wpm_bind, phases_perform]
  refine ⟨trivial, fun flag _ => ?_⟩
  cases flag with
  | true => exact Or.inl ⟨rfl, rfl⟩
  | false =>
    dsimp only
    rw [if_neg Bool.false_ne_true, wpm_bind, phases_perform]
    refine ⟨trivial, fun answer hanswer => ?_⟩
    dsimp only
    rw [wpm_bind, wpm_ofExcept]
    match answer, hanswer with
    | .error e, hanswer => exact Or.inr ⟨hanswer, rfl⟩
    | .ok (some connection), _ => rfl
    | .ok none, _ =>
      dsimp only
      rw [wpm_bind, phases_perform]
      refine ⟨trivial, fun answer hanswer => ?_⟩
      match answer, hanswer with
      | .ok connection, _ => rfl
      | .error e, hanswer =>
        change wpm (phases work) (Pool.put none >>= fun _ => throw e) _ () .failed
        rw [wpm_bind]
        refine wpm_mono (phases_put trivial fun _ => rfl) ?_
        intro r _ x' ⟨hx', hr⟩
        rw [hx']
        cases r with
        | ok _ => exact Or.inr ⟨hanswer, rfl⟩
        | error e' => exact Or.inr ⟨fun h => hr (congrArg Except.error h), rfl⟩

theorem phases_release (connection : ℕ) :
    wpm (phases work) (release connection) (fun _ _ x' => x' = .released) () .released := by
  unfold release
  rw [wpm_bind, phases_perform]
  refine ⟨trivial, fun flag _ => ?_⟩
  cases flag with
  | true => exact phases_closeOne ⟨trivial, trivial⟩ ⟨rfl, rfl⟩
  | false =>
    change wpm (phases work) (Pool.perform (.closed connection) >>= fun closed =>
      Pool.put (if closed then none else some connection)) _ () .released
    rw [wpm_bind, phases_perform]
    refine ⟨trivial, fun closed _ => ?_⟩
    refine wpm_mono (phases_put trivial fun _ => rfl) ?_
    exact fun _ _ _ h => h.1

theorem phases_withConnection (deadline : Deadline) :
    wpm (phases work) (withConnection deadline) (fun r _ x' => Phase.Ends (r, ()) x') () .entry := by
  unfold withConnection
  rw [wpm_bind]
  refine wpm_mono (phases_acquire deadline) ?_
  intro r _ x hr
  cases r with
  | error e =>
    rcases hr with ⟨rfl, rfl⟩ | ⟨he, rfl⟩
    · rfl
    · exact fun h => he (Except.error.inj h)
  | ok connection =>
    dsimp only at hr ⊢
    rw [hr, wpm_bind, phases_perform]
    refine ⟨trivial, fun outcome _ => ?_⟩
    change wpm (phases work) (release connection >>= fun _ => Method.ofExcept outcome) _ () .released
    rw [wpm_bind]
    refine wpm_mono (phases_release connection) ?_
    intro r _ x' hx'
    rw [hx']
    cases r <;> trivial

theorem phases_drain (hwork : Closes work) (rounds : ℕ) :
    wpm (phases work) (drain rounds) (fun _ _ x' => x' = .closed) () .closed := by
  induction rounds with
  | zero => exact hwork
  | succ rounds ih =>
    unfold drain
    rw [wpm_bind, phases_perform]
    refine ⟨trivial, fun answer _ => ?_⟩
    rcases answer with _ | _ | connection
    · rfl
    · exact ih
    · change wpm (phases work) (closeOne connection >>= fun _ => drain rounds) _ () .closed
      rw [wpm_bind]
      refine wpm_mono (phases_closeOne ⟨trivial, trivial⟩ ⟨rfl, rfl⟩) ?_
      intro r _ x' hx'
      rw [hx']
      cases r with
      | ok _ => exact ih
      | error e => rfl

theorem phases_close (hwork : Closes work) (rounds : ℕ) :
    wpm (phases work) (Pool.close rounds) (fun _ _ x' => x' = .closed) () .closing := by
  unfold Pool.close
  rw [wpm_bind, phases_perform]
  refine ⟨trivial, fun flag _ => ?_⟩
  cases flag with
  | true => rfl
  | false =>
    change wpm (phases work) (Pool.perform .setClosed >>= fun _ => drain rounds) _ () .flagging
    rw [wpm_bind, phases_perform]
    exact ⟨trivial, fun _ _ => phases_drain hwork rounds⟩

end Phases

def Work.start : Work → Phase
  | .use _ => .entry
  | .aclose _ => .closing

theorem phases_work (work : Work) :
    wp (phases work) work.prog Phase.Ends (Work.start work) := by
  cases work with
  | use deadline => exact phases_withConnection deadline
  | aclose rounds =>
    have hcloses : Closes (.aclose rounds) := trivial
    refine wp_mono (phases_close hcloses rounds) ?_
    intro r x hx
    rw [hx]
    trivial

/-! ## Every interleaving -/

/-- The task is in this phase. A task that is past the flag of `aclose` finds the pool closed. -/
structure At (work : Work) (p : Run) (s : Shared ι) (x : Phase) : Prop where
  follows : wp (phases work) p Phase.Ends x
  kind : x.ofClose ↔ Closes work
  flagged : x = .closed → s.flag = true

omit [DecidableEq ι] in
theorem At.pending {work : Work} {p : Run} {s : Shared ι} (h : At work p s .waiting) : Pending p := by
  cases p with
  | pure r => exact h.follows.elim
  | call op k =>
    cases op with
    | take deadline => exact Or.inl ⟨deadline, k, rfl⟩
    | factory => exact Or.inr ⟨k, rfl⟩
    | _ => exact h.follows.1.elim
  | halt => exact (h.kind.mpr h.follows).elim

omit [DecidableEq ι] in
theorem At.yielded {work : Work} {p : Run} {s : Shared ι} (h : At work p s .yielded) : Yielded p := by
  cases p with
  | pure r => exact h.follows.elim
  | call op k =>
    cases op with
    | hold connection => exact ⟨connection, k, rfl⟩
    | _ => exact h.follows.1.elim
  | halt => exact (h.kind.mpr h.follows).elim

theorem waiting_of_pending {work : Work} {p : Run} {x : Phase} (h : wp (phases work) p Phase.Ends x)
    (hp : Pending p) : x = .waiting := by
  rcases hp with ⟨deadline, k, rfl⟩ | ⟨k, rfl⟩
  · cases x <;> first | rfl | exact h.1.elim
  · cases x <;> first | rfl | exact h.1.elim

theorem yielded_of_holding {work : Work} {p : Run} {x : Phase} (h : wp (phases work) p Phase.Ends x)
    (hp : Yielded p) : x = .yielded := by
  obtain ⟨connection, k, rfl⟩ := hp
  cases x <;> first | rfl | exact h.1.elim

omit [DecidableEq ι] in
theorem at_start (work : Work) (s : Shared ι) : At work work.prog s (Work.start work) where
  follows := phases_work work
  kind := by cases work <;> exact Iff.rfl
  flagged h := by cases work <;> cases h

theorem flag_of_step {i : ι} {s s' : Shared ι} {op : PoolOp ℕ} {answer : op.Answer}
    (h : step i s op answer s') (hflag : s.flag = true) : s'.flag = true := by
  cases op with
  | closedFlag | closed => rw [h.2, hflag]
  | setClosed => rw [h]
  | close | waitClosed =>
    rw [h]
    exact hflag
  | getNowait =>
    dsimp only [step] at h
    split at h <;> rw [h.2] <;> exact hflag
  | take deadline =>
    match answer, h with
    | .error _, h => rw [h, hflag]
    | .ok slot, ⟨slots, _, h⟩ =>
      rw [h]
      exact hflag
  | put slot =>
    dsimp only [step] at h
    split at h <;> rw [h.2] <;> exact hflag
  | factory =>
    match answer, h with
    | .error _, h => rw [h, hflag]
    | .ok connection, ⟨_, h⟩ =>
      rw [h]
      exact hflag
  | hold connection =>
    obtain ⟨value, h⟩ := h
    rw [h]
    exact hflag

/-- A pool stays closed. -/
theorem flag_of_reaches {t t' : State ι} (h : Tasks.Reaches pool awaits t t')
    (hflag : t.state.flag = true) :
    t'.state.flag = true := by
  induction h with
  | refl => exact hflag
  | tail _ hstep ih =>
    cases hstep with
    | op _ hop => exact flag_of_step hop.1 ih
    | switch => exact ih

theorem ofClose_next (x : Phase) (op : PoolOp ℕ) (answer : op.Answer) :
    (x.next op answer).ofClose ↔ x.ofClose := by
  unfold Phase.next
  split
  · split <;> exact Iff.rfl
  all_goals first | exact Iff.rfl | (split <;> exact Iff.rfl)

/-- Past the flag of `aclose`, the pool is closed. -/
theorem flag_of_next {i : ι} {s s' : Shared ι} {x : Phase} {op : PoolOp ℕ} {answer : op.Answer}
    (hx : x = .closed → s.flag = true) (h : step i s op answer s')
    (hnext : x.next op answer = .closed) : s'.flag = true := by
  cases x with
  | closed => exact flag_of_step h (hx rfl)
  | closing =>
    cases op with
    | closedFlag =>
      obtain ⟨hflag, rfl⟩ := h
      cases answer with
      | true => exact hflag.symm
      | false => cases hnext
    | _ => cases hnext
  | flagging =>
    cases op with
    | setClosed => rw [h]
    | _ => cases hnext
  | entry =>
    cases op with
    | closedFlag => cases answer <;> cases hnext
    | _ => cases hnext
  | waiting =>
    cases op with
    | take deadline =>
      match answer with
      | .error _ => cases hnext
      | .ok none => cases hnext
      | .ok (some _) => cases hnext
    | factory => cases answer <;> cases hnext
    | _ => cases hnext
  | _ => cases op <;> cases hnext

theorem At.own {work : Work} {s s' : Shared ι} {x : Phase} {op : PoolOp ℕ} {k : op.Answer → Run}
    {answer : op.Answer} {i : ι} (h : At work (.call op k) s x) (hstep : (pool i).step s op answer s') :
    At work (k answer) s' (x.next op answer) where
  follows := h.follows.2 answer _ ⟨hstep.2, rfl⟩
  kind := by
    rw [← h.kind]
    exact ofClose_next x op answer
  flagged := flag_of_next h.flagged hstep.1

theorem At.step {work : Work} {t t' : State ι} {i : ι} {x : Phase} (h : At work (t.prog i) t.state x)
    (hstep : Tasks.Step pool awaits t t') :
    At work (t'.prog i) t'.state x ∨
      ∃ op answer, x.permits op ∧ At work (t'.prog i) t'.state (x.next op answer) := by
  rcases hstep.same_or_own i with hsame | ⟨op, k, answer, hprog, hnext, hown⟩
  · left
    refine ⟨?_, h.kind, fun hx => flag_of_reaches (.single hstep) (h.flagged hx)⟩
    rw [hsame]
    exact h.follows
  · right
    rw [hprog] at h
    rw [hnext]
    exact ⟨op, answer, h.follows.1, h.own hown⟩

theorem at_of_reaches {size : ℕ} {prefilled : Bool} {work : ι → Work} {first : ι} {t : State ι}
    (h : Tasks.Reaches pool awaits (tasks size prefilled work first) t) (i : ι) :
    ∃ x, At (work i) (t.prog i) t.state x := by
  induction h with
  | refl => exact ⟨_, at_start (work i) _⟩
  | tail _ hstep ih =>
    obtain ⟨x, hx⟩ := ih
    rcases hx.step hstep with hsame | ⟨op, answer, _, hnext⟩
    · exact ⟨x, hsame⟩
    · exact ⟨_, hnext⟩

/-! ## A pool that has been closed -/

/-- Since the pool was closed at `t`, the task is not past the flag of `acquire`, unless it held a connection
then; and if it had not begun, it is refused. -/
structure Settled (work : ι → Work) (t : State ι) (i : ι) (p : Run) (x : Phase) : Prop where
  follows : wp (phases (work i)) p Phase.Ends x
  not_waiting : x ≠ .waiting
  yielded : x = .yielded → Yielded (t.prog i)
  unfinished : Unfinished work t i → x = .entry ∨ x = .refused

theorem waiting_of_next {x : Phase} {op : PoolOp ℕ} {answer : op.Answer}
    (h : x.next op answer = .waiting) : x = .waiting ∨ x = .entry := by
  unfold Phase.next at h
  split at h
  · exact Or.inr rfl
  all_goals first | exact Or.inl h | (split at h <;> cases h) | exact Or.inl rfl | cases h

theorem yielded_of_next {x : Phase} {op : PoolOp ℕ} {answer : op.Answer}
    (h : x.next op answer = .yielded) : x = .yielded ∨ x = .waiting := by
  unfold Phase.next at h
  split at h
  all_goals first | exact Or.inl h | (split at h <;> cases h) | exact Or.inr rfl | cases h

omit [DecidableEq ι] in
theorem settled_now {work : ι → Work} {t : State ι} {i : ι} (hnone : ¬ Pending (t.prog i))
    (h : ∃ x, At (work i) (t.prog i) t.state x) : ∃ x, Settled work t i (t.prog i) x := by
  by_cases hbegun : ∃ deadline, work i = .use deadline ∧ t.prog i = (work i).prog
  · obtain ⟨deadline, hwork, hprog⟩ := hbegun
    refine ⟨.entry, ?_, by decide, (by cases ·), fun _ => Or.inl rfl⟩
    rw [hprog, hwork]
    exact phases_work (.use deadline)
  · obtain ⟨x, hx⟩ := h
    refine ⟨x, hx.follows, ?_, ?_, fun hunfinished => ?_⟩
    · rintro rfl
      exact hnone hx.pending
    · rintro rfl
      exact hx.yielded
    · exact absurd (hunfinished.resolve_left hnone) hbegun

theorem Settled.own {work : ι → Work} {t : State ι} {i : ι} {x : Phase} {op : PoolOp ℕ}
    {k : op.Answer → Run} {answer : op.Answer} {s s' : Shared ι} (h : Settled work t i (.call op k) x)
    (hflag : s.flag = true) (hstep : (pool i).step s op answer s') :
    Settled work t i (k answer) (x.next op answer) := by
  have hfollows := h.follows.2 answer _ ⟨hstep.2, rfl⟩
  -- the flag refuses a task that comes to it now
  have hentry : x = .entry → x.next op answer = .refused := by
    rintro rfl
    cases op with
    | closedFlag =>
      rw [hstep.1.1, hflag]
      rfl
    | _ => exact h.follows.1.elim
  refine ⟨hfollows, fun hx => ?_, fun hx => ?_, fun hunfinished => ?_⟩
  · rcases waiting_of_next hx with hwaiting | hbegun
    · exact h.not_waiting hwaiting
    · rw [hentry hbegun] at hx
      cases hx
  · exact h.yielded ((yielded_of_next hx).resolve_right h.not_waiting)
  · rcases h.unfinished hunfinished with hbegun | hrefused
    · exact Or.inr (hentry hbegun)
    · have hnone := h.follows.1
      rw [hrefused] at hnone
      exact hnone.elim

theorem settled_of_reaches {work : ι → Work} {t t' : State ι} {i : ι} (hflag : t.state.flag = true)
    (hnow : ∃ x, Settled work t i (t.prog i) x) (h : Tasks.Reaches pool awaits t t') :
    ∃ x, Settled work t i (t'.prog i) x := by
  induction h with
  | refl => exact hnow
  | @tail u u' hreach hstep ih =>
    obtain ⟨x, hx⟩ := ih
    rcases hstep.same_or_own i with hsame | ⟨op, k, answer, hprog, hnext, hown⟩
    · rw [hsame]
      exact ⟨x, hx⟩
    · rw [hprog] at hx
      rw [hnext]
      exact ⟨_, hx.own (flag_of_reaches hreach hflag) hown⟩

/-- A task that has not begun, and comes to a closed pool. -/
theorem refuses_next {t : State ι} {deadline : Deadline} {i : ι}
    (hparked : Parked awaits (t.prog t.running))
    (hprog : t.prog i = (Work.use deadline).prog) (hflag : t.state.flag = true) :
    ∃ t', Tasks.Reaches pool awaits t t' ∧ Refused (t'.prog i) := by
  refine Tasks.exists_head (.switch i hparked) ?_
  have hstep : (pool i).step t.state .closedFlag true t.state := ⟨⟨hflag.symm, rfl⟩, trivial⟩
  refine Tasks.exists_head (.op hprog hstep) ?_
  exact ⟨_, .refl, Function.update_self _ _ _⟩

/-! ## A task that is still in `acquire` -/

theorem next_of_waiting {x : Phase} {op : PoolOp ℕ} (hx : x = .waiting ∨ x = .failed)
    (hop : x.permits op)
    (answer : op.Answer) :
    x.next op answer = .waiting ∨ x.next op answer = .yielded ∨ x.next op answer = .failed := by
  rcases hx with rfl | rfl
  · cases op with
    | take deadline =>
      match answer with
      | .error _ => exact Or.inr (Or.inr rfl)
      | .ok none => exact Or.inl rfl
      | .ok (some _) => exact Or.inr (Or.inl rfl)
    | factory =>
      cases answer with
      | error e => exact Or.inr (Or.inr rfl)
      | ok connection => exact Or.inr (Or.inl rfl)
    | _ => exact hop.elim
  · cases op with
    | put slot => exact Or.inr (Or.inr rfl)
    | _ => exact hop.elim

/-- A task that waits when the pool has been closed is never refused: it yields a connection, or fails in
another way. -/
theorem yields_or_fails {work : Work} {t t' : State ι} {i : ι}
    (hwaiting : At work (t.prog i) t.state .waiting)
    (h : Tasks.Reaches pool awaits t t') :
    (∃ u, Tasks.Reaches pool awaits t u ∧ Yielded (u.prog i)) ∨
      ∃ x, (x = .waiting ∨ x = .failed) ∧ At work (t'.prog i) t'.state x := by
  induction h with
  | refl => exact Or.inr ⟨_, Or.inl rfl, hwaiting⟩
  | @tail u u' hreach hstep ih =>
    rcases ih with hyields | ⟨x, hx, hat⟩
    · exact Or.inl hyields
    rcases hat.step hstep with hsame | ⟨op, answer, hop, hnext⟩
    · exact Or.inr ⟨x, hx, hsame⟩
    · rcases next_of_waiting hx hop answer with hwaits | hyields | hfails
      · exact Or.inr ⟨_, Or.inl hwaits, hnext⟩
      · rw [hyields] at hnext
        exact Or.inl ⟨u', hreach.tail hstep, hnext.yielded⟩
      · exact Or.inr ⟨_, Or.inr hfails, hnext⟩

/-- When `aclose` returns, closing is final exactly when no task is suspended in `acquire`. -/
theorem closing_final_iff (size : ℕ) (prefilled : Bool) (work : ι → Work) (first : ι) {t : State ι}
    (h : Tasks.Reaches pool awaits (tasks size prefilled work first) t) {rounds : ℕ}
    (hwork : work t.running = .aclose rounds) {r : Except Exc Unit × Unit}
    (hreturned : t.prog t.running = .pure r) : Final work t ↔ ∀ i, ¬ Pending (t.prog i) := by
  have hparked : Parked awaits (t.prog t.running) := by
    rw [hreturned]
    trivial
  have hflag : t.state.flag = true := by
    obtain ⟨x, hx⟩ := at_of_reaches h t.running
    have hkind := hx.kind
    have hends := hx.follows
    rw [hwork] at hkind
    rw [hreturned] at hends
    cases x with
    | closed => exact hx.flagged rfl
    | closing | flagging => exact hends.elim
    | _ => exact (hkind.mpr trivial).elim
  constructor
  · intro hfinal i hpending
    obtain ⟨t', ht', hrefused⟩ := (hfinal.refuses i (Or.inl hpending)).1
    obtain ⟨x, hx⟩ := at_of_reaches h i
    obtain rfl := waiting_of_pending hx.follows hpending
    -- the task may go either way from here, and a closed pool that is final lets it yield no more
    rcases yields_or_fails hx ht' with ⟨u, hu, hyields⟩ | ⟨x, hphase, hat⟩
    · have := yielded_of_holding hx.follows (hfinal.yields_none u hu i hyields)
      cases this
    · have hends := hat.follows
      rw [hrefused] at hends
      rcases hphase with rfl | rfl
      · exact hends.elim
      · exact hends rfl
  · intro hnone
    have hsettled : ∀ i t', Tasks.Reaches pool awaits t t' → ∃ x, Settled work t i (t'.prog i) x := by
      intro i t' ht'
      exact settled_of_reaches hflag (settled_now (hnone i) (at_of_reaches h i)) ht'
    constructor
    · intro t' ht' i hyields
      obtain ⟨x, hx⟩ := hsettled i t' ht'
      exact hx.yielded (yielded_of_holding hx.follows hyields)
    · intro i hunfinished
      constructor
      · obtain ⟨deadline, huse, hprog⟩ := hunfinished.resolve_left (hnone i)
        rw [huse] at hprog
        exact refuses_next hparked hprog hflag
      · intro t' ht' r' hended
        obtain ⟨x, hx⟩ := hsettled i t' ht'
        have hends := hx.follows
        rw [hended] at hends ⊢
        rcases hx.unfinished hunfinished with rfl | rfl
        · exact hends.elim
        · obtain ⟨outcome, _⟩ := r'
          exact congrArg (fun e => Prog.pure (e, ())) hends

/-! ## A task that connects while the pool is closed -/

/-- The factory gives the user its connection after `aclose` has returned. -/
theorem connects_after_close : ∃ t : State Bool,
    Tasks.Reaches pool awaits (tasks 1 false userAndCloser true) t ∧
      t.running = false ∧ t.prog false = .pure (.ok (), ()) ∧ Pending (t.prog true) ∧
      ∃ t', Tasks.Reaches pool awaits t t' ∧ Yielded (t'.prog true) := by
  let s₀ : Shared Bool := .start 1 false
  let s₁ : Shared Bool := { s₀ with slots := [], taken := [(true, none)] }
  let s₂ : Shared Bool := { s₁ with flag := true, closer := some false }
  let s₃ : Shared Bool := { s₂ with emptied := true }
  let s₄ : Shared Bool := { s₃ with made := 1, isOpen := s₃.opened 0 true, taken := [(true, some 0)] }
  have hpass : (pool true).step s₀ .closedFlag false s₀ := ⟨⟨rfl, rfl⟩, trivial⟩
  have htake : (pool true).step s₀ (.take ⟨none⟩) (.ok none) s₁ := ⟨⟨[], rfl, rfl⟩, trivial⟩
  have hopen : (pool false).step s₁ .closedFlag false s₁ := ⟨⟨rfl, rfl⟩, trivial⟩
  have hclose : (pool false).step s₁ .setClosed () s₂ := ⟨rfl, trivial⟩
  have hempty : (pool false).step s₂ .getNowait none s₃ := ⟨⟨rfl, rfl⟩, trivial⟩
  have hconnect : (pool true).step s₃ .factory (.ok 0) s₄ := ⟨⟨rfl, rfl⟩, trivial⟩
  -- the user passes the flag and waits for the factory
  refine Tasks.exists_head (.op rfl hpass) ?_
  refine Tasks.exists_head (.op rfl htake) ?_
  refine Tasks.exists_head (.switch false trivial) ?_
  -- the pool is closed and emptied
  refine Tasks.exists_head (.op rfl hopen) ?_
  refine Tasks.exists_head (.op rfl hclose) ?_
  refine Tasks.exists_head (.op rfl hempty) ?_
  refine ⟨_, .refl, rfl, rfl, Or.inr ⟨_, rfl⟩, ?_⟩
  refine Tasks.exists_head (.switch true trivial) ?_
  refine Tasks.exists_head (.op rfl hconnect) ?_
  exact ⟨_, .refl, 0, _, rfl⟩

theorem connecting_not_final : ∃ t : State Bool, Final userAndCloser t ↔ ∀ i, ¬ Pending (t.prog i) := by
  obtain ⟨t, ht, hrunning, hreturned, _⟩ := connects_after_close
  have hwork : userAndCloser t.running = .aclose 2 := by
    rw [hrunning]
    rfl
  have hreturned : t.prog t.running = .pure (.ok (), ()) := by
    rw [hrunning]
    exact hreturned
  exact ⟨t, closing_final_iff 1 false userAndCloser true ht hwork hreturned⟩

theorem closing_not_final : ¬ ∀ (size : ℕ) (prefilled : Bool) (work : Bool → Work) (first : Bool) (t : State Bool),
    Tasks.Reaches pool awaits (tasks size prefilled work first) t →
    (∃ rounds, work t.running = .aclose rounds) → (∃ r, t.prog t.running = .pure r) → Final work t := by
  intro h
  obtain ⟨t, ht, hrunning, hreturned, hpending, t', ht', hyields⟩ := connects_after_close
  have hfinal : Final userAndCloser t := by
    apply h 1 false userAndCloser true t ht
    · rw [hrunning]
      exact ⟨2, rfl⟩
    · rw [hrunning]
      exact ⟨_, hreturned⟩
  obtain ⟨connection, k, hprog⟩ := hfinal.yields_none t' ht' true hyields
  rw [hprog] at hpending
  rcases hpending with ⟨deadline, k, h⟩ | ⟨k, h⟩ <;> cases h

end FqClient.PoolClosing
