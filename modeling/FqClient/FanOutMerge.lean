import FqClient.Effects.Tasks
import FqClient.FanOut

namespace FqClient.FanOutMerge

open Effects FanOut

variable {ι T : Type} [DecidableEq ι]

/-! ## Tagged lists -/

/-- What comes from `i`, in order. -/
def ofShard {α : Type} (i : ι) (tagged : List (ι × α)) : List α :=
  (tagged.filter (·.1 = i)).map Prod.snd

section OfShard
variable {α : Type} {i j : ι}

@[simp] theorem ofShard_append (l l' : List (ι × α)) :
    ofShard i (l ++ l') = ofShard i l ++ ofShard i l' := by
  simp [ofShard]

@[simp] theorem ofShard_self (a : α) : ofShard i [(i, a)] = [a] := by
  simp [ofShard]

theorem ofShard_other (h : j ≠ i) (a : α) : ofShard i [(j, a)] = [] := by
  simp [ofShard, h]

theorem mem_ofShard {a : α} {l : List (ι × α)} (h : (i, a) ∈ l) : a ∈ ofShard i l :=
  List.mem_map.mpr ⟨(i, a), List.mem_filter.mpr ⟨h, decide_eq_true rfl⟩, rfl⟩

theorem ofShard_initial {l l' : List (ι × α)} (h : l <+: l') : ofShard i l <+: ofShard i l' := by
  obtain ⟨rest, rfl⟩ := h
  rw [ofShard_append]
  exact List.prefix_append _ _

theorem ofShard_map {β : Type} (f : α → β) (l : List (ι × α)) :
    ofShard i (l.map (Prod.map id f)) = (ofShard i l).map f := by
  unfold ofShard
  rw [List.filter_map, List.map_map, List.map_map]
  rfl

end OfShard

/-! ## A fan-out -/

/-- The item of an event. -/
def eventItem (event : T) : FanItem T := (some event, none)

/-- The item of an error. -/
def errorItem (e : Exc) : FanItem T := (none, some e)

/-- The queue, the stop event and the workers that were started. What only the proof keeps: the
items the generator took from the queue, each with the shard of the worker that put it, the events
that each stream has produced and the error that ended it, the events that were yielded, and whether
the generator was closed or its task cancelled. -/
structure Fan (ι T : Type) where
  queue : List (ι × FanItem T) := []
  stop : Bool := false
  started : List ι := []
  popped : List (ι × FanItem T) := []
  produced : ι → List T := fun _ => []
  failed : ι → Option Exc := fun _ => none
  yielded : List (ι × T) := []
  closed : Bool := false

/-- The items of yielded events. -/
def items (yielded : List (ι × T)) : List (ι × FanItem T) := yielded.map (Prod.map id eventItem)

namespace Fan

variable (s : Fan ι T)

/-- What the workers have put into the queue. -/
def sent : List (ι × FanItem T) := s.popped ++ s.queue

/-- All that worker `i` has to put into the queue so far. -/
def history (i : ι) : List (FanItem T) :=
  (s.produced i).map eventItem ++ ((s.failed i).map errorItem).toList

/-- An event belongs to the shard of the last item that was taken. -/
def attributed (event : T) : List (ι × T) := (s.popped.getLast?.map fun item => (item.1, event)).toList

end Fan

/-- What the operations of the generator do. -/
def mergerStep (s : Fan ι T) : (op : FanOp ι T) → op.Answer → Fan ι T → Prop
  | .start shard, _, s' => s' = { s with started := shard :: s.started }
  | .get, item, s' | .awaitGet, .ok item, s' => ∃ i queue, s.queue = (i, item) :: queue ∧
      s' = { s with queue := queue, popped := s.popped ++ [(i, item)] }
  | .awaitGet, .error _, s' | .gather, .error _, s' => s' = { s with closed := true }
  | .yieldEvent event, answer, s' => s' = { s with
      yielded := s.yielded ++ s.attributed event, closed := s.closed || decide (answer = .close) }
  | .setStop, _, s' => s' = { s with stop := true }
  | .join _, _, s' | .cancel _, _, s' | .gather, .ok _, s' => s' = s
  | .next, _, _ | .put _, _, _ | .stopIsSet, _, _ => False

/-- Only the event of the item that was taken last may be yielded. -/
def mergerPermits (s : Fan ι T) : FanOp ι T → Prop
  | .yieldEvent event => ∃ i, s.popped = items s.yielded ++ [(i, eventItem event)]
  | .next | .put _ | .stopIsSet => False
  | _ => True

/-- What the operations of worker `i` do, once it is started. Its stream may produce any event or
error. -/
def workerStep (i : ι) (s : Fan ι T) : (op : FanOp ι T) → op.Answer → Fan ι T → Prop
  | .next, .ok (some event), s' => i ∈ s.started ∧
      s' = { s with produced := Function.update s.produced i (s.produced i ++ [event]) }
  | .next, .ok none, s' => i ∈ s.started ∧ s' = s
  | .next, .error e, s' => i ∈ s.started ∧
      s' = { s with failed := Function.update s.failed i (some e) }
  | .put item, _, s' => i ∈ s.started ∧ s' = { s with queue := s.queue ++ [(i, item)] }
  | .stopIsSet, flag, s' => i ∈ s.started ∧ flag = s.stop ∧ s' = s
  | _, _, _ => False

/-- Nothing may be put but what the stream has produced. -/
def workerPermits (i : ι) (s : Fan ι T) : FanOp ι T → Prop
  | .next => s.failed i = none
  | .put item => ofShard i s.sent ++ [item] <+: s.history i
  | .stopIsSet => True
  | _ => False

/-- The generator is the task without a shard. -/
def env : Option ι → World (FanOps ι T) (Fan ι T)
  | none => { permits := mergerPermits, step := mergerStep }
  | some i => { permits := workerPermits i, step := workerStep i }

/-! ## The invariant -/

/-- The queue passes on what each stream has produced, in its order, and the events among what was
taken from it are yielded. -/
structure Inv (s : Fan ι T) : Prop where
  ordered : ∀ i, ofShard i s.sent <+: s.history i
  merged : items s.yielded <+: s.popped

/-- What only the generator, or only a worker, changes. -/
def own (t : Option ι) (s : Fan ι T) :
    (List (ι × FanItem T) × List (ι × T) × Bool) ⊕ (List (FanItem T) × List T × Option Exc) :=
  match t with
  | none => .inl (s.popped, s.yielded, s.closed)
  | some i => .inr (ofShard i s.sent, s.produced i, s.failed i)

section Steps
variable {s s' : Fan ι T} {op : FanOp ι T} {answer : op.Answer} {i : ι}

omit [DecidableEq ι] in
/-- The generator only moves what was sent. -/
theorem sent_of_merger (h : mergerStep s op answer s') :
    s'.sent = s.sent ∧ s'.produced = s.produced ∧ s'.failed = s.failed := by
  have hpop : ∀ {item : FanItem T}, (∃ i queue, s.queue = (i, item) :: queue ∧
      s' = { s with queue := queue, popped := s.popped ++ [(i, item)] }) →
      s'.sent = s.sent ∧ s'.produced = s.produced ∧ s'.failed = s.failed := by
    intro item ⟨i, queue, hqueue, hs'⟩
    rw [hs']
    refine ⟨?_, rfl, rfl⟩
    unfold Fan.sent
    rw [hqueue, List.append_assoc, List.singleton_append]
  cases op with
  | get => exact hpop h
  | awaitGet =>
    cases answer with
    | ok item => exact hpop h
    | error _ =>
      rw [show s' = _ from h]
      exact ⟨rfl, rfl, rfl⟩
  | gather =>
    cases answer with
    | ok _ =>
      rw [show s' = _ from h]
      exact ⟨rfl, rfl, rfl⟩
    | error _ =>
      rw [show s' = _ from h]
      exact ⟨rfl, rfl, rfl⟩
  | next | put | stopIsSet => exact h.elim
  | start | yieldEvent | setStop | join | cancel =>
    rw [show s' = _ from h]
    exact ⟨rfl, rfl, rfl⟩

/-- A worker only sends and records for its own shard. -/
theorem others_of_worker (h : workerStep i s op answer s') :
    (s'.popped = s.popped ∧ s'.yielded = s.yielded ∧ s'.closed = s.closed) ∧
      ∀ j, j ≠ i → ofShard j s'.sent = ofShard j s.sent ∧ s'.produced j = s.produced j ∧
        s'.failed j = s.failed j := by
  cases op with
  | next =>
    match answer, h with
    | .ok (some event), ⟨_, hs'⟩ =>
      rw [hs']
      exact ⟨⟨rfl, rfl, rfl⟩, fun j hj => ⟨rfl, Function.update_of_ne hj _ _, rfl⟩⟩
    | .ok none, ⟨_, hs'⟩ =>
      rw [hs']
      exact ⟨⟨rfl, rfl, rfl⟩, fun j hj => ⟨rfl, rfl, rfl⟩⟩
    | .error e, ⟨_, hs'⟩ =>
      rw [hs']
      exact ⟨⟨rfl, rfl, rfl⟩, fun j hj => ⟨rfl, rfl, Function.update_of_ne hj _ _⟩⟩
  | put item =>
    obtain ⟨_, hs'⟩ := h
    rw [hs']
    refine ⟨⟨rfl, rfl, rfl⟩, fun j hj => ⟨?_, rfl, rfl⟩⟩
    unfold Fan.sent
    rw [← List.append_assoc, ofShard_append _ [_], ofShard_other hj.symm, List.append_nil]
  | stopIsSet =>
    obtain ⟨_, _, hs'⟩ := h
    rw [hs']
    exact ⟨⟨rfl, rfl, rfl⟩, fun j hj => ⟨rfl, rfl, rfl⟩⟩
  | start | get | awaitGet | yieldEvent | setStop | join | cancel | gather => exact h.elim

theorem own_of_step (t t' : Option ι) (s : Fan ι T) (op : FanOp ι T) (answer : op.Answer)
    (s' : Fan ι T) (hne : t' ≠ t) (h : (env t).step s op answer s') : own t' s' = own t' s := by
  cases t with
  | none =>
    obtain ⟨hsent, hproduced, hfailed⟩ := sent_of_merger h
    obtain ⟨j, rfl⟩ := Option.ne_none_iff_exists'.mp hne
    unfold own
    rw [hsent, hproduced, hfailed]
  | some i =>
    obtain ⟨⟨hpopped, hyielded, hclosed⟩, hothers⟩ := others_of_worker h
    unfold own
    cases t' with
    | none =>
      dsimp only
      rw [hpopped, hyielded, hclosed]
    | some j =>
      obtain ⟨hsent, hproduced, hfailed⟩ := hothers j fun hj => hne (congrArg some hj)
      dsimp only
      rw [hsent, hproduced, hfailed]

theorem Inv.merger (hs : Inv s) (hpermits : mergerPermits s op) (h : mergerStep s op answer s') :
    Inv s' where
  ordered i := by
    obtain ⟨hsent, hproduced, hfailed⟩ := sent_of_merger h
    unfold Fan.history
    rw [hsent, hproduced, hfailed]
    exact hs.ordered i
  merged := by
    have hpop : ∀ {item : FanItem T}, (∃ i queue, s.queue = (i, item) :: queue ∧
        s' = { s with queue := queue, popped := s.popped ++ [(i, item)] }) →
        items s'.yielded <+: s'.popped := by
      intro item ⟨i, queue, _, hs'⟩
      rw [hs']
      exact hs.merged.trans (List.prefix_append _ _)
    have hsame : s'.yielded = s.yielded ∧ s'.popped = s.popped → items s'.yielded <+: s'.popped := by
      intro ⟨hyielded, hpopped⟩
      rw [hyielded, hpopped]
      exact hs.merged
    cases op with
    | get => exact hpop h
    | awaitGet =>
      cases answer with
      | ok item => exact hpop h
      | error _ =>
        apply hsame
        rw [show s' = _ from h]
        exact ⟨rfl, rfl⟩
    | gather =>
      apply hsame
      cases answer <;> rw [show s' = _ from h] <;> exact ⟨rfl, rfl⟩
    | yieldEvent event =>
      obtain ⟨i, hlast⟩ := hpermits
      rw [show s' = _ from h]
      dsimp only
      unfold Fan.attributed
      rw [hlast, List.getLast?_concat]
      unfold items
      rw [List.map_append]
      exact List.prefix_rfl
    | next | put | stopIsSet => exact h.elim
    | start | setStop | join | cancel =>
      apply hsame
      rw [show s' = _ from h]
      exact ⟨rfl, rfl⟩

theorem Inv.worker (hs : Inv s) (hpermits : workerPermits i s op) (h : workerStep i s op answer s') :
    Inv s' := by
  obtain ⟨⟨hpopped, hyielded, _⟩, hothers⟩ := others_of_worker h
  have hmerged : items s'.yielded <+: s'.popped := by
    rw [hpopped, hyielded]
    exact hs.merged
  refine ⟨fun j => ?_, hmerged⟩
  by_cases hj : j = i
  · rw [hj]
    cases op with
    | next =>
      have hfailed : s.failed i = none := hpermits
      have hbefore := hs.ordered i
      unfold Fan.history at hbefore ⊢
      rw [hfailed] at hbefore
      match answer, h with
      | .ok (some event), ⟨_, hs'⟩ =>
        rw [hs']
        dsimp only
        rw [Function.update_self, hfailed, List.map_append, List.append_assoc]
        rw [Option.map_none, Option.toList_none, List.append_nil] at hbefore
        exact hbefore.trans (List.prefix_append _ _)
      | .ok none, ⟨_, hs'⟩ =>
        rw [hs', hfailed]
        exact hbefore
      | .error e, ⟨_, hs'⟩ =>
        rw [hs']
        rw [Option.map_none, Option.toList_none, List.append_nil] at hbefore
        exact hbefore.trans (List.prefix_append _ _)
    | put item =>
      obtain ⟨_, hs'⟩ := h
      rw [hs']
      unfold Fan.sent
      rw [← List.append_assoc, ofShard_append _ [_], ofShard_self]
      exact hpermits
    | stopIsSet =>
      obtain ⟨_, _, hs'⟩ := h
      rw [hs']
      exact hs.ordered i
    | start | get | awaitGet | yieldEvent | setStop | join | cancel | gather => exact h.elim
  · obtain ⟨hsent, hproduced, hfailed⟩ := hothers j hj
    unfold Fan.history
    rw [hsent, hproduced, hfailed]
    exact hs.ordered j

end Steps

theorem inv_of_step (t : Option ι) (s : Fan ι T) (op : FanOp ι T) (answer : op.Answer)
    (s' : Fan ι T) (hs : Inv s) (hpermits : (env t).permits s op)
    (h : (env t).step s op answer s') : Inv s' := by
  cases t with
  | none => exact hs.merger hpermits h
  | some i => exact hs.worker hpermits h

/-! ## Contracts of the worker and of the generator -/

/-- Any task may run before an operation is answered. -/
def awaits (_ : FanOp ι T) : Prop := True

/-- The environment of one task with the others in it. -/
abbrev among (t : Option ι) : World (FanOps ι T) (Fan ι T) := (env t).cooperative awaits Inv (own t)

section Contracts
variable {s : Fan ι T}

/-- What others made of the state before the operation leaves the invariant and the task's own part;
the operation then keeps the invariant. -/
theorem wpm_among {t : Option ι} {op : FanOp ι T} {Q : Except Exc op.Answer → Unit → Fan ι T → Prop}
    (hs : Inv s) (hpermits : ∀ s₁, Inv s₁ → own t s₁ = own t s → (env t).permits s₁ op)
    (hstep : ∀ s₁ answer s', own t s₁ = own t s → (env t).step s₁ op answer s' → Inv s' →
      Q (.ok answer) () s') : wpm (among t) (FanOut.perform op) Q () s := by
  refine (cooperative_await trivial).mpr ⟨hs, fun s₁ hs₁ hown => ?_⟩
  have hallowed := hpermits s₁ hs₁ hown
  refine ⟨hallowed, fun answer s' h => ?_⟩
  exact hstep s₁ answer s' hown h (inv_of_step t s₁ op answer s' hs₁ hallowed h)

/-- The worker has put all that its stream has produced, and the stream has not failed. -/
def CaughtUp (i : ι) (s : Fan ι T) : Prop :=
  ∃ events : List T, own (some i) s = .inr (events.map eventItem, events, none)

/-- The worker has put all events, and its stream has failed. -/
def Failed (i : ι) (e : Exc) (s : Fan ι T) : Prop :=
  ∃ events : List T, own (some i) s = .inr (events.map eventItem, events, some e)

theorem wpm_put {i : ι} {item : FanItem T} {sent : List (FanItem T)} {events : List T}
    {failed : Option Exc} {Q : Except Exc Unit → Unit → Fan ι T → Prop} (hs : Inv s)
    (hown : own (some i) s = .inr (sent, events, failed))
    (hnext : events.map eventItem ++ (failed.map errorItem).toList = sent ++ [item])
    (h : ∀ s', Inv s' → own (some i) s' = .inr (sent ++ [item], events, failed) → Q (.ok ()) () s') :
    wpm (among (some i)) (FanOut.perform (.put item)) Q () s := by
  have hparts : ∀ s₁ : Fan ι T, own (some i) s₁ = own (some i) s → ofShard i s₁.sent = sent ∧
      s₁.produced i = events ∧ s₁.failed i = failed := by
    intro s₁ hown₁
    have hparts := Sum.inr.inj (hown₁.trans hown)
    exact ⟨congrArg Prod.fst hparts, congrArg (·.2.1) hparts, congrArg (·.2.2) hparts⟩
  refine wpm_among hs ?_ ?_
  · intro s₁ _ hown₁
    obtain ⟨hsent, hproduced, hfailed⟩ := hparts s₁ hown₁
    change ofShard i s₁.sent ++ [item] <+: s₁.history i
    have hhistory : ofShard i s₁.sent ++ [item] = s₁.history i := by
      unfold Fan.history
      rw [hsent, hproduced, hfailed, hnext]
    exact ⟨[], (List.append_nil _).trans hhistory⟩
  · intro s₁ answer s' hown₁ ⟨_, hs'⟩ hinv
    obtain ⟨hsent, hproduced, hfailed⟩ := hparts s₁ hown₁
    apply h s' hinv
    rw [hs']
    unfold own Fan.sent
    dsimp only
    rw [← List.append_assoc, ofShard_append _ [_], ofShard_self, hproduced, hfailed]
    exact congrArg (fun sent => Sum.inr (sent ++ [item], events, failed)) hsent

theorem wpm_produce (p : Package) {i : ι} (rounds : ℕ) (hs : Inv s) (hidle : CaughtUp i s) :
    wpm (among (some i)) (produce p rounds) (fun r _ s' => Inv s' ∧ match r with
      | .ok _ => True
      | .error e => Failed i e s') () s := by
  -- the invariant of the loop: every event so far is in the queue
  induction rounds generalizing s with
  | zero => exact trivial
  | succ rounds ih =>
    obtain ⟨events, hown⟩ := hidle
    unfold produce
    rw [wpm_bind]
    refine wpm_among hs ?_ ?_
    · intro s₁ _ hown₁
      exact congrArg (·.2.2) (Sum.inr.inj (hown₁.trans hown))
    · intro s₁ answer s₂ hown₁ hstep hs₂
      have hparts := Sum.inr.inj (hown₁.trans hown)
      have hsent : ofShard i s₁.sent = events.map eventItem := congrArg Prod.fst hparts
      have hproduced : s₁.produced i = events := congrArg (·.2.1) hparts
      have hfailed : s₁.failed i = none := congrArg (·.2.2) hparts
      dsimp only
      rw [wpm_bind, wpm_ofExcept]
      match answer, hstep with
      | .error e, ⟨_, hs'⟩ =>
        refine ⟨hs₂, events, ?_⟩
        rw [hs']
        unfold own
        dsimp only
        rw [Function.update_self, hproduced]
        exact congrArg (fun sent => Sum.inr (sent, events, some e)) hsent
      | .ok none, _ => exact ⟨hs₂, trivial⟩
      | .ok (some event), ⟨_, hs'⟩ =>
        have hown₂ : own (some i) s₂ = .inr (events.map eventItem, events ++ [event], none) := by
          rw [hs']
          unfold own
          dsimp only
          rw [Function.update_self, hproduced, hfailed]
          exact congrArg (fun sent => Sum.inr (sent, events ++ [event], none)) hsent
        dsimp only
        rw [wpm_bind]
        refine wpm_put hs₂ hown₂ ?_ ?_
        · simp [eventItem]
        · intro s₃ hs₃ hown₃
          have hidle : CaughtUp i s₃ := by
            refine ⟨events ++ [event], ?_⟩
            rw [hown₃, List.map_append]
            rfl
          -- a thread looks at the flag after each event, a task is cancelled instead
          cases p with
          | aio => exact ih hs₃ hidle
          | sync =>
            dsimp only
            rw [wpm_bind]
            refine wpm_among hs₃ (fun _ _ _ => trivial) ?_
            intro s₄ flag s₅ hown₄ ⟨_, _, hs₅⟩ hinv
            rw [hs₅] at hinv ⊢
            dsimp only
            rw [wpm_ite]
            split
            · exact ⟨hinv, trivial⟩
            · apply ih hinv
              obtain ⟨events, hevents⟩ := hidle
              exact ⟨events, hown₄.trans hevents⟩

theorem wpm_worker (p : Package) {i : ι} (rounds : ℕ) (hs : Inv s) (hidle : CaughtUp i s) :
    wpm (among (some i)) (worker p rounds) (fun _ _ s' => Inv s') () s := by
  unfold worker
  rw [wpm_bind, wpm_attempt]
  refine wpm_mono (wpm_produce p rounds hs hidle) ?_
  intro r _ s₁ ⟨hs₁, hr⟩
  cases r with
  | ok _ => exact hs₁
  | error e =>
    obtain ⟨events, hown⟩ := hr
    dsimp only
    rw [wpm_ite]
    split
    · exact hs₁
    · refine wpm_put hs₁ hown ?_ ?_
      · simp [errorItem]
      · intro s₂ hs₂ _
        exact hs₂

/-- All that was taken from the queue is yielded, and the generator is not closed. -/
def Merging (s : Fan ι T) : Prop := ∃ yielded, own none s = .inl (items yielded, yielded, false)

/-- How the generator raises: it was closed, or it has yielded all but the error it took last. -/
def Raised (e : Exc) (s : Fan ι T) : Prop :=
  s.closed = false → ∃ i, s.popped = items s.yielded ++ [(i, errorItem e)]

/-- What a worker puts is an event or an error. -/
theorem cases_of_popped (hs : Inv s) {i : ι} {item : FanItem T} (h : (i, item) ∈ s.popped) :
    (∃ event, item = eventItem event) ∨ ∃ e, item = errorItem e := by
  have hmem : item ∈ s.history i :=
    (hs.ordered i).subset (mem_ofShard (List.mem_append_left _ h))
  rcases List.mem_append.mp hmem with hevent | herror
  · obtain ⟨event, _, rfl⟩ := List.mem_map.mp hevent
    exact Or.inl ⟨event, rfl⟩
  · rw [Option.mem_toList, Option.map_eq_some_iff] at herror
    obtain ⟨e, _, rfl⟩ := herror
    exact Or.inr ⟨e, rfl⟩

theorem wpm_receive (p : Package) (hs : Inv s) (hmerging : Merging s) :
    wpm (among none) (receive p) (fun r _ s' => Inv s' ∧ match r with
      | .ok item => ∃ yielded i, own none s' = .inl (items yielded ++ [(i, item)], yielded, false)
      | .error _ => s'.closed = true) () s := by
  obtain ⟨yielded, hown⟩ := hmerging
  have htaken : ∀ {item : FanItem T} {s₁ s' : Fan ι T}, own none s₁ = own none s →
      (∃ i queue, s₁.queue = (i, item) :: queue ∧
        s' = { s₁ with queue := queue, popped := s₁.popped ++ [(i, item)] }) →
      ∃ yielded i, own none s' = .inl (items yielded ++ [(i, item)], yielded, false) := by
    intro item s₁ s' hown₁ ⟨i, queue, _, hs'⟩
    have hparts := Sum.inl.inj (hown₁.trans hown)
    refine ⟨yielded, i, ?_⟩
    rw [hs']
    unfold own
    dsimp only
    rw [show s₁.popped = _ from congrArg Prod.fst hparts,
      show s₁.yielded = _ from congrArg (·.2.1) hparts, show s₁.closed = _ from congrArg (·.2.2) hparts]
  cases p with
  | sync =>
    refine wpm_among hs (fun _ _ _ => trivial) ?_
    intro s₁ item s' hown₁ hstep hinv
    exact ⟨hinv, htaken hown₁ hstep⟩
  | aio =>
    unfold receive
    rw [wpm_bind]
    refine wpm_among hs (fun _ _ _ => trivial) ?_
    intro s₁ answer s' hown₁ hstep hinv
    cases answer with
    | ok item => exact ⟨hinv, htaken hown₁ hstep⟩
    | error _ =>
      refine ⟨hinv, ?_⟩
      rw [show s' = _ from hstep]

theorem wpm_merge (p : Package) (rounds : ℕ) (hs : Inv s) (hmerging : Merging s) :
    wpm (among none) (merge p rounds) (fun r _ s' => Inv s' ∧ ∃ e, r = .error e ∧
      Raised e s') () s := by
  induction rounds generalizing s with
  | zero => exact trivial
  | succ rounds ih =>
    unfold merge
    rw [wpm_bind]
    refine wpm_mono (wpm_receive p hs hmerging) ?_
    intro r _ s₁ ⟨hs₁, hr⟩
    cases r with
    | error e =>
      refine ⟨hs₁, e, rfl, fun h => ?_⟩
      rw [hr] at h
      cases h
    | ok item =>
      obtain ⟨yielded, i, hown⟩ := hr
      have hpopped : s₁.popped = items yielded ++ [(i, item)] := congrArg Prod.fst (Sum.inl.inj hown)
      have hyielded : s₁.yielded = yielded := congrArg (·.2.1) (Sum.inl.inj hown)
      have hlast : (i, item) ∈ s₁.popped := by
        rw [hpopped]
        exact List.mem_append_right _ List.mem_cons_self
      -- an event is yielded with its shard, an error is raised
      rcases cases_of_popped hs₁ hlast with ⟨event, rfl⟩ | ⟨e, rfl⟩
      · dsimp only [eventItem]
        rw [wpm_bind]
        refine wpm_among hs₁ ?_ ?_
        · intro s₂ _ hown₂
          have hparts := Sum.inl.inj (hown₂.trans hown)
          refine ⟨i, ?_⟩
          rw [show s₂.yielded = _ from congrArg (·.2.1) hparts]
          exact congrArg Prod.fst hparts
        · intro s₂ answer s₃ hown₂ hstep hs₃
          have hparts := Sum.inl.inj (hown₂.trans hown)
          have hpopped₂ : s₂.popped = items yielded ++ [(i, eventItem event)] :=
            congrArg Prod.fst hparts
          cases answer with
          | close =>
            refine ⟨hs₃, _, rfl, fun h => ?_⟩
            rw [show s₃ = _ from hstep] at h
            dsimp only at h
            rw [decide_eq_true rfl, Bool.or_true] at h
            cases h
          | next =>
            apply ih hs₃
            refine ⟨yielded ++ [(i, event)], ?_⟩
            rw [show s₃ = _ from hstep]
            unfold own Fan.attributed
            dsimp only
            rw [hpopped₂, List.getLast?_concat, show s₂.yielded = _ from congrArg (·.2.1) hparts,
              show s₂.closed = _ from congrArg (·.2.2) hparts]
            unfold items
            rw [List.map_append]
            rfl
      · refine ⟨hs₁, e, rfl, fun _ => ⟨i, ?_⟩⟩
        rw [hpopped, hyielded]

theorem wpm_each {f : ι → FanM ι T Unit} {J : Fan ι T → Prop}
    (hf : ∀ shard s, J s → wpm (among none) (f shard) (fun r _ s' => r = .ok () ∧ J s') () s)
    (shards : List ι) (hs : J s) :
    wpm (among none) (each f shards) (fun r _ s' => r = .ok () ∧ J s') () s := by
  induction shards generalizing s with
  | nil => exact ⟨rfl, hs⟩
  | cons shard shards ih =>
    unfold each
    rw [wpm_bind]
    refine wpm_mono (hf shard s hs) ?_
    intro r _ s' ⟨hr, hs'⟩
    rw [hr]
    exact ih hs'

/-- An operation of the generator that leaves its own part alone. -/
theorem wpm_aside {op : FanOp ι T} {Q : Except Exc op.Answer → Unit → Fan ι T → Prop}
    (hs : Inv s) (hpermits : ∀ s₁, mergerPermits s₁ op)
    (hstep : ∀ s₁ answer s', mergerStep s₁ op answer s' → own none s' = own none s₁)
    (h : ∀ answer s', Inv s' → own none s' = own none s → Q (.ok answer) () s') :
    wpm (among none) (FanOut.perform op) Q () s := by
  refine wpm_among hs (fun s₁ _ _ => hpermits s₁) ?_
  intro s₁ answer s' hown hs' hinv
  exact h answer s' hinv ((hstep s₁ answer s' hs').trans hown)

/-- The `finally` block leaves what was yielded, and raises only what cancels it. -/
theorem wpm_finish (p : Package) (shards : List ι) (hs : Inv s) :
    wpm (among none) (finish shards p) (fun r _ s' => Inv s' ∧ match r with
      | .ok _ => own none s' = own none s
      | .error _ => s'.closed = true) () s := by
  have hunchanged : ∀ {s₁ s' : Fan ι T}, s' = s₁ → own none s' = own none s₁ := fun h => by rw [h]
  cases p with
  | sync =>
    unfold finish
    rw [wpm_bind]
    refine wpm_aside hs ?_ ?_ ?_
    · exact fun _ => trivial
    · intro s₁ _ s' hstep
      rw [show s' = _ from hstep]
      rfl
    · intro _ s₁ hs₁ hown₁
      dsimp only
      refine wpm_mono (wpm_each (J := fun s' => Inv s' ∧ own none s' = own none s) ?_ shards
        ⟨hs₁, hown₁⟩) ?_
      · intro shard s₂ ⟨hs₂, hown₂⟩
        refine wpm_aside hs₂ ?_ ?_ ?_
        · exact fun _ => trivial
        · exact fun _ _ _ => hunchanged
        · exact fun _ s₃ hs₃ hown₃ => ⟨rfl, hs₃, hown₃.trans hown₂⟩
      · intro r _ s₂ ⟨hr, hs₂, hown₂⟩
        rw [hr]
        exact ⟨hs₂, hown₂⟩
  | aio =>
    unfold finish
    rw [wpm_bind]
    refine wpm_mono (wpm_each (J := fun s' => Inv s' ∧ own none s' = own none s) ?_ shards ⟨hs, rfl⟩) ?_
    · intro shard s₂ ⟨hs₂, hown₂⟩
      refine wpm_aside hs₂ ?_ ?_ ?_
      · exact fun _ => trivial
      · exact fun _ _ _ => hunchanged
      · exact fun _ s₃ hs₃ hown₃ => ⟨rfl, hs₃, hown₃.trans hown₂⟩
    · intro r _ s₂ ⟨hr, hs₂, hown₂⟩
      rw [hr]
      dsimp only
      rw [wpm_bind]
      refine wpm_among hs₂ (fun _ _ _ => trivial) ?_
      intro s₃ answer s₄ hown₃ hstep hs₄
      -- a cancellation of the generator itself interrupts `gather`
      cases answer with
      | ok _ => exact ⟨hs₄, (hunchanged hstep).trans (hown₃.trans hown₂)⟩
      | error _ =>
        refine ⟨hs₄, ?_⟩
        rw [show s₄ = _ from hstep]

theorem wpm_fanOut (p : Package) (shards : List ι) (rounds : ℕ) (hs : Inv s) (hmerging : Merging s) :
    wpm (among none) (fanOut p shards rounds)
      (fun r _ s' => Inv s' ∧ ∀ e, r = .error e → Raised e s') () s := by
  unfold fanOut
  rw [wpm_bind]
  refine wpm_mono (wpm_each (J := fun s' => Inv s' ∧ own none s' = own none s) ?_ shards ⟨hs, rfl⟩) ?_
  · intro shard s₁ ⟨hs₁, hown₁⟩
    refine wpm_aside hs₁ ?_ ?_ ?_
    · exact fun _ => trivial
    · intro s₂ _ s' hstep
      rw [show s' = _ from hstep]
      rfl
    · exact fun _ s₂ hs₂ hown₂ => ⟨rfl, hs₂, hown₂.trans hown₁⟩
  · intro r _ s₁ ⟨hr, hs₁, hown₁⟩
    obtain ⟨yielded, hown⟩ := hmerging
    rw [hr]
    dsimp only
    rw [wpm_bind, wpm_attempt]
    refine wpm_mono (wpm_merge p rounds hs₁ ⟨yielded, hown₁.trans hown⟩) ?_
    intro r _ s₂ ⟨hs₂, e, hr, hraised⟩
    rw [hr]
    dsimp only
    rw [wpm_bind]
    refine wpm_mono (wpm_finish p shards hs₂) ?_
    intro r _ s₃ ⟨hs₃, hr⟩
    cases r with
    | error e' =>
      refine ⟨hs₃, fun _ _ h => ?_⟩
      rw [hr] at h
      cases h
    | ok _ =>
      refine ⟨hs₃, fun e' he' => ?_⟩
      cases he'
      intro hclosed
      have hparts := Sum.inl.inj hr
      rw [show s₃.popped = _ from congrArg Prod.fst hparts,
        show s₃.yielded = _ from congrArg (·.2.1) hparts]
      exact hraised ((congrArg (·.2.2) hparts).symm.trans hclosed)

end Contracts

/-! ## Every interleaving -/

/-- The generator and a worker for each shard, before anything ran. Each may go on for as many rounds
as it is given. -/
def tasks (p : Package) (shards : List ι) (rounds : Option ι → ℕ) :
    Tasks (FanOps ι T) (Option ι) (Except Exc Unit × Unit) (Fan ι T) where
  running := none
  prog
    | none => fanOut p shards (rounds none) ()
    | some i => worker p (rounds (some i)) ()
  state := {}

/-- What the generator leaves when it raises. -/
def Outcome : Option ι → Except Exc Unit × Unit →
    (List (ι × FanItem T) × List (ι × T) × Bool) ⊕ (List (FanItem T) × List T × Option Exc) → Prop
  | none, (.error e, _), .inl (popped, yielded, closed) =>
    closed = false → ∃ i, popped = items yielded ++ [(i, errorItem e)]
  | _, _, _ => True

omit [DecidableEq ι] in
/-- Events stand before the error in what comes from a shard. -/
theorem prefix_of_items {events events' : List T} {errors : List (FanItem T)}
    (h : events.map eventItem <+: events'.map eventItem ++ errors)
    (herrors : ∀ item ∈ errors, ∃ e, item = errorItem e) : events <+: events' := by
  induction events generalizing events' with
  | nil => exact List.nil_prefix
  | cons event events ih =>
    cases events' with
    | nil =>
      obtain ⟨e, he⟩ := herrors (eventItem event) (h.subset List.mem_cons_self)
      cases he
    | cons event' events' =>
      rw [List.map_cons, List.map_cons, List.cons_append, List.cons_prefix_cons] at h
      obtain ⟨hevent, hrest⟩ := h
      cases hevent
      exact List.cons_prefix_cons.mpr ⟨rfl, ih hrest⟩

omit [DecidableEq ι] in
theorem errors_of_failed (failed : Option Exc) :
    ∀ item ∈ ((failed.map errorItem).toList : List (FanItem T)), ∃ e, item = errorItem e := by
  intro item hitem
  rw [Option.mem_toList, Option.map_eq_some_iff] at hitem
  obtain ⟨e, _, he⟩ := hitem
  exact ⟨e, he.symm⟩

omit [DecidableEq ι] in
/-- The error of a shard stands behind all its events. -/
theorem eq_of_failed {events events' : List T} {failed : Option Exc} {e : Exc}
    (h : events.map eventItem ++ [errorItem e] <+:
      events'.map eventItem ++ (failed.map errorItem).toList) : failed = some e ∧ events = events' := by
  induction events generalizing events' with
  | nil =>
    cases events' with
    | nil =>
      have hmem := h.subset List.mem_cons_self
      rw [List.map_nil, List.nil_append, Option.mem_toList, Option.map_eq_some_iff] at hmem
      obtain ⟨e', hfailed, he⟩ := hmem
      cases he
      exact ⟨hfailed, rfl⟩
    | cons event' events' =>
      rw [List.map_nil, List.nil_append, List.map_cons, List.cons_append, List.cons_prefix_cons] at h
      cases h.1
  | cons event events ih =>
    cases events' with
    | nil =>
      obtain ⟨e', he⟩ := errors_of_failed failed (eventItem event) (h.subset List.mem_cons_self)
      cases he
    | cons event' events' =>
      rw [List.map_cons, List.map_cons, List.cons_append, List.cons_append,
        List.cons_prefix_cons] at h
      obtain ⟨hevent, hrest⟩ := h
      cases hevent
      obtain ⟨hfailed, heq⟩ := ih hrest
      exact ⟨hfailed, congrArg (event :: ·) heq⟩

/-- What was yielded of a shard is a prefix of what its stream has produced. -/
theorem Inv.prefix_produced {s : Fan ι T} (hs : Inv s) (i : ι) :
    ofShard i s.yielded <+: s.produced i := by
  have hpopped : ofShard i (items s.yielded) <+: s.history i :=
    (ofShard_initial (hs.merged.trans (List.prefix_append _ _))).trans (hs.ordered i)
  unfold items at hpopped
  rw [ofShard_map] at hpopped
  exact prefix_of_items hpopped (errors_of_failed (s.failed i))

/-- Once the error of a shard is taken, all its events are yielded. -/
theorem Inv.all_yielded {s : Fan ι T} (hs : Inv s) {i : ι} {e : Exc}
    (h : s.popped = items s.yielded ++ [(i, errorItem e)]) :
    s.failed i = some e ∧ ofShard i s.yielded = s.produced i := by
  have hpopped : ofShard i s.popped <+: s.history i :=
    (ofShard_initial (List.prefix_append _ _)).trans (hs.ordered i)
  rw [h, ofShard_append, ofShard_self] at hpopped
  unfold items at hpopped
  rw [ofShard_map] at hpopped
  exact eq_of_failed hpopped

/-- Fan-out merges streams without loss, duplication or reordering. In every interleaving of the
workers with the generator, and of any number of shards, the events yielded so far of each shard are
a prefix of those that its stream has produced; and the generator, unless it was closed or its task
cancelled, raises the error of a shard all of whose events are yielded. -/
theorem fan_out_merges (p : Package) (shards : List ι) (rounds : Option ι → ℕ)
    (awaits : FanOp ι T → Prop)
    (t : Tasks (FanOps ι T) (Option ι) (Except Exc Unit × Unit) (Fan ι T))
    (h : Tasks.Reaches env awaits (tasks p shards rounds) t) :
    (∀ i, ofShard i t.state.yielded <+: t.state.produced i) ∧
    ∀ e, t.prog none = .pure (.error e, ()) → t.state.closed = false →
      ∃ i, t.state.failed i = some e ∧ ofShard i t.state.yielded = t.state.produced i := by
  have hinv : Inv (tasks (T := T) p shards rounds).state :=
    ⟨fun i => List.nil_prefix, List.prefix_rfl⟩
  have hstart : ∀ i s, Inv s → own i s = own i (tasks (T := T) p shards rounds).state →
      Keeping env FanOutMerge.awaits Inv own Outcome i ((tasks p shards rounds).prog i) s := by
    intro i s hs hown
    cases i with
    | none =>
      refine wp_mono (wpm_fanOut p shards (rounds none) hs ⟨[], hown⟩) ?_
      intro ⟨r, _⟩ s' ⟨hs', hraised⟩
      refine ⟨hs', ?_⟩
      cases r with
      | error e => exact hraised e rfl
      | ok _ => exact trivial
    | some i =>
      refine wp_mono (wpm_worker p (rounds (some i)) hs ⟨[], hown⟩) ?_
      exact fun _ _ hs' => ⟨hs', trivial⟩
  have hreaches : Tasks.Reaches env FanOutMerge.awaits (tasks p shards rounds) t :=
    h.mono fun _ _ => trivial
  have hinv' : Inv t.state := Tasks.inv_of_reaches
    (fun i j s o a s' hne _ _ => own_of_step i j s o a s' hne)
    inv_of_step hinv hstart hreaches
  have hsound := Tasks.sound_of_reaches (fun i j s o a s' hne _ _ => own_of_step i j s o a s' hne) hinv
    hstart hreaches
  refine ⟨hinv'.prefix_produced, fun e hraised hclosed => ?_⟩
  obtain ⟨i, hpopped⟩ := hsound.ended_of_inv hinv' hraised hclosed
  exact ⟨i, hinv'.all_yielded hpopped⟩

/-- The streams of two shards yield events in turn, and then one loses its connection. -/
theorem two_shards_are_merged :
    ∃ t : Tasks (FanOps Bool ℕ) (Option Bool) (Except Exc Unit × Unit) (Fan Bool ℕ),
      t.prog none = .pure (.error (.connectionError .closedByServer), ()) ∧
      t.state.yielded = [(true, 7), (false, 1), (true, 8)] ∧
      ∃ i, t.state.failed i = some (.connectionError .closedByServer) ∧
        ofShard i t.state.yielded = t.state.produced i := by
  let lost : Exc := .connectionError .closedByServer
  have hrun : ∃ t : Tasks (FanOps Bool ℕ) (Option Bool) (Except Exc Unit × Unit) (Fan Bool ℕ),
      Tasks.Reaches env (fun _ => True) (tasks .sync [false, true] fun _ => 4) t ∧
      t.prog none = .pure (.error lost, ()) ∧ t.state.yielded = [(true, 7), (false, 1), (true, 8)] ∧
      t.state.closed = false := by
    refine Tasks.exists_head (.op (a := ()) rfl rfl) ?_
    refine Tasks.exists_head (.op (a := ()) rfl rfl) ?_
    -- the first event of either shard
    refine Tasks.exists_head (.switch (some true) trivial) ?_
    refine Tasks.exists_head (.op (a := (.ok (some 7) : Except Exc (Option ℕ))) rfl
      (by exact ⟨by decide, rfl⟩)) ?_
    refine Tasks.exists_head (.op (a := ()) rfl (by exact ⟨by decide, rfl⟩)) ?_
    refine Tasks.exists_head (.switch (some false) trivial) ?_
    refine Tasks.exists_head (.op (a := (.ok (some 1) : Except Exc (Option ℕ))) rfl
      (by exact ⟨by decide, rfl⟩)) ?_
    refine Tasks.exists_head (.op (a := ()) rfl (by exact ⟨by decide, rfl⟩)) ?_
    refine Tasks.exists_head (.op (a := false) rfl (by exact ⟨by decide, rfl, rfl⟩)) ?_
    -- another event of one, and the end of the other
    refine Tasks.exists_head (.switch (some true) trivial) ?_
    refine Tasks.exists_head (.op (a := false) rfl (by exact ⟨by decide, rfl, rfl⟩)) ?_
    refine Tasks.exists_head (.op (a := (.ok (some 8) : Except Exc (Option ℕ))) rfl
      (by exact ⟨by decide, rfl⟩)) ?_
    refine Tasks.exists_head (.op (a := ()) rfl (by exact ⟨by decide, rfl⟩)) ?_
    refine Tasks.exists_head (.switch (some false) trivial) ?_
    refine Tasks.exists_head (.op (a := (.error lost : Except Exc (Option ℕ))) rfl
      (by exact ⟨by decide, rfl⟩)) ?_
    refine Tasks.exists_head (.op (a := ()) rfl (by exact ⟨by decide, rfl⟩)) ?_
    -- the generator takes them in this order
    refine Tasks.exists_head (.switch none trivial) ?_
    refine Tasks.exists_head (.op (a := ((some 7, none) : FanItem ℕ)) rfl
      (by exact ⟨true, _, rfl, rfl⟩)) ?_
    refine Tasks.exists_head (.op (a := Resume.next) rfl rfl) ?_
    refine Tasks.exists_head (.op (a := ((some 1, none) : FanItem ℕ)) rfl
      (by exact ⟨false, _, rfl, rfl⟩)) ?_
    refine Tasks.exists_head (.op (a := Resume.next) rfl rfl) ?_
    refine Tasks.exists_head (.op (a := ((some 8, none) : FanItem ℕ)) rfl
      (by exact ⟨true, _, rfl, rfl⟩)) ?_
    refine Tasks.exists_head (.op (a := Resume.next) rfl rfl) ?_
    refine Tasks.exists_head (.op (a := ((none, some lost) : FanItem ℕ)) rfl
      (by exact ⟨false, _, rfl, rfl⟩)) ?_
    refine Tasks.exists_head (.op (a := ()) rfl rfl) ?_
    refine Tasks.exists_head (.op (a := ()) rfl rfl) ?_
    refine Tasks.exists_head (.op (a := ()) rfl rfl) ?_
    exact ⟨_, .refl, rfl, rfl, rfl⟩
  obtain ⟨t, hreaches, hraised, hyielded, hclosed⟩ := hrun
  exact ⟨t, hraised, hyielded, (fan_out_merges .sync [false, true] _ _ t hreaches).2
    lost hraised hclosed⟩

end FqClient.FanOutMerge
