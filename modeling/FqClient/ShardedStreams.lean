import FqClient.Calls
import FqClient.FanOutMerge
import FqClient.Subscriptions

namespace FqClient.ShardedStreams

open Effects FanOut FanOutMerge Subscriptions

variable {ι : Type}

/-! ## Workers that iterate over the streams of their shards -/

/-- What the tasks of a fan-out do with each other, and each worker on the network. -/
@[reducible] def FanNet (ι : Type) : Interface where
  Op := FanOp ι StreamEvent ⊕ NetOp
  Ans
    | .inl op => op.Answer
    | .inr op => op.Answer

/-- A generator, as far as it has come. -/
abbrev Generator := Prog Net (Except Exc Unit × Unit)

/-- `__anext__`: the generator goes on until it yields, returns or raises. -/
def anext : Generator → Prog (FanNet ι) (Except Exc (Option StreamEvent) × Generator)
  | .pure (.ok u, v) => .pure (.ok none, .pure (.ok u, v))
  | .pure (.error e, v) => .pure (.error e, .pure (.error e, v))
  | .call (.yieldEvent event) k =>
    .call (.inr (.yieldEvent event)) fun resume => .pure (.ok (some event), k resume)
  | .call op k => .call (.inr op) fun answer => anext (k answer)
  | .halt => .halt

/-- The stream of a worker is the generator that its shard returned. -/
def onShard : (op : FanOp ι StreamEvent) → Generator → Prog (FanNet ι) (op.Answer × Generator)
  | .next, generator => anext generator
  | op, generator => .call (.inl op) fun answer => .pure (answer, generator)

/-- The generator of `AsyncShardedClient.stream`, `pstream`, `qstream` or `qpstream`, and its workers. -/
def prog (config : ι → ClientConfig) (subscription : Subscription) (shards : List ι)
    (rounds : Option ι → ℕ) : Option ι → Prog (FanNet ι) ((Except Exc Unit × Unit) × Generator)
  | none => Prog.handled onShard (fanOut .aio shards (rounds none) ()) (.pure (.ok (), ()))
  | some i => Prog.handled onShard (worker .aio (rounds (some i)) ())
      (Package.aio.transport.subscribe (config i) (rounds (some i)) subscription false ())

/-! ## The environment -/

/-- The fan-out, and what is noted of the stream of every shard. -/
structure Sharded (ι : Type) where
  fan : Fan ι StreamEvent := {}
  heard : ι → Listening := fun _ => {}

variable [DecidableEq ι]

/-- An item goes into the queue; an error is that of the stream. -/
def Passes (i : ι) (s : Fan ι StreamEvent) (item : FanItem StreamEvent)
    (s' : Fan ι StreamEvent) : Prop :=
  match item with
  | (_, some e) => ∃ s₁, workerStep i s .next (.error e) s₁ ∧ workerStep i s₁ (.put item) () s'
  | (_, none) => workerStep i s (.put item) () s'

/-- What the operations of the generator and of the workers do. A worker asks for the next event once it
has put the last one. -/
def step (request : Except Exc Bytes) :
    Option ι → Sharded ι → (op : (FanNet ι).Op) → (FanNet ι).Ans op → Sharded ι → Prop
  | none, s, .inl op, a, s' => mergerStep s.fan op a s'.fan ∧ s'.heard = s.heard
  | none, _, .inr _, _, _ => False
  | some i, s, .inl (.put item), _, s' => Passes i s.fan item s'.fan ∧ s'.heard = s.heard
  | some _, _, .inl _, _, _ => False
  | some i, s, .inr (.yieldEvent event), a, s' => a = .next ∧
    workerStep i s.fan .next (.ok (some event)) s'.fan ∧
    s'.heard = Function.update s.heard i ((s.heard i).yields event)
  | some i, s, .inr op, a, s' => i ∈ s.fan.started ∧ s'.fan = s.fan ∧
    s'.heard = Function.update s.heard i (note request (s.heard i) op a)

/-- A worker passes on what its stream has yielded, and the error that ended it. -/
def MayPass (parse : Bytes → Except Exc StreamEvent) (i : ι) (s : Sharded ι) :
    FanItem StreamEvent → Prop
  | (none, some e) => s.fan.failed i = none ∧
    FanOutMerge.ofShard i s.fan.sent = (s.fan.produced i).map eventItem ∧
    ∀ feed ∈ (s.heard i).feeds.head?, LeftOut parse (.error e) feed
  | (some _, some _) => False
  | item => workerPermits i s.fan (.put item)

def permits (request : Except Exc Bytes) (parse : Bytes → Except Exc StreamEvent) :
    Option ι → Sharded ι → (FanNet ι).Op → Prop
  | none, s, .inl op => mergerPermits s.fan op
  | none, _, .inr _ => False
  | some i, s, .inl (.put item) => MayPass parse i s item
  | some _, _, .inl _ => False
  | some i, s, .inr op => s.fan.failed i = none ∧ ∀ a, Sound parse (note request (s.heard i) op a)

def env (request : Except Exc Bytes) (parse : Bytes → Except Exc StreamEvent) (t : Option ι) :
    World (FanNet ι) (Sharded ι) where
  permits := permits request parse t
  step := step request t

/-! ## The invariant -/

/-- The events of a stream are those of the subscriptions of its shard. -/
structure Inv (parse : Bytes → Except Exc StreamEvent) (s : Sharded ι) : Prop where
  fan : FanOutMerge.Inv s.fan
  sound : ∀ i, Sound parse (s.heard i)
  events : ∀ i, (s.heard i).events = s.fan.produced i
  failed : ∀ i e, s.fan.failed i = some e →
    ∀ feed ∈ (s.heard i).feeds.head?, LeftOut parse (.error e) feed

/-- What only the generator, or only a worker, changes. -/
def own (t : Option ι) (s : Sharded ι) := (FanOutMerge.own t s.fan, t.map s.heard)

section Steps
variable {request : Except Exc Bytes} {parse : Bytes → Except Exc StreamEvent}
  {s s' : Sharded ι} {i : ι}

/-- The event of a yield. -/
def yielded : NetOp → Option StreamEvent
  | .yieldEvent event => some event
  | _ => none

theorem eq_of_yielded {op : NetOp} {event : StreamEvent} (h : yielded op = some event) :
    op = .yieldEvent event := by
  cases op <;> cases h
  rfl

omit [DecidableEq ι] in
theorem anext_call {op : NetOp} (h : yielded op = none) (k : op.Answer → Generator) :
    anext (ι := ι) (.call op k) = .call (.inr op) fun answer => anext (k answer) := by
  cases op <;> first | rfl | cases h

theorem step_call {op : NetOp} (h : yielded op = none) {a : op.Answer}
    (hstep : step request (some i) s (.inr op) a s') : i ∈ s.fan.started ∧ s'.fan = s.fan ∧
      s'.heard = Function.update s.heard i (note request (s.heard i) op a) := by
  cases op <;> first | exact hstep | cases h

theorem own_of_passes {item : FanItem StreamEvent} {t : Option ι} (ht : t ≠ some i)
    {s s' : Fan ι StreamEvent} (h : Passes i s item s') :
    FanOutMerge.own t s' = FanOutMerge.own t s := by
  obtain ⟨event, _ | e⟩ := item
  · exact own_of_step (some i) t s (.put (event, none)) () s' ht h
  · obtain ⟨s₁, hfails, hput⟩ := h
    exact (own_of_step (some i) t s₁ (.put (event, some e)) () s' ht hput).trans
      (own_of_step (some i) t s .next (.error e) s₁ ht hfails)

theorem own_other (t t' : Option ι) (s : Sharded ι) (op : (FanNet ι).Op) (a : (FanNet ι).Ans op)
    (s' : Sharded ι) (hne : t' ≠ t) (h : (env request parse t).step s op a s') :
    own t' s' = own t' s := by
  unfold own
  cases t with
  | none =>
    cases op with
    | inr op => exact h.elim
    | inl op =>
      obtain ⟨hfan, hheard⟩ := h
      rw [own_of_step none t' s.fan op a s'.fan hne hfan, hheard]
  | some i =>
    have hothers : ∀ l, t'.map (Function.update s.heard i l) = t'.map s.heard := by
      intro l
      cases t' with
      | none => rfl
      | some j =>
        have hj : j ≠ i := fun heq => hne (congrArg some heq)
        exact congrArg some (Function.update_of_ne hj l s.heard)
    cases op with
    | inl op =>
      cases op with
      | put item =>
        obtain ⟨hpasses, hheard⟩ := h
        rw [own_of_passes hne hpasses, hheard]
      | _ => exact h.elim
    | inr op =>
      cases hyields : yielded op with
      | none =>
        obtain ⟨_, hfan, hheard⟩ := step_call hyields h
        rw [hfan, hheard, hothers]
      | some event =>
        obtain rfl := eq_of_yielded hyields
        obtain ⟨_, hfan, hheard⟩ := h
        rw [own_of_step (some i) t' s.fan .next (.ok (some event)) s'.fan hne hfan, hheard, hothers]

theorem heard_update (s : Sharded ι) (i j : ι) (l : Listening) :
    Function.update s.heard i l j = if j = i then l else s.heard j := by
  by_cases hj : j = i
  · rw [hj, Function.update_self, if_pos rfl]
  · rw [Function.update_of_ne hj, if_neg hj]

/-- An operation that is no yield leaves the events. -/
theorem events_note {op : NetOp} (h : yielded op = none) (l : Listening) (a : op.Answer) :
    (note request l op a).events = l.events := by
  have hwrite : ∀ {data : Bytes} {sock : SockId},
      (if request = .ok data then l.subscribes sock else l).events = l.events := by
    intro data sock
    split <;> rfl
  cases op with
  | yieldEvent event => cases h
  | sendall sock data =>
    cases a with
    | ok _ => exact hwrite
    | error fault => rfl
  | writeDrain sock data =>
    cases a with
    | ok _ => exact hwrite
    | error fault => rfl
  | recv sock size => cases a <;> rfl
  | readexactly sock size => cases a <;> rfl
  | _ => rfl

/-- The stream of worker `i` reads or writes, with what it makes of the record of its shard. -/
theorem Inv.hears (hs : Inv parse s) {l : Listening} {fan : Fan ι StreamEvent}
    (hfan : FanOutMerge.Inv fan)
    (hsound : Sound parse l) (hfailed : s.fan.failed i = none) (hsame : fan.failed = s.fan.failed)
    (hevents : l.events = fan.produced i) (hothers : ∀ j ≠ i, fan.produced j = s.fan.produced j) :
    Inv parse { fan := fan, heard := Function.update s.heard i l } where
  fan := hfan
  sound j := by
    dsimp only
    rw [heard_update]
    split
    · exact hsound
    · exact hs.sound j
  events j := by
    dsimp only
    rw [heard_update]
    split
    next hj => rw [hj, hevents]
    next hj => rw [hothers j hj, hs.events j]
  failed j e he feed hmem := by
    dsimp only at he hmem
    rw [hsame] at he
    have hj : j ≠ i := by
      intro heq
      rw [heq, hfailed] at he
      cases he
    rw [heard_update, if_neg hj] at hmem
    exact hs.failed j e he feed hmem

theorem Inv.call {op : NetOp} {a : op.Answer} (hs : Inv parse s)
    (hpermits : (env request parse (some i)).permits s (.inr op))
    (h : (env request parse (some i)).step s (.inr op) a s') : Inv parse s' := by
  obtain ⟨hfailed, hsound⟩ := hpermits
  obtain ⟨fan, heard⟩ := s'
  cases hyields : yielded op with
  | none =>
    obtain ⟨_, rfl, rfl⟩ := step_call hyields h
    apply hs.hears hs.fan (hsound a) hfailed rfl
    · rw [events_note hyields, hs.events]
    · exact fun _ _ => rfl
  | some event =>
    obtain rfl := eq_of_yielded hyields
    obtain ⟨_, ⟨hstarted, hfan⟩, rfl⟩ := h
    have hinv : FanOutMerge.Inv fan :=
      FanOutMerge.inv_of_step (some i) s.fan .next (.ok (some event)) fan hs.fan
        hfailed ⟨hstarted, hfan⟩
    apply hs.hears hinv (hsound .next) hfailed
    · rw [show fan = _ from hfan]
    · rw [show fan = _ from hfan]
      dsimp only
      rw [Function.update_self, ← hs.events]
      rfl
    · intro j hj
      rw [show fan = _ from hfan]
      exact Function.update_of_ne hj _ _

theorem Inv.pass {item : FanItem StreamEvent} (hs : Inv parse s) (hpermits : MayPass parse i s item)
    (hpasses : Passes i s.fan item s'.fan) (hheard : s'.heard = s.heard) : Inv parse s' := by
  have hsound : ∀ j, Sound parse (s'.heard j) := by
    rw [hheard]
    exact hs.sound
  match item with
  | (event, none) =>
    have hallowed : workerPermits i s.fan (.put (event, none)) := by
      cases event <;> exact hpermits
    have hinv : FanOutMerge.Inv s'.fan :=
      FanOutMerge.inv_of_step (some i) s.fan (.put (event, none)) () s'.fan hs.fan hallowed hpasses
    obtain ⟨_, hfan⟩ := hpasses
    refine ⟨hinv, hsound, fun j => ?_, fun j => ?_⟩
    · rw [hheard, show s'.fan = _ from hfan, hs.events]
    · rw [hheard, show s'.fan = _ from hfan]
      exact hs.failed j
  | (some event, some e) => exact hpermits.elim
  | (none, some e) =>
    obtain ⟨hfailed, hsent, hleft⟩ := hpermits
    obtain ⟨s₁, ⟨hstarted, hs₁⟩, hput⟩ := hpasses
    -- the error of a stream is noted and put in one step: first the note, then the item
    have hinv₁ : FanOutMerge.Inv s₁ :=
      FanOutMerge.inv_of_step (some i) s.fan .next (.error e) s₁ hs.fan hfailed ⟨hstarted, hs₁⟩
    have hhistory : FanOutMerge.ofShard i s₁.sent ++ [errorItem e] = s₁.history i := by
      unfold Fan.history
      rw [hs₁]
      dsimp only
      rw [Function.update_self]
      exact congrArg (· ++ [errorItem e]) hsent
    have hinv : FanOutMerge.Inv s'.fan :=
      FanOutMerge.inv_of_step (some i) s₁ (.put (none, some e)) () s'.fan hinv₁
        ⟨[], (List.append_nil _).trans hhistory⟩ hput
    obtain ⟨_, hfan⟩ := hput
    refine ⟨hinv, hsound, fun j => ?_, fun j => ?_⟩
    · rw [hheard, show s'.fan = _ from hfan, hs₁, hs.events]
    · rw [hheard, show s'.fan = _ from hfan, hs₁]
      dsimp only
      by_cases hj : j = i
      · rw [hj, Function.update_self]
        intro e' he'
        cases he'
        exact hleft
      · rw [Function.update_of_ne hj]
        exact hs.failed j

theorem inv_of_step (t : Option ι) (s : Sharded ι) (op : (FanNet ι).Op) (a : (FanNet ι).Ans op)
    (s' : Sharded ι) (hs : Inv parse s) (hpermits : (env request parse t).permits s op)
    (h : (env request parse t).step s op a s') : Inv parse s' := by
  cases t with
  | none =>
    cases op with
    | inr op => exact h.elim
    | inl op =>
      obtain ⟨hfan, hheard⟩ := h
      obtain ⟨_, hproduced, hfailed⟩ := sent_of_merger hfan
      refine ⟨hs.fan.merger hpermits hfan, ?_, ?_, ?_⟩
      · rw [hheard]
        exact hs.sound
      · rw [hheard, hproduced]
        exact hs.events
      · rw [hheard, hfailed]
        exact hs.failed
  | some i =>
    cases op with
    | inr op => exact hs.call hpermits h
    | inl op =>
      cases op with
      | put item => exact hs.pass hpermits h.1 h.2
      | _ => exact h.elim

end Steps

/-! ## Contracts of the worker and of the generator -/

/-- Any task may run before an operation is answered. -/
def awaits (_ : (FanNet ι).Op) : Prop := True

/-- The environment of one task with the others in it. -/
abbrev among (request : Except Exc Bytes) (parse : Bytes → Except Exc StreamEvent) (t : Option ι) :
    World (FanNet ι) (Sharded ι) := (env request parse t).cooperative awaits (Inv parse) (own t)

section Contracts
variable {request : Except Exc Bytes} {parse : Bytes → Except Exc StreamEvent}
  {s s₁ : Sharded ι} {i : ι}
  {events : List StreamEvent} {sent : List (FanItem StreamEvent)} {l : Listening}

/-- Worker `i` has put these items, its stream has yielded these events, and this is noted of it. -/
abbrev At (i : ι) (sent : List (FanItem StreamEvent)) (events : List StreamEvent) (l : Listening)
    (s : Sharded ι) : Prop := own (some i) s = (.inr (sent, events, none), some l)

theorem at_iff : At i sent events l s ↔ FanOutMerge.ofShard i s.fan.sent = sent ∧
    s.fan.produced i = events ∧
    s.fan.failed i = none ∧ s.heard i = l := by
  unfold At own FanOutMerge.own
  simp [and_assoc]

/-- The generator of a stream that has its contract. -/
abbrev Delivers (request : Except Exc Bytes) (parse : Bytes → Except Exc StreamEvent)
    (generator : Generator) (l : Listening) : Prop :=
  wp (world request parse) generator (fun rc l' => Over parse rc.1 l') l

/-- The generator goes on among the other tasks as it does alone. -/
theorem wp_anext {generator : Generator} (hs : Inv parse s) (hat : At i sent events l s)
    (hgenerator : Delivers request parse generator l) :
    wp (among request parse (some i)) (anext generator) (fun r s' => Inv parse s' ∧ match r.1 with
      | .ok (some event) => ∃ l', At i sent (events ++ [event]) l' s' ∧ Delivers request parse r.2 l'
      | .ok none => True
      | .error e => ∃ l', At i sent events l' s' ∧ Over parse (.error e) l') s := by
  induction generator generalizing s l with
  | pure rc =>
    obtain ⟨r, v⟩ := rc
    cases r with
    | ok u => exact ⟨hs, trivial⟩
    | error e => exact ⟨hs, l, hat, hgenerator⟩
  | halt => exact trivial
  | call op k ih =>
    have hallowed : ∀ s₁, own (some i) s₁ = own (some i) s →
        (env request parse (some i)).permits s₁ (.inr op) := by
      intro s₁ hown
      obtain ⟨_, _, hfailed, hheard⟩ := at_iff.mp (hown.trans hat)
      refine ⟨hfailed, fun a => ?_⟩
      rw [hheard]
      exact hgenerator.1 a
    -- what the generator does is its own part; only a yield reaches the fan-out
    cases hyields : yielded op with
    | none =>
      rw [anext_call hyields]
      refine (cooperative_await trivial).mpr
        ⟨hs, fun s₁ hs₁ hown => ⟨hallowed s₁ hown, fun a s' h => ?_⟩⟩
      have hs' := inv_of_step (some i) s₁ (.inr op) a s' hs₁ (hallowed s₁ hown) h
      obtain ⟨hsent, hproduced, hfailed, hheard⟩ := at_iff.mp (hown.trans hat)
      obtain ⟨_, hfan, hnoted⟩ := step_call hyields h
      refine ih a hs' (at_iff.mpr ?_) (hgenerator.2 a _ rfl)
      rw [hfan, hnoted, Function.update_self, hheard]
      exact ⟨hsent, hproduced, hfailed, rfl⟩
    | some event =>
      obtain rfl := eq_of_yielded hyields
      refine (cooperative_await trivial).mpr
        ⟨hs, fun s₁ hs₁ hown => ⟨hallowed s₁ hown, fun a s' h => ?_⟩⟩
      have hs' := inv_of_step (some i) s₁ (.inr (.yieldEvent event)) a s' hs₁ (hallowed s₁ hown) h
      obtain ⟨hsent, hproduced, hfailed, hheard⟩ := at_iff.mp (hown.trans hat)
      obtain ⟨rfl, ⟨_, hfan⟩, hnoted⟩ := h
      refine ⟨hs', l.yields event, at_iff.mpr ?_, hgenerator.2 .next _ rfl⟩
      rw [hnoted, Function.update_self, hheard, show s'.fan = _ from hfan]
      dsimp only
      rw [Function.update_self, hproduced]
      exact ⟨hsent, rfl, hfailed, rfl⟩

/-- What follows of a worker once it has put an item. -/
theorem wp_put {α : Type} {item : FanItem StreamEvent} {Q : α → Sharded ι → Prop}
    {k : Unit → Prog (FanNet ι) α} (hs : Inv parse s)
    (hallowed : ∀ s₁, own (some i) s₁ = own (some i) s → MayPass parse i s₁ item)
    (h : ∀ s₁ s', own (some i) s₁ = own (some i) s → Passes i s₁.fan item s'.fan → s'.heard = s₁.heard →
      Inv parse s' → wp (among request parse (some i)) (k ()) Q s') :
    wp (among request parse (some i)) (Prog.call (I := FanNet ι) (.inl (.put item)) k) Q s := by
  refine (cooperative_await trivial).mpr
    ⟨hs, fun s₁ hs₁ hown => ⟨hallowed s₁ hown, fun a s' hstep => ?_⟩⟩
  exact h s₁ s' hown hstep.1 hstep.2
    (inv_of_step (some i) s₁ (.inl (.put item)) a s' hs₁ (hallowed s₁ hown) hstep)

/-- The loop of a worker. -/
theorem wp_produce (rounds : ℕ) {generator : Generator} (hs : Inv parse s)
    (hat : At i (events.map eventItem) events l s) (hgenerator : Delivers request parse generator l) :
    wp (among request parse (some i)) ((produce .aio rounds ()).handled onShard generator)
      (fun r s' => Inv parse s' ∧ ∀ e, r.1.1 = .error e → ∃ events l',
        At i (events.map eventItem) events l' s' ∧ Over parse (.error e) l') s := by
  -- between two rounds every event of the stream has been put into the queue
  induction rounds generalizing s events l generator with
  | zero => exact trivial
  | succ rounds ih =>
    change wp _ (anext generator >>= _) _ s
    rw [wp_bind]
    refine wp_mono (wp_anext hs hat hgenerator) ?_
    intro r s₁ hpost
    obtain ⟨hs₁, hr⟩ := hpost
    obtain ⟨r, generator₁⟩ := r
    cases r with
    | error e =>
      obtain ⟨l₁, hat₁, hover⟩ := hr
      refine ⟨hs₁, fun e' he' => ?_⟩
      cases he'
      exact ⟨events, l₁, hat₁, hover⟩
    | ok next =>
      cases next with
      | none =>
        refine ⟨hs₁, fun e' he' => ?_⟩
        cases he'
      | some event =>
        obtain ⟨l₁, hat₁, hgenerator₁⟩ := hr
        change wp _ (Prog.call (I := FanNet ι) (.inl (.put (some event, none))) fun _ =>
          (produce .aio rounds ()).handled onShard generator₁) _ s₁
        apply wp_put hs₁
        · intro s₂ hown
          obtain ⟨hsent, hproduced, hfailed, _⟩ := at_iff.mp (hown.trans hat₁)
          refine ⟨[], ?_⟩
          unfold Fan.history
          rw [hsent, hproduced, hfailed]
          simp [eventItem]
        · intro s₂ s₃ hown hpasses hheard hs₃
          obtain ⟨hsent, hproduced, hfailed, hlistens⟩ := at_iff.mp (hown.trans hat₁)
          obtain ⟨_, hfan⟩ := hpasses
          refine @ih s₃ (events ++ [event]) l₁ generator₁ hs₃ (at_iff.mpr ?_) hgenerator₁
          rw [hheard, show s₃.fan = _ from hfan]
          refine ⟨?_, hproduced, hfailed, hlistens⟩
          unfold Fan.sent at hsent ⊢
          dsimp only
          rw [← List.append_assoc, ofShard_append _ [_], ofShard_self, hsent]
          simp [eventItem]

/-- A worker passes on all that its stream has yielded, and how it ended. -/
theorem wp_worker (rounds : ℕ) {generator : Generator} (hs : Inv parse s)
    (hat : At i (events.map eventItem) events l s) (hgenerator : Delivers request parse generator l) :
    wp (among request parse (some i)) ((worker .aio rounds ()).handled onShard generator)
      (fun _ s' => Inv parse s') s := by
  unfold worker
  rw [attempt_bind_apply, Prog.handled_bind, wp_bind]
  refine wp_mono (wp_produce rounds hs hat hgenerator) ?_
  intro r s₁ hpost
  obtain ⟨hs₁, hr⟩ := hpost
  obtain ⟨⟨r, v⟩, generator₁⟩ := r
  cases r with
  | ok _ => exact hs₁
  | error e =>
    obtain ⟨events, l₁, hat₁, hover⟩ := hr e rfl
    change wp _ (Prog.handled onShard ((if Package.aio = .aio ∧ e = .cancelled then throw e
      else FanOut.perform (.put (none, some e)) : FanM ι StreamEvent Unit) ()) generator₁) _ s₁
    split
    · exact hs₁
    · apply wp_put hs₁
      · intro s₂ hown
        obtain ⟨hsent, hproduced, hfailed, hheard⟩ := at_iff.mp (hown.trans hat₁)
        refine ⟨hfailed, ?_, ?_⟩
        · rw [hsent, hproduced]
        · rw [hheard]
          exact hover.leftOut
      · exact fun _ _ _ _ _ hs₃ => hs₃

/-- The generator of the fan-out does what it does over streams of any kind. -/
theorem wp_of_fan {α : Type} {p : Prog (FanOps ι StreamEvent) α} {Q : α → Fan ι StreamEvent → Prop}
    (generator : Generator) (hs : Inv parse s) (h : wp (FanOutMerge.among none) p Q s.fan) :
    wp (among request parse none) (p.handled onShard generator)
      (fun r s' => Inv parse s' ∧ Q r.1 s'.fan) s := by
  induction p generalizing s with
  | pure a => exact ⟨hs, h⟩
  | halt => exact trivial
  | call op k ih =>
    obtain ⟨⟨_, hpermits⟩, hstep⟩ := h
    have hbetween : ∀ {s₁ : Sharded ι}, Inv parse s₁ → own none s₁ = own none s →
        Between FanOutMerge.awaits FanOutMerge.Inv (FanOutMerge.own none) s.fan op s₁.fan := by
      intro s₁ hs₁ hown
      exact .inr ⟨trivial, hs₁.fan, congrArg Prod.fst hown⟩
    have hhandled : wp (among request parse none) (Prog.call (I := FanNet ι) (.inl op) fun a =>
        (k a).handled onShard generator) (fun r s' => Inv parse s' ∧ Q r.1 s'.fan) s := by
      refine (cooperative_await trivial).mpr ⟨hs, fun s₁ hs₁ hown => ?_⟩
      have hallowed : mergerPermits s₁.fan op := hpermits s₁.fan (hbetween hs₁ hown)
      refine ⟨hallowed, fun a s' hop => ?_⟩
      exact ih a (inv_of_step none s₁ (.inl op) a s' hs₁ hallowed hop)
        (hstep a s'.fan ⟨s₁.fan, hbetween hs₁ hown, hop.1⟩)
    cases op with
    | next => exact (hpermits s.fan (.inl rfl)).elim
    | _ => exact hhandled

end Contracts

/-! ## Every interleaving -/

/-- The generator and a worker for each shard, before anything ran. -/
def tasks (config : ι → ClientConfig) (subscription : Subscription) (shards : List ι)
    (rounds : Option ι → ℕ) :
    Tasks (FanNet ι) (Option ι) ((Except Exc Unit × Unit) × Generator) (Sharded ι) where
  running := none
  prog := prog config subscription shards rounds
  state := {}

/-- What the generator of the fan-out leaves when it raises. -/
def Outcome (t : Option ι) (r : (Except Exc Unit × Unit) × Generator) (place :
    ((List (ι × FanItem StreamEvent) × List (ι × StreamEvent) × Bool) ⊕
      (List (FanItem StreamEvent) × List StreamEvent × Option Exc)) × Option Listening) : Prop :=
  FanOutMerge.Outcome t r.1 place.1

/-- Every task meets its contract from the start. -/
theorem keeping_start (config : ι → ClientConfig) (subscription : Subscription) (shards : List ι)
    (rounds : Option ι → ℕ) (t : Option ι) (s : Sharded ι) (hs : Inv subscription.parse s)
    (hown : own t s = own t (tasks config subscription shards rounds).state) :
    Keeping (env (request subscription) subscription.parse) awaits
      (Inv subscription.parse) own Outcome t
      (prog config subscription shards rounds t) s := by
  cases t with
  | none =>
    have hfan : FanOutMerge.own none s.fan = .inl ([], [], false) := congrArg Prod.fst hown
    refine wp_mono (wp_of_fan _ hs (wpm_fanOut .aio shards (rounds none) hs.fan ⟨[], hfan⟩)) ?_
    intro r s' hpost
    obtain ⟨⟨r, v⟩, generator⟩ := r
    obtain ⟨hs', -, hraised⟩ := hpost
    refine ⟨hs', ?_⟩
    cases r with
    | error e => exact hraised e rfl
    | ok _ => exact trivial
  | some i =>
    have hat : At i (([] : List StreamEvent).map eventItem) [] {} s := hown
    refine wp_mono (wp_worker (rounds (some i)) hs hat
      (wpm_subscribe .aio (config i) (rounds (some i)) subscription)) ?_
    exact fun _ _ hs' => ⟨hs', trivial⟩

/-- In every interleaving of the fan-out over the clients of the shards, what the consumer gets from a
shard is, in order, what the subscriptions of that shard yielded: the events of the first frames that
its server sent. When the fan-out raises an error of its own, it is that of a stream whose events were
all yielded. -/
theorem sharded_streams_delivered (config : ι → ClientConfig) (subscription : Subscription)
    (shards : List ι) (rounds : Option ι → ℕ) (awaits : (FanNet ι).Op → Prop)
    (t : Tasks (FanNet ι) (Option ι) ((Except Exc Unit × Unit) × Generator) (Sharded ι))
    (h : Tasks.Reaches (env (request subscription) subscription.parse) awaits
      (tasks config subscription shards rounds) t) :
    (∀ i, Sound subscription.parse (t.state.heard i) ∧
      FanOutMerge.ofShard i t.state.fan.yielded <+: (t.state.heard i).events ∧
      ∀ feed ∈ (t.state.heard i).feeds, ∀ sent : List Bytes,
        (∀ payload ∈ sent, payload.length < 2 ^ 32) →
        feed.received <+: (sent.map frameOf).flatten →
        feed.yielded.map Except.ok <+: sent.map subscription.parse) ∧
    ∀ e generator, t.prog none = .pure ((.error e, ()), generator) → t.state.fan.closed = false →
      ∃ i, t.state.fan.failed i = some e ∧
        FanOutMerge.ofShard i t.state.fan.yielded = (t.state.heard i).events ∧
        ∀ feed ∈ (t.state.heard i).feeds.head?, LeftOut subscription.parse (.error e) feed := by
  have hinv : Inv subscription.parse (tasks config subscription shards rounds).state := by
    refine ⟨⟨fun i => List.nil_prefix, List.prefix_rfl⟩, fun i => resting_start.sound, fun i => rfl, ?_⟩
    intro i e he
    cases he
  have hstart := keeping_start config subscription shards rounds
  have hreaches : Tasks.Reaches (env (request subscription) subscription.parse) ShardedStreams.awaits
      (tasks config subscription shards rounds) t := h.mono fun _ _ => trivial
  have hinv' : Inv subscription.parse t.state :=
    Tasks.inv_of_reaches (fun i j s o a s' hne _ _ => own_other i j s o a s' hne) inv_of_step
      hinv hstart hreaches
  have hsound := Tasks.sound_of_reaches (fun i j s o a s' hne _ _ => own_other i j s o a s' hne) hinv
    hstart hreaches
  constructor
  · intro i
    refine ⟨hinv'.sound i, ?_, ?_⟩
    · rw [hinv'.events]
      exact hinv'.fan.prefix_produced i
    · intro feed hmem sent hsent hreceived
      obtain ⟨rest, hshows⟩ := (hinv'.sound i).shows feed hmem
      exact hshows.sent hsent hreceived
  · intro e generator hraised hclosed
    obtain ⟨i, hpopped⟩ := hsound.ended_of_inv hinv' hraised hclosed
    -- the error comes behind the events of its shard in the queue
    obtain ⟨hfailed, hall⟩ := hinv'.fan.all_yielded hpopped
    refine ⟨i, hfailed, ?_, hinv'.failed i e hfailed⟩
    rw [hinv'.events, hall]

/-! ## Servers that close the connections of subscriptions -/

/-- The connection of the pool, and one frame on it. -/
def netAnswer (frame : Bytes) (l : Listening) : (op : NetOp) → op.Answer
  | .awaitSlot => .ok (some .pooled)
  | .readexactly _ size =>
    let received := (l.feeds.head?.map Feed.received).getD []
    let data := (frame.drop received.length).take size
    if h : data.length = size then .ok ⟨data, h⟩ else .error .incomplete
  | op => NetOp.calm op

/-- What the shards and the queue answer. -/
def answer (frame : ι → Bytes) : Option ι → Sharded ι → (op : (FanNet ι).Op) →
    Option ((FanNet ι).Ans op × Sharded ι)
  | none, s, .inl (.start shard) =>
    some ((), { s with fan := { s.fan with started := shard :: s.fan.started } })
  | none, s, .inl .awaitGet =>
    match s.fan.queue with
    | (i, item) :: queue =>
      some (.ok item, { s with fan := { s.fan with queue := queue, popped := s.fan.popped ++ [(i, item)] } })
    | [] => none
  | none, s, .inl (.yieldEvent event) =>
    some (.next, { s with fan := { s.fan with
      yielded := s.fan.yielded ++ s.fan.attributed event, closed := s.fan.closed || false } })
  | none, s, .inl (.cancel _) => some ((), s)
  | none, s, .inl .gather => some (.ok (), s)
  | some i, s, .inl (.put (event, none)) =>
    if i ∈ s.fan.started then
      some ((), { s with fan := { s.fan with queue := s.fan.queue ++ [(i, (event, none))] } })
    else none
  | some i, s, .inl (.put (event, some e)) =>
    if i ∈ s.fan.started then
      some ((), { s with fan := { s.fan with
        failed := Function.update s.fan.failed i (some e),
          queue := s.fan.queue ++ [(i, (event, some e))] } })
    else none
  | some i, s, .inr (.yieldEvent event) =>
    if i ∈ s.fan.started then
      some (.next,
        { fan := { s.fan with produced := Function.update s.fan.produced i (s.fan.produced i ++ [event]) },
          heard := Function.update s.heard i ((s.heard i).yields event) })
    else none
  | some i, s, .inr op =>
    if i ∈ s.fan.started then
      let a := netAnswer (frame i) (s.heard i) op
      some (a, { s with heard := Function.update s.heard i (note (request .stream) (s.heard i) op a) })
    else none
  | _, _, _ => none

theorem step_answer (frame : ι → Bytes) (t : Option ι) (s : Sharded ι) (op : (FanNet ι).Op)
    (a : (FanNet ι).Ans op) (s' : Sharded ι) (h : answer frame t s op = some (a, s')) :
    (env (request .stream) Subscription.stream.parse t).step s op a s' := by
  cases t with
  | none =>
    cases op with
    | inr op => cases h
    | inl op =>
      cases op with
      | awaitGet =>
        cases hqueue : s.fan.queue with
        | nil => simp [answer, hqueue] at h
        | cons item queue =>
          simp only [answer, hqueue] at h
          cases h
          exact ⟨⟨item.1, queue, hqueue, rfl⟩, rfl⟩
      | start | yieldEvent | cancel | gather =>
        cases h
        exact ⟨rfl, rfl⟩
      | _ => cases h
  | some i =>
    cases op with
    | inl op =>
      cases op with
      | put item =>
        obtain ⟨event, error⟩ := item
        cases error with
        | none =>
          obtain ⟨hstarted, h⟩ := Option.ite_none_right_eq_some.mp h
          cases h
          exact ⟨⟨hstarted, rfl⟩, rfl⟩
        | some e =>
          obtain ⟨hstarted, h⟩ := Option.ite_none_right_eq_some.mp h
          cases h
          exact ⟨⟨_, ⟨hstarted, rfl⟩, hstarted, rfl⟩, rfl⟩
      | _ => cases h
    | inr op =>
      cases op with
      | yieldEvent event =>
        obtain ⟨hstarted, h⟩ := Option.ite_none_right_eq_some.mp h
        cases h
        exact ⟨rfl, ⟨hstarted, rfl⟩, rfl⟩
      | _ =>
        obtain ⟨hstarted, h⟩ := Option.ite_none_right_eq_some.mp h
        cases h
        exact ⟨hstarted, rfl, rfl⟩

/-- The clients do not reconnect. -/
def twoStreams : Tasks (FanNet Bool) (Option Bool) ((Except Exc Unit × Unit) × Generator) (Sharded Bool) :=
  tasks (fun _ => { settings := Connection.pooled.settings, reconnect := { maxAttempts := some 0 } }) .stream
    [false, true] fun _ => 4

def eventOf : Bool → StreamEvent
  | false => .limit ⟨"hit".toList, 60, 1, 2⟩
  | true => .limit ⟨"miss".toList, 60, 3, 4⟩

def eventFrame : Bool → Bytes
  | false => frameOf limitEvent
  | true => frameOf (encodeUtf8 "ok|miss;60;3;4".toList)

/-- The workers take turns, the second passes on its event and the first ends, before the generator goes
on. -/
def turns : List (Option Bool × ℕ) :=
  [(none, 2), (some true, 6), (some false, 9), (some true, 6), (some false, 8), (none, 8)]

/-- Both events are yielded, and then the error raised. -/
def passedOn (t : Tasks (FanNet Bool) (Option Bool) ((Except Exc Unit × Unit) × Generator) (Sharded Bool)) :
    Bool :=
  match t.prog none with
  | .pure ((.error e, _), _) => e = .connectionError .closedByServer ∧ t.state.fan.closed = false ∧
      t.state.fan.yielded = [(true, eventOf true), (false, eventOf false)]
  | _ => false

theorem two_shards_are_delivered :
    ∃ t : Tasks (FanNet Bool) (Option Bool) ((Except Exc Unit × Unit) × Generator) (Sharded Bool),
      t.state.fan.yielded = [(true, eventOf true), (false, eventOf false)] ∧
      ∃ i, t.state.fan.failed i = some (.connectionError .closedByServer) ∧
        FanOutMerge.ofShard i t.state.fan.yielded = (t.state.heard i).events ∧
        ∀ feed ∈ (t.state.heard i).feeds.head?,
          LeftOut Subscription.stream.parse (.error (.connectionError .closedByServer)) feed := by
  have hplays : (twoStreams.play (answer eventFrame) turns).any passedOn = true := by decide +kernel
  obtain ⟨t, hreaches, hpassed⟩ := Tasks.exists_of_plays (step_answer eventFrame) hplays
  unfold passedOn at hpassed
  split at hpassed
  next e _ generator hprog =>
    obtain ⟨rfl, hclosed, hyielded⟩ := of_decide_eq_true hpassed
    exact ⟨t, hyielded, (sharded_streams_delivered _ _ _ _ _ t hreaches).2 _ generator hprog hclosed⟩
  next => cases hpassed

end FqClient.ShardedStreams
