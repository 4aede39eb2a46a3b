import FqClient.AtMostOnce
import FqClient.ClientMethods
import FqClient.FrameReads
import FqClient.OwnResponses

namespace FqClient.Linearization

open Effects HeldLines OwnResponses PooledLines

variable {ι D : Type}

/-! ## The server behind the connections -/

/-- A request that the server has handled, with the task that sent it. -/
structure Handled (ι : Type) where
  task : ι
  frame : Bytes
  response : Bytes
  deriving DecidableEq

/-- A request on its way to the server, with the response that its task will read, if anybody will read
one. -/
structure Underway (ι : Type) where
  task : ι
  frame : Bytes
  response : Option Bytes
  deriving DecidableEq

/-- The database, and the requests that the server has yet to handle. Only the proof keeps the requests
handled so far and the events of every task. -/
structure Backend (ι D : Type) where
  db : D
  underway : List (Underway ι)
  handled : List (Handled ι)
  events : ι → List (Event Net)

/-- The clients and the server. -/
structure System (ι D : Type) where
  pool : Shared ι Line Exchange
  backend : Backend ι D

/-- A request that is written may be lost with its connection. -/
def transfer : (op : NetOp) → op.Answer → Line → Exchange → Line → Exchange → Prop
  | .sendall _ frame, .ok _, l, _, l', n' | .writeDrain _ frame, .ok _, l, _, l', n' =>
    l.Asked frame l' n' ∨ l' = .lost ∧ n' = none
  | op, a, l, n, l', n' => Line.transfer op a l n l' n'

def wire : Wire ι Line Exchange where
  fresh := .live []
  Owed := Line.Owed
  transfer _ := transfer

/-- A byte of a response arrives. -/
def brings : Event Net → Bool
  | ⟨.recv _ _, .ok chunk⟩ => !chunk.1.isEmpty
  | ⟨.readexactly _ _, .ok data⟩ => !data.1.isEmpty
  | _ => false

/-- Whether a byte has arrived since the last request. -/
def hears (heard : Bool) : Event Net → Bool
  | ⟨.sendall _ _, _⟩ | ⟨.writeDrain _ _, _⟩ => false
  | event => heard || brings event

def heard (log : List (Event Net)) : Bool := log.foldl hears false

section Server
variable (serve : Bytes → D → Bytes × D)

namespace Backend

/-- The server handles a request. -/
def handle (b : Backend ι D) (i : ι) (frame : Bytes) : Backend ι D :=
  { b with
    db := (serve frame b.db).2, handled := b.handled ++ [⟨i, frame, (serve frame b.db).1⟩] }

def noted [DecidableEq ι] (b : Backend ι D) (i : ι) (e : Event Net) : Backend ι D :=
  { b with events := Function.update b.events i (b.events i ++ [e]) }

/-- A request of the task is on its way whose response will be read. -/
def Pending (b : Backend ι D) (i : ι) : Prop := ∃ r ∈ b.underway, r.task = i ∧ r.response ≠ none

end Backend

/-- The server comes to a request on its way. A response that will be read is the one that it gives now. -/
inductive Comes : Backend ι D → Backend ι D → Prop
  | handle {b : Backend ι D} {before after : List (Underway ι)} {r : Underway ι}
      (h : b.underway = before ++ r :: after)
      (hresponse : ∀ response, r.response = some response → response = (serve r.frame b.db).1) :
      Comes b (Backend.handle serve { b with underway := before ++ after } r.task r.frame)

/-- A request that arrives whole is on its way; without a response that will be read, it may also be
lost. -/
def Takes (i : ι) (frame : Bytes) (delivered : Bool) : Exchange → Backend ι D → Backend ι D → Prop
  | some (_, response), b, b' =>
    delivered = true ∧ b' = { b with underway := ⟨i, frame, some response⟩ :: b.underway }
  | none, b, b' =>
    b' = b ∨ delivered = true ∧ b' = { b with underway := ⟨i, frame, none⟩ :: b.underway }

/-- What an operation of task `i` brings to the server. The bytes of a response arrive once the server
has given it. -/
def Receives (i : ι) : (op : NetOp) → op.Answer → Exchange → Backend ι D → Backend ι D → Prop
  | .sendall sock frame, a, n, b, b' => Takes i frame (delivers frame ⟨.sendall sock frame, a⟩) n b b'
  | .writeDrain sock frame, a, n, b, b' =>
    Takes i frame (delivers frame ⟨.writeDrain sock frame, a⟩) n b b'
  | op, a, _, b, b' => b' = b ∧ (brings ⟨op, a⟩ = true → ¬ b.Pending i)

variable [DecidableEq ι]

/-- The operations of the tasks over one pool, with the server at the other end: it handles what is on
its way at any time, in any order. -/
def step (i : ι) (s : System ι D) (op : NetOp) (a : op.Answer) (s' : System ι D) : Prop :=
  PooledLines.step wire i s.pool op a s'.pool ∧
    ∃ b, Receives i op a (s'.pool.note i) s.backend b ∧
      Relation.ReflTransGen (Comes serve) (b.noted i ⟨op, a⟩) s'.backend

def env (i : ι) : World Net (System ι D) where
  permits s := permits i s.pool
  step := step serve i

/-- No connection is put back while a response to it is outstanding. -/
def world (i : ι) : World Net (System ι D) := (env serve i).given fun s => Settled wire s.pool

end Server

/-! ## What the server has done -/

section Ledger
variable (serve : Bytes → D → Bytes × D)

/-- One database that handles these requests in this order gives these responses. -/
def Explains : D → List (Handled ι) → D → Prop
  | db, [], db' => db' = db
  | db, e :: handled, db' =>
    e.response = (serve e.frame db).1 ∧ Explains (serve e.frame db).2 handled db'

variable {serve}

theorem Explains.concat {db db' : D} {handled : List (Handled ι)} (h : Explains serve db handled db')
    (i : ι) (frame : Bytes) :
    Explains serve db (handled ++ [⟨i, frame, (serve frame db').1⟩]) (serve frame db').2 := by
  induction handled generalizing db with
  | nil =>
    rw [show db' = db from h]
    exact ⟨rfl, rfl⟩
  | cons e handled ih => exact ⟨h.1, ih h.2⟩

theorem heard_concat (log : List (Event Net)) (e : Event Net) :
    heard (log ++ [e]) = hears (heard log) e := by simp [heard]

/-- What is delivered was handed over. -/
theorem sends_of_delivers {frame : Bytes} {event : Event Net} (h : delivers frame event = true) :
    event.1.Sends frame := by
  obtain ⟨op, answer⟩ := event
  cases op <;> first | exact (of_decide_eq_true h).1 | cases h

theorem sends_unique {frame frame' : Bytes} {op : NetOp} (h : op.Sends frame) (h' : op.Sends frame') :
    frame = frame' := by
  cases op <;> first | exact h.symm.trans h' | exact h.elim

/-- Bytes that are read have arrived. -/
theorem brings_of_readData (p : Package) {sock : SockId} {size : ℕ} (a : (p.readOp sock size).Answer)
    (h : p.readData a ≠ []) : brings ⟨p.readOp sock size, a⟩ = true := by
  cases p with
  | sync =>
    cases a with
    | ok chunk => simpa [brings, Package.readOp] using show chunk.1 ≠ [] from h
    | error fault => exact absurd rfl h
  | aio =>
    cases a with
    | ok data => simpa [brings, Package.readOp] using show data.1 ≠ [] from h
    | error fault => exact absurd rfl h

theorem hears_of_sends {frame : Bytes} {op : NetOp} {a : op.Answer} {heard : Bool}
    (h : op.Sends frame) :
    hears heard ⟨op, a⟩ = false := by
  cases op <;> first | exact h.elim | rfl

theorem hears_of_not_sends {op : NetOp} {a : op.Answer} {heard : Bool} (h : ∀ frame, ¬ op.Sends frame) :
    hears heard ⟨op, a⟩ = (heard || brings ⟨op, a⟩) := by
  cases op with
  | sendall | writeDrain => exact absurd rfl (h _)
  | _ => rfl

variable [DecidableEq ι]

/-- How often the server has handled this request of a task. -/
def requests (i : ι) (frame : Bytes) (handled : List (Handled ι)) : ℕ :=
  handled.countP fun e => e.task = i ∧ e.frame = frame

/-- The requests that the server has handled, or may handle yet. -/
def Backend.received (b : Backend ι D) (i : ι) (frame : Bytes) : ℕ :=
  requests i frame b.handled + b.underway.countP fun r => r.task = i ∧ r.frame = frame

/-- What is known of the server in every run. -/
structure Ledger (serve : Bytes → D → Bytes × D) (db₀ : D) (note : ι → Exchange) (b : Backend ι D) :
    Prop where
  explains : Explains serve db₀ b.handled b.db
  answered : ∀ i frame response, note i = some (frame, response) →
    ⟨i, frame, response⟩ ∈ b.handled ∨ ⟨i, frame, some response⟩ ∈ b.underway
  unheard : ∀ i, b.Pending i → heard (b.events i) = false
  counted : ∀ i frame, b.received i frame ≤ deliveries frame (b.events i)

theorem received_of_comes {b b' : Backend ι D} (h : Comes serve b b') (i : ι) (frame : Bytes) :
    b'.received i frame = b.received i frame := by
  obtain ⟨hsplit, _⟩ := h
  unfold Backend.received requests
  rw [hsplit]
  simp only [Backend.handle, List.countP_append, List.countP_cons, List.countP_nil]
  omega

/-- The server comes to a request. -/
theorem ledger_of_comes {db₀ : D} {note : ι → Exchange} {b b' : Backend ι D}
    (hb : Ledger serve db₀ note b) (h : Comes serve b b') : Ledger serve db₀ note b' := by
  have hreceived := received_of_comes h
  cases h with
  | @handle before after r hsplit hresponse =>
    have hrest : ∀ {r' : Underway ι}, r' ∈ before ++ after → r' ∈ b.underway := by
      intro r' hr'
      rw [hsplit]
      exact (List.mem_append.mp hr').elim (List.mem_append_left _)
        fun h => List.mem_append_right _ (List.mem_cons_of_mem _ h)
    refine ⟨hb.explains.concat _ _, fun i frame response hnote => ?_, fun i ⟨r', hr', hpending⟩ => ?_,
      fun i frame => (hreceived i frame).trans_le (hb.counted i frame)⟩
    · rcases hb.answered i frame response hnote with hhandled | hunderway
      · exact Or.inl (List.mem_append_left _ hhandled)
      · rw [hsplit] at hunderway
        rcases List.mem_append.mp hunderway with hbefore | hafter
        · exact Or.inr (List.mem_append_left _ hbefore)
        · rcases List.mem_cons.mp hafter with hr | hafter
          -- the request that is awaited is the one that the server has come to
          · left
            subst hr
            rw [hresponse response rfl]
            exact List.mem_append_right _ (List.mem_singleton_self _)
          · exact Or.inr (List.mem_append_right _ hafter)
    · exact hb.unheard i ⟨r', hrest hr', hpending⟩

theorem ledger_of_all_comes {db₀ : D} {note : ι → Exchange} {b b' : Backend ι D}
    (hb : Ledger serve db₀ note b) (h : Relation.ReflTransGen (Comes serve) b b') :
    Ledger serve db₀ note b' := by
  induction h with
  | refl => exact hb
  | tail _ hcomes ih => exact ledger_of_comes ih hcomes

omit [DecidableEq ι] in
theorem handled_of_comes {b b' : Backend ι D} (h : Relation.ReflTransGen (Comes serve) b b') :
    b.handled <+: b'.handled ∧ b'.events = b.events := by
  induction h with
  | refl => exact ⟨List.prefix_rfl, rfl⟩
  | tail _ hcomes ih =>
    obtain ⟨_, _⟩ := hcomes
    exact ⟨ih.1.trans (List.prefix_append _ _), ih.2⟩

omit [DecidableEq ι] in
/-- An operation brings the server nothing, or puts a request on its way. -/
theorem receives_cases {i : ι} {op : NetOp} {a : op.Answer} {n : Exchange} {b b' : Backend ι D}
    (h : Receives i op a n b b') :
    (b' = b ∧ ((∃ frame, op.Sends frame) ∧ n = none ∨
      (∀ frame, ¬ op.Sends frame) ∧ (brings ⟨op, a⟩ = true → ¬ b.Pending i))) ∨
    ∃ frame, delivers frame ⟨op, a⟩ = true ∧
      b' = { b with underway := ⟨i, frame, n.map Prod.snd⟩ :: b.underway } := by
  cases op with
  | sendall sock frame | writeDrain sock frame =>
    cases n with
    | some exchange => exact Or.inr ⟨frame, h⟩
    | none =>
      rcases h with h | h
      · exact Or.inl ⟨h, Or.inl ⟨⟨frame, rfl⟩, rfl⟩⟩
      · exact Or.inr ⟨frame, h⟩
  | _ => exact Or.inl ⟨h.1, Or.inr ⟨fun _ => id, h.2⟩⟩

omit [DecidableEq ι] in
/-- Where a request is answered, the response is noted with it. -/
theorem note_of_asked {frame : Bytes} {l l' : Line} {n : Exchange}
    (h : l.Asked frame l' n ∨ l' = .lost ∧ n = none) :
    n = none ∨ ∃ response, n = some (frame, response) := by
  rcases h with h | h
  · cases l with
    | live unread =>
      obtain ⟨response, _, _, hn⟩ := h
      exact Or.inr ⟨response, hn⟩
    | torn | lost => exact Or.inl h.2
  · exact Or.inl h.2

/-- What an operation of a task leaves noted of it. -/
def Notes (op : NetOp) (n n' : Exchange) : Prop :=
  n' = n ∨ n' = none ∨ ∃ frame response, op.Sends frame ∧ n' = some (frame, response)

omit [DecidableEq ι] in
theorem notes_of_transfer {op : NetOp} {a : op.Answer} {l l' : Line} {n n' : Exchange}
    (h : transfer op a l n l' n') : Notes op n n' := by
  cases op with
  | sendall sock frame | writeDrain sock frame =>
    cases a with
    | error fault => exact Or.inr (Or.inl h.2)
    | ok _ =>
      refine Or.inr ((note_of_asked h).imp_right fun hn => ?_)
      obtain ⟨response, hn⟩ := hn
      exact ⟨frame, response, rfl, hn⟩
  | recv sock size =>
    left
    cases a with
    | ok chunk => exact h.2
    | error fault => cases fault <;> exact h.2
  | readexactly sock size =>
    left
    cases a with
    | ok data => exact h.2
    | error fault => cases fault <;> exact h.2
  | _ => exact Or.inl h.2

theorem notes_of_transfers {s s' : Shared ι Line Exchange} {i : ι} {sock : SockId} {op : NetOp}
    {a : op.Answer} (h : s.Transfers wire i sock op a s') :
    (∀ j, j ≠ i → s'.note j = s.note j) ∧ Notes op (s.note i) (s'.note i) := by
  obtain ⟨l, n, htransfer, rfl⟩ := h
  constructor
  · exact fun j hj => Function.update_of_ne hj _ _
  · dsimp only
    rw [Function.update_self]
    exact notes_of_transfer htransfer

theorem notes_of_step {s s' : Shared ι Line Exchange} {i : ι} {op : NetOp} {a : op.Answer}
    (h : PooledLines.step wire i s op a s') :
    (∀ j, j ≠ i → s'.note j = s.note j) ∧ Notes op (s.note i) (s'.note i) := by
  have hsame : ∀ {s₁ : Shared ι Line Exchange}, s' = s₁ → s₁.note = s.note →
      (∀ j, j ≠ i → s'.note j = s.note j) ∧ Notes op (s.note i) (s'.note i) := by
    intro s₁ heq hnote
    rw [heq, hnote]
    exact ⟨fun _ _ => rfl, Or.inl rfl⟩
  cases op with
  | sendall | recv | writeDrain | readexactly => exact notes_of_transfers h
  | createConnection host port timeout | openConnection host port hostname =>
    cases a with
    | error fault => exact hsame h rfl
    | ok sock => exact hsame h.2 rfl
  | getSlot timeout =>
    cases a with
    | none => exact hsame h rfl
    | some slot =>
      obtain ⟨slots, _, h⟩ := h
      exact hsame h rfl
  | awaitSlot =>
    cases a with
    | error fault => exact hsame h rfl
    | ok slot =>
      obtain ⟨slots, _, h⟩ := h
      exact hsame h rfl
  | _ => exact hsame h rfl

/-- What is known of the server after an operation of a task. -/
theorem ledger_of_receives {db₀ : D} {note note' : ι → Exchange} {b b' : Backend ι D}
    {i : ι} {op : NetOp}
    {a : op.Answer} (hb : Ledger serve db₀ note b) (hothers : ∀ j, j ≠ i → note' j = note j)
    (hnotes : Notes op (note i) (note' i)) (h : Receives i op a (note' i) b b') :
    Ledger serve db₀ note' (b'.noted i ⟨op, a⟩) := by
  have hcases := receives_cases h
  have hsame : b'.db = b.db ∧ b'.handled = b.handled ∧ b'.events = b.events := by
    rcases hcases with ⟨rfl, _⟩ | ⟨frame, _, rfl⟩ <;> exact ⟨rfl, rfl, rfl⟩
  obtain ⟨hdb, hhandled, hevents⟩ := hsame
  have hkept : ∀ r ∈ b.underway, r ∈ b'.underway := by
    rcases hcases with ⟨rfl, _⟩ | ⟨frame, _, rfl⟩
    · exact fun _ hr => hr
    · exact fun _ hr => List.mem_cons_of_mem _ hr
  refine ⟨?_, fun j frame response hnote => ?_, fun j hpending => ?_, fun j frame => ?_⟩
  · change Explains serve db₀ b'.handled b'.db
    rw [hdb, hhandled]
    exact hb.explains
  · change _ ∈ b'.handled ∨ _ ∈ b'.underway
    rw [hhandled]
    by_cases hj : j = i
    · subst hj
      -- the note is as before, taken back, or that of the request that is now on its way
      rcases hnotes with hn | hn | ⟨frame', response', hsends, hn⟩
      · exact (hb.answered j frame response (hn.symm.trans hnote)).imp_right (hkept _)
      · rw [hn] at hnote
        cases hnote
      · obtain ⟨rfl, rfl⟩ := Prod.mk.inj (Option.some.inj (hn.symm.trans hnote))
        rcases hcases with ⟨_, ⟨_, hnone⟩ | ⟨hnot, _⟩⟩ | ⟨frame, hdelivers, rfl⟩
        · rw [hnone] at hnote
          cases hnote
        · exact absurd hsends (hnot _)
        · rw [hnote, sends_unique (sends_of_delivers hdelivers) hsends]
          exact Or.inr List.mem_cons_self
    · exact (hb.answered j frame response ((hothers j hj).symm.trans hnote)).imp_right (hkept _)
  · change heard (Function.update b'.events i (b'.events i ++ [⟨op, a⟩]) j) = false
    rw [hevents]
    by_cases hj : j = i
    · subst hj
      rw [Function.update_self, heard_concat]
      rcases hcases with ⟨rfl, ⟨⟨frame, hsends⟩, _⟩ | ⟨hnot, hbrings⟩⟩ | ⟨frame, hdelivers, rfl⟩
      · exact hears_of_sends hsends
      · rw [hears_of_not_sends hnot, hb.unheard j hpending, Bool.false_or]
        exact Bool.eq_false_iff.mpr fun h => hbrings h hpending
      · exact hears_of_sends (sends_of_delivers hdelivers)
    · rw [Function.update_of_ne hj]
      apply hb.unheard
      obtain ⟨r, hr, htask, hresponse⟩ := hpending
      rcases hcases with ⟨rfl, _⟩ | ⟨frame, _, rfl⟩
      · exact ⟨r, hr, htask, hresponse⟩
      · rcases List.mem_cons.mp hr with rfl | hr
        · exact absurd htask.symm hj
        · exact ⟨r, hr, htask, hresponse⟩
  · have hbefore := hb.counted j frame
    change b'.received j frame ≤ deliveries frame
      (Function.update b'.events i (b'.events i ++ [⟨op, a⟩]) j)
    rw [hevents]
    have hmore : deliveries frame (b.events j) ≤
        deliveries frame (Function.update b.events i (b.events i ++ [⟨op, a⟩]) j) := by
      by_cases hj : j = i
      · rw [hj, Function.update_self, deliveries_concat]
        exact Nat.le_add_right _ _
      · rw [Function.update_of_ne hj]
    rcases hcases with ⟨rfl, _⟩ | ⟨frame', hdelivers, rfl⟩
    · exact hbefore.trans hmore
    · unfold Backend.received at hbefore ⊢
      simp only [List.countP_cons, decide_eq_true_eq]
      -- the request that is put on its way is a delivery that the log gains
      split
      next hown =>
        obtain ⟨rfl, rfl⟩ := hown
        rw [Function.update_self, deliveries_concat, hdelivers]
        simp only [if_true]
        omega
      next => exact hbefore.trans hmore

/-- An operation is the next event of its task, and none of the others. -/
theorem events_of_step {s s' : System ι D} {i : ι} {op : NetOp} {a : op.Answer}
    (h : step serve i s op a s') : s'.backend.events =
      Function.update s.backend.events i (s.backend.events i ++ [⟨op, a⟩]) := by
  obtain ⟨_, b, hreceives, hcomes⟩ := h
  have hsame : b.events = s.backend.events := by
    rcases receives_cases hreceives with ⟨rfl, _⟩ | ⟨frame, _, rfl⟩ <;> rfl
  rw [(handled_of_comes hcomes).2, Backend.noted, hsame]

/-- One operation of a task, with the server at the other end. -/
theorem ledger_of_step {db₀ : D} {s s' : System ι D} {i : ι} {op : NetOp} {a : op.Answer}
    (hs : Ledger serve db₀ s.pool.note s.backend) (h : step serve i s op a s') :
    Ledger serve db₀ s'.pool.note s'.backend := by
  obtain ⟨hpool, b, hreceives, hcomes⟩ := h
  obtain ⟨hothers, hnotes⟩ := notes_of_step hpool
  exact ledger_of_all_comes (ledger_of_receives hs hothers hnotes hreceives) hcomes

/-- What the server has handled is never taken back. -/
theorem handled_of_step {s s' : System ι D} {i : ι} {op : NetOp} {a : op.Answer}
    (h : step serve i s op a s') : s.backend.handled <+: s'.backend.handled := by
  obtain ⟨_, b, hreceives, hcomes⟩ := h
  have hsame : b.handled = s.backend.handled := by
    rcases receives_cases hreceives with ⟨rfl, _⟩ | ⟨frame, _, rfl⟩ <;> rfl
  rw [← hsame]
  exact (handled_of_comes hcomes).1

/-- What the server has handled was delivered by its task. -/
theorem Ledger.delivered {db₀ : D} {note : ι → Exchange} {b : Backend ι D}
    (hb : Ledger serve db₀ note b)
    {e : Handled ι} (he : e ∈ b.handled) : 0 < deliveries e.frame (b.events e.task) := by
  have hcounted := hb.counted e.task e.frame
  have hrequests : 0 < requests e.task e.frame b.handled :=
    List.countP_pos_iff.mpr ⟨e, he, by simp⟩
  unfold Backend.received at hcounted
  omega

/-- The server handles nothing for a task that has not begun. -/
theorem Ledger.begun {db₀ : D} {note : ι → Exchange} {b : Backend ι D} (hb : Ledger serve db₀ note b)
    {e : Handled ι} (he : e ∈ b.handled) : b.events e.task ≠ [] := by
  intro hnone
  have hdelivered := hb.delivered he
  rw [hnone] at hdelivered
  exact Nat.lt_irrefl _ hdelivered

/-- A task that has heard of its last request has the response that the server gave. -/
theorem Ledger.handled_of_heard {db₀ : D} {note : ι → Exchange} {b : Backend ι D}
    (hb : Ledger serve db₀ note b) {i : ι} (hheard : heard (b.events i) = true) {frame response : Bytes}
    (hnote : note i = some (frame, response)) : ⟨i, frame, response⟩ ∈ b.handled := by
  refine (hb.answered i frame response hnote).resolve_right fun hunderway => ?_
  rw [hb.unheard i ⟨_, hunderway, rfl, Option.some_ne_none _⟩] at hheard
  cases hheard

end Ledger

/-! ## What a call sends -/

/-- A call of a public method. -/
structure Invocation where
  call : ClientCall
  timeout : Timeout
  rounds : ℕ

namespace Invocation

/-- The frame is the request of this call. -/
def Asks (x : Invocation) (frame : Bytes) : Prop :=
  ∃ command, x.call.encoded.encode = .ok command ∧ encodeFrame command.payload = .ok frame

/-- The command of the call is not safe to repeat. -/
def Mutates (x : Invocation) : Prop :=
  ∀ command, x.call.encoded.encode = .ok command → command.readOnly = false

/-- The call, with its result. -/
def method (p : Package) (config : ClientConfig) (x : Invocation) :
    ClientM ((call : ClientCall) × call.Result) := do
  let result ← p.transport.invoke config x.rounds x.timeout x.call
  return ⟨x.call, result⟩

end Invocation

/-- What executing its command does, the call does. -/
theorem wpm_invocation {σ : Type} {W : World Net σ} {p : Package} {config : ClientConfig}
    {x : Invocation} {Q : Except Exc ((call : ClientCall) × call.Result) → Unit → σ → Prop} {s : σ}
    (hencode : ∀ e, Q (.error e) () s)
    (hexecute : ∀ command, x.call.encoded.encode = .ok command →
      wpm W (p.transport.execute config x.rounds command x.call.parse x.timeout) (fun r _ s' =>
        match r with
        | .error e => Q (.error e) () s'
        | .ok result => Q (.ok ⟨x.call, result⟩) () s') () s) :
    wpm W (x.method p config) Q () s := by
  unfold Invocation.method
  rw [wpm_bind, Transport.invoke_eq_method]
  unfold Transport.method
  rw [wpm_bind, wpm_ofExcept]
  cases hcommand : x.call.encoded.encode with
  | error e => exact hencode e
  | ok command =>
    refine wpm_mono (hexecute command hcommand) fun r _ s' hr => ?_
    cases r with
    | error e => exact hr
    | ok result => exact hr

/-- Executing a command is to make the request and parse its payload. -/
theorem wpm_execute_of {σ α : Type} {W : World Net σ} {t : Transport} {config : ClientConfig}
    {rounds : ℕ} {command : Command} {parse : Bytes → Except Exc α} {timeout : Timeout}
    {Q : Except Exc α → Unit → σ → Prop} {s : σ}
    (h : wpm W (t.request config rounds command timeout) (fun r _ s' => match r with
      | .error e => Q (.error e) () s'
      | .ok payload => Q (parse payload) () s') () s) :
    wpm W (t.execute config rounds command parse timeout) Q () s := by
  unfold Transport.execute
  rw [wpm_bind]
  refine wpm_mono h fun r _ s' hr => ?_
  cases r with
  | error e => exact hr
  | ok payload => exact hr

/-- The request of a handshake. -/
def Greets (frame : Bytes) : Prop :=
  ∃ token command, Commands.hello token = .ok command ∧ encodeFrame command.payload = .ok frame

/-- Only frames of some kind are handed to sockets. -/
def onlySends (Own : Bytes → Prop) : World Net (List (Event Net)) :=
  guarded fun _ (op : NetOp) => ∀ frame, op.Sends frame → Own frame

theorem deliveries_le_one {α : Type} {frame : Bytes} {m : ClientM α}
    (hm : wpm (onceOnly frame) m (fun _ _ _ => True) () []) {program : Prog Net (Except Exc α × Unit)}
    {log : List (Event Net)} (hrun : Reaches (record Net) (m (), []) (program, log)) :
    deliveries frame log ≤ 1 := by
  refine reaches_invariant (fun log => deliveries frame log ≤ 1) ?_ hm (Nat.zero_le 1)
    (reaches_guarded hrun)
  intro log op answer log' hle hpermits hstep
  rw [show log' = _ from hstep]
  by_cases hs : op.Sends frame
  · rw [deliveries_concat, hpermits hs]
    split <;> omega
  · rw [deliveries_of_not_sends hs]
    exact hle

theorem sent_own {α : Type} {Own : Bytes → Prop} {m : ClientM α}
    {Q : Except Exc α → Unit → List (Event Net) → Prop} (hm : wpm (onlySends Own) m Q () [])
    {program : Prog Net (Except Exc α × Unit)}
    {log : List (Event Net)} (hrun : Reaches (record Net) (m (), []) (program, log)) :
    ∀ event ∈ log, ∀ frame, event.1.Sends frame → Own frame := by
  refine reaches_invariant (fun log => ∀ event ∈ log, ∀ frame, event.1.Sends frame → Own frame) ?_ hm
    (List.forall_mem_nil _) (reaches_guarded hrun)
  intro log op answer log' hlog hpermits hstep event hevent
  rw [show log' = _ from hstep] at hevent
  rcases List.mem_append.mp hevent with hevent | hevent
  · exact hlog event hevent
  · rw [List.mem_singleton.mp hevent]
    exact hpermits

section Sends
variable {Own : Bytes → Prop} {κ : Type} {c : κ} {log : List (Event Net)}

/-- The operation hands over no other frames. -/
def SendsOnly (Own : Bytes → Prop) (op : NetOp) : Prop := ∀ frame, op.Sends frame → Own frame

theorem sendsOnly_of_notWrite {op : NetOp} (h : op.NotWrite) : SendsOnly Own op :=
  fun _ hsends => absurd hsends (not_sends_of_notWrite op h)

theorem sendsOnly_of_plain (op : NetOp) (h : op.Plain) : SendsOnly Own op :=
  sendsOnly_of_notWrite h.notWrite

theorem wpm_onlySends {α : Type} {m : Method Net κ Exc α} {E : Exc → Prop}
    {Q : Except Exc α → κ → List (Event Net) → Prop} (hm : m.Only (SendsOnly Own) E)
    (hQ : ∀ r c' log', Q r c' log') : wpm (onlySends Own) m Q c log := by
  have hkeeps : Keeps (onlySends Own) (SendsOnly Own) fun _ => True :=
    fun _ _ hop _ => ⟨hop, fun _ _ _ => trivial⟩
  exact wpm_mono (wpm_of_only hkeeps hm trivial) fun r c' log' _ => hQ r c' log'

/-- What was heard of the last request stays so until the next one. -/
theorem keeps_heard : Keeps (onlySends Own) NetOp.NotWrite fun log => heard log = true := by
  intro log op hop hlog
  refine ⟨sendsOnly_of_notWrite hop, fun a log' hstep => ?_⟩
  have hsame : hears (heard log) ⟨op, a⟩ = true := by
    rw [hears_of_not_sends fun frame => not_sends_of_notWrite op hop, hlog, Bool.true_or]
  rw [show log' = _ from hstep]
  exact (heard_concat log _).trans hsame

/-- What was read shows in the log. -/
theorem reader (p : Package) (sock : SockId) :
    FrameReader (onlySends Own) p sock fun b log => b ≠ [] → heard log = true where
  setting b log op hop hlog := by
    have hnot : op.NotWrite := by
      cases op <;> first | exact hop.elim | trivial
    refine ⟨sendsOnly_of_notWrite hnot, fun a log' hstep hb => ?_⟩
    exact (@keeps_heard Own log op hnot (hlog hb)).2 a log' hstep
  read b log size hlog hasked := by
    have hnot : (p.readOp sock size).NotWrite := by
      cases p <;> trivial
    refine ⟨sendsOnly_of_notWrite hnot, fun a log' hstep hb => ?_⟩
    rw [show log' = _ from hstep, heard_concat, hears_of_not_sends fun frame =>
      not_sends_of_notWrite _ hnot]
    by_cases hbefore : b = []
    · rw [hbefore, List.nil_append] at hb
      rw [brings_of_readData p a hb, Bool.or_true]
    · rw [hlog hbefore, Bool.true_or]

/-- A call that is answered has heard of its request. -/
def Hears {α κ : Type} (r : Except Exc α) (_ : κ) (log : List (Event Net)) : Prop :=
  ∀ a, r = .ok a → heard log = true

theorem hears_error {α κ : Type} (e : Exc) (c : κ) (log : List (Event Net)) :
    Hears (.error e : Except Exc α) c log := fun _ h => by cases h

theorem hears_readFrame (p : Package) (d : Deadline) (c : Connection) (log : List (Event Net)) :
    wpm (onlySends Own) (p.transport.readFrame d) Hears c log := by
  cases hsock : c.sock with
  | none =>
    apply wpm_readFrame_of
    · exact fun _ => hears_error _ _ _
    · intro sock h
      rw [hsock] at h
      cases h
  | some sock =>
    refine wpm_mono ((reader p sock).readFrame d hsock fun h => absurd rfl h) ?_
    intro r c' log' hpost payload hr
    obtain ⟨_, hread⟩ := hpost
    rw [hr] at hread
    exact hread.2 (frameOf_ne_nil payload)

theorem only_hello (p : Package) (hgreets : ∀ frame, Greets frame → Own frame) :
    p.transport.connect.Only (SendsOnly Own) Exc.NotDelay := by
  refine p.only_connect sendsOnly_of_plain fun token m sock data hm hdata => ?_
  have hown : ∀ frame, data = frame → Own frame :=
    fun frame heq => heq ▸ hgreets data ⟨token, m, hm, hdata⟩
  exact ⟨hown, hown⟩

theorem hears_send (p : Package) {command : Command}
    (hown : ∀ frame, encodeFrame command.payload = .ok frame → Own frame)
    (d : Deadline) (c : Connection)
    (log : List (Event Net)) : wpm (onlySends Own) (p.transport.send command d) Hears c log := by
  have hwrite : (p.transport.writeRequest command d).Only (SendsOnly Own) Exc.NotDelay := by
    refine p.only_writeRequest sendsOnly_of_plain d fun sock data hdata => ?_
    have hdata : ∀ frame, data = frame → Own frame := fun frame heq => heq ▸ hown data hdata
    exact ⟨hdata, hdata⟩
  unfold Transport.send
  rw [wpm_bind]
  refine wpm_onlySends hwrite fun r c₁ log₁ => ?_
  cases r with
  | error e => exact hears_error e c₁ log₁
  | ok _ =>
    dsimp only
    rw [wpm_bind]
    refine wpm_mono (hears_readFrame p d c₁ log₁) fun r c₂ log₂ hr => ?_
    cases r with
    | error e => exact hears_error e c₂ log₂
    | ok response => exact fun _ _ => hr response rfl

/-- A call hands over its own request and those of handshakes, and what it is answered with is read
after the last of them. -/
theorem sends_withRetry (p : Package) (hgreets : ∀ frame, Greets frame → Own frame)
    {command : Command} (hown : ∀ frame, encodeFrame command.payload = .ok frame → Own frame)
    (policy : ReconnectPolicy) (d : Deadline) (rounds : ℕ) (c : Connection) (log : List (Event Net)) :
    wpm (onlySends Own) (p.transport.withRetry policy command d p.transport.send rounds 0) Hears
      c log := by
  have hround : Retrying (onlySends Own) p.transport policy command d p.transport.send
      (fun _ _ _ => True) (fun _ _ _ _ => True) (fun _ _ _ => True) Hears := by
    constructor
    · intro n c log _
      refine wpm_mono (hears_send p hown d c log) fun r _ _ hr => ?_
      split
      · trivial
      · exact hr
    · exact fun _ _ _ _ _ _ => hears_error _ _ _
    · intro n fault c log _ _ _
      have hwaits : ∀ op : NetOp, op.Waiting → SendsOnly Own op :=
        fun _ h => sendsOnly_of_notWrite h.notWrite
      have hbackoff := (p.backoff_waits policy (n + 1) d).mono hwaits fun _ h => h
      refine wpm_onlySends (.of_leaves hbackoff) fun r c' log' => ?_
      cases r with
      | ok _ => trivial
      | error e => exact hears_error e c' log'
    · intro n c log _
      have hreconnect : p.transport.reconnect.Only (SendsOnly Own) Exc.NotDelay :=
        .bind (Package.only_closeConnection sendsOnly_of_plain) fun _ => only_hello p hgreets
      refine wpm_onlySends hreconnect fun r c' log' => ?_
      split
      · trivial
      · trivial
      · exact hears_error _ c' log'
  exact hround.withRetry trivial rounds trivial

theorem sends_request (p : Package) (hgreets : ∀ frame, Greets frame → Own frame)
    {command : Command} (hown : ∀ frame, encodeFrame command.payload = .ok frame → Own frame)
    (config : ClientConfig) (rounds : ℕ) (timeout : Timeout) (log : List (Event Net)) :
    wpm (onlySends Own) (p.transport.request config rounds command timeout) Hears () log := by
  unfold Transport.request
  rw [wpm_bind]
  refine wpm_onlySends (Package.only_of_quiet sendsOnly_of_plain (quiet_start _)) fun r _ log => ?_
  cases r with
  | error e => exact hears_error e () log
  | ok d =>
    apply wpm_withConnection_of
    refine wpm_onlySends (p.only_acquire sendsOnly_of_plain _ d (only_hello p hgreets)) ?_
    intro r _ log
    cases r with
    | error e => exact hears_error e () log
    | ok c =>
      refine wpm_mono (sends_withRetry p hgreets hown _ d rounds c log) fun outcome c' log' hheard => ?_
      cases outcome with
      | error e =>
        refine wpm_onlySends (Package.only_release sendsOnly_of_plain c') fun r _ log'' => ?_
        cases r <;> exact hears_error _ () log''
      | ok payload =>
        have hrelease := wpm_of_only (@keeps_heard Own)
          (Package.only_release (fun _ => NetOp.Plain.notWrite) c') (c := ()) (hheard payload rfl)
        refine wpm_mono hrelease fun r _ log'' hr => ?_
        cases r with
        | error e => exact hears_error e () log''
        | ok _ => exact fun _ _ => hr.2

theorem sends_invocation (p : Package) (config : ClientConfig) (x : Invocation)
    (log : List (Event Net)) :
    wpm (onlySends fun frame => x.Asks frame ∨ Greets frame) (x.method p config) Hears () log := by
  refine wpm_invocation (fun e => hears_error e () log) fun command hcommand => wpm_execute_of ?_
  refine wpm_mono (sends_request p (fun _ => Or.inr) ?_ config _ _ log) fun r _ log' hr => ?_
  · exact fun frame hframe => Or.inl ⟨command, hcommand, hframe⟩
  · cases r with
    | error e => exact hears_error e () log'
    | ok payload =>
      dsimp only
      cases x.call.parse payload with
      | error e => exact hears_error e () log'
      | ok result => exact fun _ _ => hr payload rfl

end Sends

/-! ## What a call is answered -/

theorem once_invocation (p : Package) (config : ClientConfig) {x : Invocation} {frame : Bytes}
    (hmutates : x.Mutates) (hasks : x.Asks frame) :
    wpm (onceOnly frame) (x.method p config) (fun _ _ _ => True) () [] := by
  obtain ⟨command, hcommand, hframe⟩ := hasks
  refine wpm_invocation (fun _ => trivial) fun command' hcommand' => ?_
  obtain rfl : command = command' := Except.ok.inj (hcommand.symm.trans hcommand')
  have hreadOnly := hmutates command hcommand
  refine wpm_mono (once_execute p config x.rounds x.call.parse x.timeout hreadOnly hframe
    (hello_frame_ne hcommand hreadOnly hframe)) fun r _ _ _ => ?_
  cases r <;> trivial

/-- The result is parsed from the response to the request of the call. -/
def Invocation.Returns (x : Invocation) (result : x.call.Result) (n : Exchange) : Prop :=
  ∃ frame payload, x.Asks frame ∧ n = some (frame, payload) ∧ x.call.parse payload = .ok result

theorem answering_wire : Answering (wire : Wire ι Line Exchange) where
  fresh := rfl
  owed := rfl
  asked p _ _ a _ _ _ _ hwrote h := by
    cases p with
    | sync =>
      rcases a with (_ | _) | _
      · cases hwrote
      · cases hwrote
      · exact h.imp_right And.left
    | aio =>
      rcases a with (_ | _ | _) | _
      · cases hwrote
      · cases hwrote
      · cases hwrote
      · exact h.imp_right And.left
  recv h := h
  readexactly h := h

variable [DecidableEq ι]

theorem answers_invocation (p : Package) (config : ClientConfig) (x : Invocation) {i : ι}
    {s : Shared ι Line Exchange} (hs : Inv wire s) :
    wpm (among wire i) (x.method p config) (fun r _ s' => Inv wire s' ∧
      ∀ result, r = .ok ⟨x.call, result⟩ → x.Returns result (s'.note i)) () s := by
  refine wpm_invocation (fun _ => ⟨hs, fun _ h => by cases h⟩) fun command hcommand => ?_
  refine wpm_execute_of (wpm_mono (wpm_request (answering_wire.answers p i) config x.rounds command
    x.timeout hs) fun r _ s' hpost => ?_)
  obtain ⟨hs', hanswered⟩ := hpost
  cases r with
  | error e => exact ⟨hs', fun _ h => by cases h⟩
  | ok payload =>
    obtain ⟨frame, hframe, hnote⟩ := hanswered payload rfl
    dsimp only
    cases hparse : x.call.parse payload with
    | error e => exact ⟨hs', fun _ h => by cases h⟩
    | ok result =>
      refine ⟨hs', fun result' h => ?_⟩
      cases h
      exact ⟨frame, payload, ⟨command, hcommand, hframe⟩, hnote, hparse⟩

/-! ## Every interleaving -/

theorem ledger_start (serve : Bytes → D → Bytes × D) (db₀ : D) :
    Ledger serve db₀ (fun _ : ι => none) ⟨db₀, [], [], fun _ => []⟩ where
  explains := rfl
  answered _ _ _ hnote := by cases hnote
  unheard _ hpending := by
    obtain ⟨_, hr, _⟩ := hpending
    cases hr
  counted _ _ := Nat.le_refl _

/-- Calls over one pool and one database, none of which has begun. -/
def tasks (p : Package) (config : ClientConfig) (calls : ι → Invocation) (opened : List Connection)
    (empty : ℕ) (first : ι) (db₀ : D) :
    Tasks Net ι (Except Exc ((call : ClientCall) × call.Result) × Unit) (System ι D) :=
  ⟨first, fun i => (calls i).method p config (), .start wire none opened empty, db₀,
    [], [], fun _ => []⟩

section Runs
variable {serve : Bytes → D → Bytes × D} {p : Package} {config : ClientConfig}
  {calls : ι → Invocation} {opened : List Connection} {empty : ℕ} {first : ι} {db₀ : D}
  {t : Tasks Net ι (Except Exc ((call : ClientCall) × call.Result) × Unit) (System ι D)}
  (h : Tasks.Reaches (world serve) (fun _ => True) (tasks p config calls opened empty first db₀) t)
include h

theorem ledger_of_reaches : Ledger serve db₀ t.state.pool.note t.state.backend := by
  refine Tasks.Reaches.keeps (W := world serve) (P := fun s => Ledger serve db₀ s.pool.note s.backend)
    (fun i s op a s' hs hstep => ledger_of_step hs hstep.2) h ?_
  exact ledger_start serve db₀

/-- Every task has done what it may do alone. -/
theorem recorded_of_reaches (i : ι) : Effects.Reaches (record Net)
    ((calls i).method p config (), []) (t.prog i, t.state.backend.events i) :=
  Tasks.Reaches.recorded (W := world serve) (fun s => s.backend.events)
    (fun _ _ _ _ _ hstep => events_of_step hstep.2) h i

/-- A request that is not safe to repeat reaches the server once at most. -/
theorem handled_once {i : ι} {frame : Bytes} (hmutates : (calls i).Mutates)
    (hasks : (calls i).Asks frame) : requests i frame t.state.backend.handled ≤ 1 := by
  have hdeliveries : deliveries frame (t.state.backend.events i) ≤ 1 :=
    deliveries_le_one (once_invocation p config hmutates hasks) (recorded_of_reaches h i)
  have hcounted := (ledger_of_reaches h).counted i frame
  unfold Backend.received at hcounted
  omega

/-- The server handles what the call asks for, and the requests of handshakes. -/
theorem handled_own {e : Handled ι} (he : e ∈ t.state.backend.handled) :
    (calls e.task).Asks e.frame ∨ Greets e.frame := by
  obtain ⟨event, hevent, hdelivers⟩ := List.countP_pos_iff.mp ((ledger_of_reaches h).delivered he)
  have hsends := sent_own (sends_invocation p config (calls e.task) []) (recorded_of_reaches h e.task)
  exact hsends event hevent e.frame (sends_of_delivers hdelivers)

theorem pool_of_reaches : Tasks.Reaches (settled wire) (fun _ => True)
    ((tasks p config calls opened empty first db₀).onto System.pool) (t.onto System.pool) :=
  Tasks.Reaches.onto (W := world serve) System.pool (fun _ _ _ _ _ hstep => ⟨hstep.1, hstep.2.1⟩) h

/-- A call that has returned has heard of its request. -/
theorem heard_of_returned {i : ι} {result : (calls i).call.Result}
    (hreturned : t.prog i = .pure (.ok ⟨(calls i).call, result⟩, ())) :
    heard (t.state.backend.events i) = true := by
  have hrun := recorded_of_reaches h i
  rw [hreturned] at hrun
  have hheard := wp_result (sends_invocation p config (calls i) []) (reaches_guarded hrun)
  exact hheard _ rfl

/-- What a call returns is parsed from a response that the server gave to its request. -/
theorem result_of_returned {i : ι} {result : (calls i).call.Result}
    (hreturned : t.prog i = .pure (.ok ⟨(calls i).call, result⟩, ())) :
    ∃ e ∈ t.state.backend.handled, e.task = i ∧ (calls i).Asks e.frame ∧
      (calls i).call.parse e.response = .ok result := by
  have hstart : ∀ i s, Inv wire s → wp (among wire i)
      (((tasks p config calls opened empty first db₀).onto System.pool).prog i)
      (fun rc s' => Inv wire s' ∧ ∀ result, rc.1 = .ok ⟨(calls i).call, result⟩ →
        (calls i).Returns result (own i s').note) s :=
    fun i s hs => answers_invocation p config (calls i) hs
  obtain ⟨hinv, hsound⟩ := sound_of_reaches
    (Q := fun i rc o => ∀ result, rc.1 = .ok ⟨(calls i).call, result⟩ →
      (calls i).Returns result o.note)
    (inv_start (answering_wire.answers p first).fresh none opened empty) hstart (pool_of_reaches h)
  obtain ⟨frame, payload, hasks, hnote, hparse⟩ := hsound.ended_of_inv hinv hreturned result rfl
  exact ⟨_, (ledger_of_reaches h).handled_of_heard (heard_of_returned h hreturned) hnote,
    rfl, hasks, hparse⟩

end Runs

theorem handled_of_reaches {α : Type} {serve : Bytes → D → Bytes × D}
    {t t' : Tasks Net ι α (System ι D)} (h : Tasks.Reaches (world serve) (fun _ => True) t t') :
    t.state.backend.handled <+: t'.state.backend.handled := by
  refine Tasks.Reaches.keeps (W := world serve)
    (P := fun s => t.state.backend.handled <+: s.backend.handled) ?_ h List.prefix_rfl
  exact fun i s op a s' hs hstep => hs.trans (handled_of_step hstep.2)

/-- The calls have had their effects one at a time: the database has handled what they asked for, in
the order of the list, what is not safe to repeat once at most, and what a call returns is parsed from
the response it was given there. -/
structure Linearized (serve : Bytes → D → Bytes × D) (db₀ : D) (calls : ι → Invocation)
    (t : Tasks Net ι (Except Exc ((call : ClientCall) × call.Result) × Unit) (System ι D)) : Prop where
  explains : Explains serve db₀ t.state.backend.handled t.state.backend.db
  own : ∀ e ∈ t.state.backend.handled, (calls e.task).Asks e.frame ∨ Greets e.frame
  once : ∀ i frame, (calls i).Mutates → (calls i).Asks frame →
    requests i frame t.state.backend.handled ≤ 1
  returned : ∀ i result, t.prog i = .pure (.ok ⟨(calls i).call, result⟩, ()) →
    ∃ e ∈ t.state.backend.handled, e.task = i ∧ (calls i).Asks e.frame ∧
      (calls i).call.parse e.response = .ok result
  begun : ∀ e ∈ t.state.backend.handled, t.state.backend.events e.task ≠ []

/-- In every interleaving of calls over one pool in which no connection is put back while a response to it
is outstanding, whatever connections are lost and whatever requests with them, and whenever the server
comes to the others, the calls are linearized, and later ones come after. -/
theorem calls_linearizable (serve : Bytes → D → Bytes × D) (p : Package) (config : ClientConfig)
    (calls : ι → Invocation) (opened : List Connection) (empty : ℕ) (first : ι) (db₀ : D)
    (t : Tasks Net ι (Except Exc ((call : ClientCall) × call.Result) × Unit) (System ι D))
    (h : Tasks.Reaches (world serve) (fun _ => True) (tasks p config calls opened empty first db₀) t) :
    Linearized serve db₀ calls t ∧ ∀ t', Tasks.Reaches (world serve) (fun _ => True) t t' →
      t.state.backend.handled <+: t'.state.backend.handled := by
  have hledger := ledger_of_reaches h
  constructor
  · constructor
    · exact hledger.explains
    · exact fun e he => handled_own h he
    · exact fun i frame hmutates hasks => handled_once h hmutates hasks
    · exact fun i result hreturned => result_of_returned h hreturned
    · exact fun e he => hledger.begun he
  · exact fun t' ht' => handled_of_reaches ht'

/-! ## A call that is answered -/

/-- A line on which every request is answered at once. -/
def answered (respond : Bytes → Bytes) : (op : NetOp) → Line → Exchange → op.Answer × Line × Exchange
  | .sendall _ frame, .live unread, _ =>
    let response := respond frame
    if response.length < 2 ^ 32 then
      (.ok (), .live (unread ++ (beBytes response.length ++ response)), some (frame, response))
    else (.ok (), .lost, none)
  | op, l, n => answering false op l n

theorem transfer_answered (respond : Bytes → Bytes) (op : NetOp) (l : Line) (n : Exchange) :
    transfer op (answered respond op l n).1 l n (answered respond op l n).2.1
      (answered respond op l n).2.2 := by
  have hrest : ∀ op : NetOp, (∀ sock frame, op ≠ .sendall sock frame) →
      transfer op (answering false op l n).1 l n (answering false op l n).2.1
        (answering false op l n).2.2 := by
    intro op hop
    have h := transfer_answering false op l n
    cases op with
    | sendall sock frame => exact absurd rfl (hop sock frame)
    | writeDrain => exact h
    | _ => exact h
  cases op with
  | sendall sock frame =>
    cases l with
    | live unread =>
      unfold answered
      dsimp only
      split
      next hlength => exact Or.inl ⟨respond frame, hlength, rfl, rfl⟩
      next => exact Or.inr ⟨rfl, rfl⟩
    | torn | lost => exact Or.inl ⟨rfl, rfl⟩
  | _ => exact hrest _ (fun _ _ h => by cases h)

section Host
variable (serve : Bytes → D → Bytes × D)

/-- The server comes to the newest request on its way, and then to those before it, as long as the
responses are those that are awaited. -/
def catchUp : List (Underway ι) → Backend ι D → Backend ι D
  | [], b => { b with underway := [] }
  | r :: underway, b =>
    if r.response.all (· = (serve r.frame b.db).1) then
      catchUp underway (Backend.handle serve b r.task r.frame)
    else { b with underway := r :: underway }

omit [DecidableEq ι] in
theorem comes_catchUp (underway : List (Underway ι)) (b : Backend ι D) :
    Relation.ReflTransGen (Comes serve) { b with underway := underway } (catchUp serve underway b) := by
  induction underway generalizing b with
  | nil => exact .refl
  | cons r underway ih =>
    unfold catchUp
    split
    next hresponse =>
      have hcomes : Comes serve { b with underway := r :: underway }
          { Backend.handle serve b r.task r.frame with underway := underway } := by
        refine @Comes.handle ι D serve { b with underway := r :: underway } [] underway r rfl ?_
        intro response hr
        rw [hr] at hresponse
        exact of_decide_eq_true hresponse
      exact .head hcomes (ih _)
    next => exact .refl

/-- A request is on its way when its response is noted. -/
def tally (i : ι) : NetOp → Exchange → Backend ι D → Backend ι D
  | .sendall _ frame, some (_, response), b =>
    { b with underway := ⟨i, frame, some response⟩ :: b.underway }
  | _, _, b => b

variable (foresee : ι → Bytes → D → Bytes)

/-- A server of connections that are open, given the responses that it will come to give. -/
def host (i : ι) (s : System ι D) (op : NetOp) : Option (op.Answer × System ι D) :=
  let done := PooledLines.serve NetOp.calm
    (answered fun frame => foresee i frame s.backend.db) i s.pool op
  let b := (tally i op (done.2.note i) s.backend).noted i ⟨op, done.1⟩
  let awaited := s.backend.underway.any fun r => r.task = i ∧ r.response ≠ none
  if settledNow clean s.pool op = true ∧ (brings ⟨op, done.1⟩ && awaited) = false then
    some (done.1, ⟨done.2, catchUp serve b.underway b⟩)
  else none

theorem receives_tally {i : ι} {s : System ι D} {op : NetOp} {done : op.Answer × Shared ι Line Exchange}
    (hdone : done = PooledLines.serve NetOp.calm
      (answered fun frame => foresee i frame s.backend.db) i s.pool op)
    (hquiet : brings ⟨op, done.1⟩ = true → ¬ s.backend.Pending i) :
    Receives i op done.1 (done.2.note i) s.backend (tally i op (done.2.note i) s.backend) := by
  cases op with
  | sendall sock frame =>
    subst hdone
    unfold PooledLines.serve PooledLines.serve.transfer
    dsimp only
    rw [Function.update_self]
    cases s.pool.line sock with
    | live unread =>
      unfold answered
      dsimp only
      split
      next => exact ⟨decide_eq_true ⟨rfl, fun h => by cases h⟩, rfl⟩
      next => exact Or.inl rfl
    | torn | lost => exact Or.inl rfl
  | writeDrain sock frame =>
    subst hdone
    unfold PooledLines.serve PooledLines.serve.transfer
    dsimp only
    rw [Function.update_self]
    exact Or.inl rfl
  | _ => exact ⟨rfl, hquiet⟩

theorem step_host (i : ι) (s : System ι D) (op : NetOp) (a : op.Answer) (s' : System ι D)
    (h : host serve foresee i s op = some (a, s')) : (world serve i).step s op a s' := by
  unfold host at h
  dsimp only at h
  split at h
  next hready =>
    obtain ⟨hsettled, hquiet⟩ := hready
    cases h
    let done := PooledLines.serve NetOp.calm
      (answered fun frame => foresee i frame s.backend.db) i s.pool op
    let b := (tally i op (done.2.note i) s.backend).noted i ⟨op, done.1⟩
    have hcomes : Relation.ReflTransGen (Comes serve) b (catchUp serve b.underway b) :=
      comes_catchUp serve b.underway b
    refine ⟨settled_of_now not_owed_of_clean s.pool op hsettled,
      step_serve (fun op l n => transfer_answered _ op l n) s.pool op, _,
      receives_tally foresee rfl fun hbrings hpending => ?_, hcomes⟩
    obtain ⟨r, hr, hawaited⟩ := hpending
    rw [hbrings, Bool.true_and, List.any_eq_false] at hquiet
    exact hquiet r hr (decide_eq_true hawaited)
  next => cases h

end Host

/-- A server that counts the requests. -/
def counting (_ : Bytes) (n : ℕ) : Bytes × ℕ := (encodeUtf8 ("ok|".toList ++ Nat.toDigits 10 (n + 1)), n + 1)

def increments (_ : Bool) : Invocation := ⟨.keyed (.incr ⟨"hit".toList, 60⟩), .unlimited, 1⟩

def twoTasks : Tasks Net Bool (Except Exc ((call : ClientCall) × call.Result) × Unit) (System Bool ℕ) :=
  tasks .sync { settings := Connection.pooled.settings } increments [.pooled, .pooled] 0 false 0

/-- The request of the first task is overtaken by that of the second. -/
def overtaken (i : Bool) (frame : Bytes) (n : ℕ) : Bytes := (counting frame (if i then n else n + 1)).1

/-- Both have written their requests before either reads. -/
def turns : List (Bool × ℕ) := [(false, 4), (true, 4), (false, 5), (true, 5)]

def incremented (n : ℕ) : Except Exc ((call : ClientCall) × call.Result) × Unit :=
  (.ok ⟨.keyed (.incr ⟨"hit".toList, 60⟩), (n : ℕ)⟩, ())

theorem increments_linearized : ∃ t, t.prog false = .pure (incremented 2) ∧
    t.prog true = .pure (incremented 1) ∧ t.state.backend.db = 2 ∧
      Linearized counting 0 increments t := by
  have hplays : (twoTasks.play (host counting overtaken) turns).any (fun t =>
      t.ended false (incremented 2) && t.ended true (incremented 1) && t.state.backend.db == 2) =
        true := by
    decide +kernel
  obtain ⟨t, hreaches, hends⟩ := Tasks.exists_of_plays (step_host counting overtaken) hplays
  simp only [Bool.and_eq_true, beq_iff_eq] at hends
  obtain ⟨⟨hfalse, htrue⟩, hdb⟩ := hends
  refine ⟨t, Tasks.prog_of_ended hfalse, Tasks.prog_of_ended htrue, hdb, ?_⟩
  exact (calls_linearizable counting .sync _ increments [.pooled, .pooled] 0 false 0 t hreaches).1

end FqClient.Linearization
