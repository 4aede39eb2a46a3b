import FqClient.AtMostOnce
import FqClient.FrameReads

namespace FqClient.Subscriptions

open Effects

/-! ## What a stream reads and yields -/

/-- A subscription: what was read on its socket since its command was written, the events that were
yielded from it, and whether the socket was closed. -/
structure Feed where
  sock : SockId
  received : Bytes := []
  yielded : List StreamEvent := []
  closed : Bool := false
  deriving DecidableEq

/-- The subscriptions of a stream, the newest first, and the events that its consumer got. -/
structure Listening where
  feeds : List Feed := []
  events : List StreamEvent := []
  deriving DecidableEq

namespace Listening

def subscribes (s : Listening) (sock : SockId) : Listening :=
  { s with feeds := { sock := sock } :: s.feeds }

/-- Only the newest subscription can be open. -/
def reads (s : Listening) (sock : SockId) (data : Bytes) : Listening :=
  { s with feeds := s.feeds.modifyHead fun feed =>
      if feed.sock = sock ∧ feed.closed = false then { feed with received := feed.received ++ data }
      else feed }

def closes (s : Listening) (sock : SockId) : Listening :=
  { s with feeds := s.feeds.modifyHead fun feed =>
      if feed.sock = sock then { feed with closed := true } else feed }

def yields (s : Listening) (event : StreamEvent) : Listening where
  feeds := s.feeds.modifyHead fun feed => { feed with yielded := feed.yielded ++ [event] }
  events := s.events ++ [event]

end Listening

/-- What an operation makes of the record, when `request` is the frame of the subscription. -/
def note (request : Except Exc Bytes) (s : Listening) : (op : NetOp) → op.Answer → Listening
  | .sendall sock data, .ok _ | .writeDrain sock data, .ok _ =>
    if request = .ok data then s.subscribes sock else s
  | .recv sock _, .ok chunk => s.reads sock chunk.1
  | .readexactly sock _, .ok data => s.reads sock data.1
  | .closeSocket sock, _ => s.closes sock
  | .yieldEvent event, _ => s.yields event
  | _, _ => s

/-- The record of a run. -/
def heard (request : Except Exc Bytes) (log : List (Event Net)) : Listening :=
  log.foldl (fun s event => note request s event.1 event.2) {}

/-- The events are those of the frames that were read, up to the bytes in `rest`. -/
def Feed.Shows (parse : Bytes → Except Exc StreamEvent) (feed : Feed) (rest : Bytes) : Prop :=
  ∃ payloads : List Bytes, (∀ payload ∈ payloads, payload.length < 2 ^ 32) ∧
    feed.received = (payloads.map frameOf).flatten ++ rest ∧
    payloads.map parse = feed.yielded.map Except.ok

/-- Every frame that was read whole was yielded. -/
def Feed.Whole (parse : Bytes → Except Exc StreamEvent) (feed : Feed) : Prop :=
  ∃ rest : Bytes, rest.length < frameLength rest ∧ feed.Shows parse rest

structure Feed.Past (parse : Bytes → Except Exc StreamEvent) (feed : Feed) : Prop where
  closed : feed.closed = true
  whole : feed.Whole parse

/-- The consumer got the events of the subscriptions, one after the other. Only the newest of these may
be open, and no more than one frame of it has yet to be yielded. -/
structure Sound (parse : Bytes → Except Exc StreamEvent) (s : Listening) : Prop where
  events : s.events = s.feeds.reverse.flatMap Feed.yielded
  older : ∀ feed ∈ s.feeds.tail, feed.Past parse
  newest : ∀ feed ∈ s.feeds.head?, ∃ rest : Bytes, rest.length ≤ frameLength rest ∧
    feed.Shows parse rest

/-- What a stream that ended this way has left out: a part of a frame, or the frame whose parsing
ended it. -/
def LeftOut (parse : Bytes → Except Exc StreamEvent) (r : Except Exc Unit) (feed : Feed) : Prop :=
  feed.Whole parse ∨
    ∃ payload e, feed.Shows parse (frameOf payload) ∧ parse payload = .error e ∧ r = .error e

/-! ## What each step keeps -/

section Steps
variable {parse : Bytes → Except Exc StreamEvent} {feed : Feed} {older : List Feed} {s : Listening}
  {sock : SockId} {b : Bytes}

theorem Feed.Shows.start (sock : SockId) : Feed.Shows parse { sock := sock } [] :=
  ⟨[], List.forall_mem_nil _, rfl, rfl⟩

theorem Feed.Shows.read (h : feed.Shows parse b) (data : Bytes) :
    Feed.Shows parse { feed with received := feed.received ++ data } (b ++ data) := by
  obtain ⟨payloads, hlength, hreceived, hyielded⟩ := h
  refine ⟨payloads, hlength, ?_, hyielded⟩
  dsimp only
  rw [hreceived, List.append_assoc]

theorem Feed.Shows.yield {payload : Bytes} {event : StreamEvent}
    (h : feed.Shows parse (frameOf payload))
    (hlength : payload.length < 2 ^ 32) (hevent : parse payload = .ok event) :
    Feed.Shows parse { feed with yielded := feed.yielded ++ [event] } [] := by
  obtain ⟨payloads, hlengths, hreceived, hyielded⟩ := h
  refine ⟨payloads ++ [payload], ?_, ?_, ?_⟩
  · exact List.forall_mem_append.mpr ⟨hlengths, List.forall_mem_singleton.mpr hlength⟩
  · rw [List.map_append, List.flatten_append, List.append_nil]
    simpa using hreceived
  · rw [List.map_append, hyielded]
    simp [hevent]

/-- Every subscription is over. -/
structure Resting (parse : Bytes → Except Exc StreamEvent) (s : Listening) : Prop where
  events : s.events = s.feeds.reverse.flatMap Feed.yielded
  past : ∀ feed ∈ s.feeds, feed.Past parse

/-- The newest subscription is open on this socket, and the bytes `b` of a frame were read. -/
structure Listens (parse : Bytes → Except Exc StreamEvent) (sock : SockId) (b : Bytes) (s : Listening) :
    Prop where
  events : s.events = s.feeds.reverse.flatMap Feed.yielded
  past : ∀ feed ∈ s.feeds.tail, feed.Past parse
  current : ∃ feed, s.feeds.head? = some feed ∧ feed.sock = sock ∧ feed.closed = false ∧
    feed.Shows parse b

theorem Resting.sound (h : Resting parse s) : Sound parse s where
  events := h.events
  older feed hmem := h.past feed (List.mem_of_mem_tail hmem)
  newest feed hmem := by
    obtain ⟨rest, hshort, hshows⟩ := (h.past feed (List.mem_of_mem_head? hmem)).whole
    exact ⟨rest, hshort.le, hshows⟩

theorem Listens.sound (h : Listens parse sock b s) (hb : b.length ≤ frameLength b) : Sound parse s where
  events := h.events
  older := h.past
  newest feed hmem := by
    obtain ⟨feed', hhead, -, -, hshows⟩ := h.current
    obtain rfl : feed' = feed := Option.some.inj (hhead.symm.trans hmem)
    exact ⟨b, hb, hshows⟩

theorem resting_start : Resting parse {} := ⟨rfl, List.forall_mem_nil _⟩

/-- Changing the newest subscription leaves the consumer's events, when it leaves those of the
subscription. -/
theorem events_modifyHead (f : Feed → Feed) (hf : ∀ feed, (f feed).yielded = feed.yielded)
    (feeds : List Feed) :
    (feeds.modifyHead f).reverse.flatMap Feed.yielded = feeds.reverse.flatMap Feed.yielded := by
  cases feeds with
  | nil => rfl
  | cons feed older => simp [hf]

theorem Resting.modifyHead (h : Resting parse s) {f : Feed → Feed}
    (hf : ∀ feed : Feed, (f feed).yielded = feed.yielded)
    (hpast : ∀ feed : Feed, feed.Past parse → (f feed).Past parse) :
    Resting parse { s with feeds := s.feeds.modifyHead f } := by
  constructor
  · dsimp only
    rw [events_modifyHead f hf, h.events]
  · have hall := h.past
    dsimp only
    cases hfeeds : s.feeds with
    | nil => exact List.forall_mem_nil _
    | cons feed older =>
      rw [hfeeds] at hall
      obtain ⟨hfeed, holder⟩ := List.forall_mem_cons.mp hall
      exact List.forall_mem_cons.mpr ⟨hpast feed hfeed, holder⟩

/-- A closed subscription reads nothing. -/
theorem Resting.reads (h : Resting parse s) (sock : SockId) (data : Bytes) :
    Resting parse (s.reads sock data) := by
  apply h.modifyHead
  · intro feed
    split <;> rfl
  · intro feed hpast
    rw [if_neg (by simp [hpast.closed])]
    exact hpast

theorem Resting.closes (h : Resting parse s) (sock : SockId) : Resting parse (s.closes sock) := by
  apply h.modifyHead
  · intro feed
    split <;> rfl
  · intro feed hpast
    split
    · exact ⟨rfl, hpast.whole⟩
    · exact hpast

theorem Resting.subscribes (h : Resting parse s) (sock : SockId) :
    Listens parse sock [] (s.subscribes sock) where
  events := by
    rw [Listening.subscribes]
    simp [h.events]
  past := h.past
  current := ⟨{ sock := sock }, rfl, rfl, rfl, .start sock⟩

theorem Listens.exists_cons (h : Listens parse sock b s) : ∃ feed older,
    s = ⟨feed :: older, older.reverse.flatMap Feed.yielded ++ feed.yielded⟩ ∧ feed.sock = sock ∧
      feed.closed = false ∧ feed.Shows parse b ∧ ∀ feed ∈ older, feed.Past parse := by
  obtain ⟨feed, hhead, hsock, hclosed, hshows⟩ := h.current
  obtain ⟨feeds, events⟩ := s
  obtain ⟨older, rfl⟩ := List.head?_eq_some_iff.mp hhead
  refine ⟨feed, older, ?_, hsock, hclosed, hshows, h.past⟩
  have hevents : events = (feed :: older).reverse.flatMap Feed.yielded := h.events
  rw [hevents]
  simp

theorem Listens.reads (h : Listens parse sock b s) (data : Bytes) :
    Listens parse sock (b ++ data) (s.reads sock data) := by
  obtain ⟨feed, older, rfl, hsock, hclosed, hshows, holder⟩ := h.exists_cons
  have hreads : Listening.reads ⟨feed :: older, older.reverse.flatMap Feed.yielded ++ feed.yielded⟩
    sock data =
      ⟨{ feed with received := feed.received ++ data } :: older,
        older.reverse.flatMap Feed.yielded ++ feed.yielded⟩ := by
    unfold Listening.reads
    rw [List.modifyHead_cons, if_pos ⟨hsock, hclosed⟩]
  rw [hreads]
  exact ⟨by simp, holder, _, rfl, hsock, hclosed, hshows.read data⟩

theorem Listens.yields {payload : Bytes} {event : StreamEvent}
    (h : Listens parse sock (frameOf payload) s)
    (hlength : payload.length < 2 ^ 32) (hevent : parse payload = .ok event) :
    Listens parse sock [] (s.yields event) := by
  obtain ⟨feed, older, rfl, hsock, hclosed, hshows, holder⟩ := h.exists_cons
  exact ⟨by simp [Listening.yields], holder, _, rfl, hsock, hclosed, hshows.yield hlength hevent⟩

/-- What is left of a frame when the connection is closed is lost with it. -/
theorem Listens.closes (h : Listens parse sock b s) (hb : b.length < frameLength b) :
    Resting parse (s.closes sock) := by
  obtain ⟨feed, older, rfl, hsock, hclosed, hshows, holder⟩ := h.exists_cons
  have hcloses : Listening.closes ⟨feed :: older,
    older.reverse.flatMap Feed.yielded ++ feed.yielded⟩ sock =
      ⟨{ feed with closed := true } :: older, older.reverse.flatMap Feed.yielded ++ feed.yielded⟩ := by
    unfold Listening.closes
    rw [List.modifyHead_cons, if_pos hsock]
  rw [hcloses]
  exact ⟨by simp, List.forall_mem_cons.mpr ⟨⟨rfl, b, hb, hshows⟩, holder⟩⟩

end Steps

/-! ## The contracts of a stream -/

/-- Any operation after which the record is sound, with any answer. -/
def world (request : Except Exc Bytes) (parse : Bytes → Except Exc StreamEvent) :
    World Net Listening where
  permits s op := ∀ a, Sound parse (note request s op a)
  step s op a s' := s' = note request s op a

/-- An operation that changes no record. -/
def Unheard : NetOp → Prop
  | .sendall _ _ | .writeDrain _ _ | .recv _ _ | .readexactly _ _ | .closeSocket _ | .yieldEvent _ => False
  | _ => True

/-- An operation that neither subscribes nor yields. -/
def Resumes (request : Except Exc Bytes) : NetOp → Prop
  | .sendall _ data | .writeDrain _ data => request ≠ .ok data
  | .yieldEvent _ => False
  | _ => True

theorem unheard_of_setting {op : NetOp} (h : op.Setting) : Unheard op := by
  cases op <;> first | exact h | trivial

theorem unheard_of_waiting {op : NetOp} (h : op.Waiting) : Unheard op := by
  cases op <;> first | exact h | trivial

theorem resumes_of_plain {request : Except Exc Bytes} {op : NetOp} (h : op.Plain) :
    Resumes request op := by
  cases op <;> first | exact h | trivial

section Contracts
variable {request : Except Exc Bytes} {parse : Bytes → Except Exc StreamEvent} {s s' : Listening}
  {sock : SockId} {b : Bytes} {c : Connection} {op : NetOp}

theorem note_of_unheard (h : Unheard op) (a : op.Answer) : note request s op a = s := by
  cases op <;> first | exact h.elim | rfl

theorem keeps_unheard {P : NetOp → Prop} {J : Listening → Prop} (hP : ∀ op, P op → Unheard op)
    (hJ : ∀ s, J s → Sound parse s) : Keeps (world request parse) P J := by
  intro s op hop hs
  have hsame : ∀ a, note request s op a = s := note_of_unheard (hP op hop)
  refine ⟨fun a => ?_, fun a s' hstep => ?_⟩
  · rw [hsame a]
    exact hJ s hs
  · rw [show s' = note request s op a from hstep, hsame a]
    exact hs

theorem Resting.note (hs : Resting parse s) (hop : Resumes request op) (a : op.Answer) :
    Resting parse (note request s op a) := by
  have hwrite : ∀ {sock data}, request ≠ .ok data →
      Resting parse (if request = .ok data then s.subscribes sock else s) := by
    intro sock data hne
    rw [if_neg hne]
    exact hs
  cases op with
  | sendall sock data =>
    cases a with
    | ok _ => exact hwrite hop
    | error fault => exact hs
  | writeDrain sock data =>
    cases a with
    | ok _ => exact hwrite hop
    | error fault => exact hs
  | recv sock size =>
    cases a with
    | ok chunk => exact hs.reads sock chunk.1
    | error fault => exact hs
  | readexactly sock size =>
    cases a with
    | ok data => exact hs.reads sock data.1
    | error fault => exact hs
  | closeSocket sock => exact hs.closes sock
  | yieldEvent event => exact hop.elim
  | _ => exact hs

theorem keeps_resting : Keeps (world request parse) (Resumes request) (Resting parse) := by
  intro s op hop hs
  refine ⟨fun a => (hs.note hop a).sound, fun a s' hstep => ?_⟩
  rw [show s' = _ from hstep]
  exact hs.note hop a

/-- HELLO is no subscription. -/
def Distinct (request : Except Exc Bytes) : Prop :=
  ∀ token m, Commands.hello token = .ok m → ∀ frame, encodeFrame m.payload = .ok frame →
    request ≠ .ok frame

theorem only_connect (p : Package) (hrequest : Distinct request) :
    p.transport.connect.Only (Resumes request) Exc.NotDelay := by
  apply p.only_connect fun _ => resumes_of_plain
  intro token m sock frame hm hframe
  exact ⟨hrequest token m hm frame hframe, hrequest token m hm frame hframe⟩

theorem resting_connect (p : Package) (hrequest : Distinct request) (hs : Resting parse s) :
    wpm (world request parse) p.transport.connect (fun _ _ s' => Resting parse s') c s := by
  refine wpm_mono (wpm_of_only keeps_resting (only_connect p hrequest) hs) ?_
  exact fun _ _ _ hpost => hpost.2

/-- The subscription of a connection that failed is over, or it has read a part of a frame. -/
def Failed (parse : Bytes → Except Exc StreamEvent) (c : Connection) (s : Listening) : Prop :=
  Resting parse s ∨ ∃ sock b, c.sock = some sock ∧ b.length < frameLength b ∧ Listens parse sock b s

theorem Failed.sound (h : Failed parse c s) : Sound parse s := by
  rcases h with h | ⟨sock, b, -, hb, h⟩
  · exact h.sound
  · exact h.sound hb.le

theorem Failed.reconnect (p : Package) (hrequest : Distinct request) (h : Failed parse c s) :
    wpm (world request parse) p.transport.reconnect (fun _ _ s' => Resting parse s') c s := by
  apply wpm_reconnect_of
  · intro sock hsock
    have hcloses : Resting parse (s.closes sock) := by
      rcases h with h | ⟨sock', b, hsock', hb, h⟩
      · exact h.closes sock
      · obtain rfl : sock' = sock := Option.some.inj (hsock'.symm.trans hsock)
        exact h.closes hb
    refine ⟨fun _ => hcloses.sound, fun s' hstep => ?_⟩
    rw [show s' = s.closes sock from hstep]
    exact resting_connect p hrequest hcloses
  · intro hclosed
    rcases h with h | ⟨sock, b, hsock, -⟩
    · exact resting_connect p hrequest h
    · rw [hclosed] at hsock
      cases hsock

/-- Nothing more is read on a stream that ended, and what is left is as it should be. -/
structure Over (parse : Bytes → Except Exc StreamEvent) (r : Except Exc Unit)
    (s : Listening) : Prop where
  sound : Sound parse s
  leftOut : ∀ feed ∈ s.feeds.head?, LeftOut parse r feed

theorem Failed.over (h : Failed parse c s) (r : Except Exc Unit) : Over parse r s where
  sound := h.sound
  leftOut feed hmem := by
    rcases h with h | ⟨sock, b, -, hb, h⟩
    · exact .inl (h.past feed (List.mem_of_mem_head? hmem)).whole
    · obtain ⟨feed', hhead, -, -, hshows⟩ := h.current
      obtain rfl : feed' = feed := Option.some.inj (hhead.symm.trans hmem)
      exact .inl ⟨b, hb, hshows⟩

theorem Listens.failed (h : Listens parse sock [] s) (hsock : c.sock = some sock) : Failed parse c s :=
  .inr ⟨sock, [], hsock, by decide, h⟩

theorem Failed.waits {α : Type} {m : ConnM α} {E : Exc → Prop} (hm : m.Leaves NetOp.Waiting E)
    (h : Failed parse c s) : wpm (world request parse) m (fun _ c' s' => Failed parse c' s') c s := by
  have hkeeps : Keeps (world request parse) NetOp.Waiting (Failed parse c) :=
    keeps_unheard (fun _ => unheard_of_waiting) fun _ h => h.sound
  refine wpm_mono (wpm_of_leaves hkeeps hm h) ?_
  intro r c' s' hpost
  obtain ⟨⟨hc', _⟩, hs'⟩ := hpost
  exact hc' ▸ hs'

theorem delay_waits (policy : ReconnectPolicy) (attempt : ℕ) :
    (policy.delay attempt).Leaves NetOp.Waiting fun _ => True :=
  .bind (.ofExcept fun _ _ => trivial) fun _ => .bind (.perform (by exact trivial)) fun _ => .pure _

/-- A stream that goes on with a new connection, or ends. -/
theorem wpm_streamFailed (p : Package) (hrequest : Distinct request)
    (policy : ReconnectPolicy) (e : Exc)
    (attempt : ℕ) {again : ConnM Unit} (hs : Failed parse c s)
    (hagain : ∀ c s, Resting parse s →
      wpm (world request parse) again (fun r _ s' => Over parse r s') c s) :
    wpm (world request parse) (p.transport.streamFailed policy e attempt again)
      (fun r _ s' => Over parse r s') c s := by
  unfold Transport.streamFailed
  rw [wpm_ite]
  split
  · exact hs.over _
  rw [wpm_ite]
  split
  · exact hs.over _
  rw [wpm_bind]
  refine wpm_mono (hs.waits (delay_waits policy (attempt + 1))) ?_
  intro r c₁ s₁ hs₁
  cases r with
  | error e => exact hs₁.over _
  | ok delay =>
    dsimp only
    rw [wpm_bind]
    refine wpm_mono (hs₁.waits ((p.sleep_sleepsFor delay).mono
      (fun _ => NetOp.SleepsFor.waiting) fun _ => id)) ?_
    intro r c₂ s₂ hs₂
    cases r with
    | error e => exact hs₂.over _
    | ok _ =>
      dsimp only
      unfold Transport.streamReconnect
      rw [wpm_bind, wpm_attempt]
      refine wpm_mono (hs₂.reconnect p hrequest) ?_
      intro r c₃ s₃ hs₃
      cases r with
      | ok _ => exact hagain c₃ s₃ hs₃
      | error e =>
        dsimp only
        rw [wpm_ite]
        split
        · exact hagain c₃ s₃ hs₃
        · have hfailed : Failed parse c₃ s₃ := .inl hs₃
          exact hfailed.over _

/-- The command is written on a connection whose earlier subscriptions are over. -/
theorem wpm_openStream (p : Package) {command : Command}
    (hcommand : encodeFrame command.payload = request)
    (hs : Resting parse s) :
    wpm (world request parse) (p.transport.openStream command) (fun r c' s' => match r with
      | .ok _ => ∃ sock, c'.sock = some sock ∧ Listens parse sock [] s'
      | .error _ => Resting parse s') c s := by
  have hkeeps : Keeps (world request parse) NetOp.Setting (Resting parse) :=
    keeps_unheard (fun _ => unheard_of_setting) fun _ h => h.sound
  apply wpm_writeRequest p hkeeps command Deadline.unlimited hs
  · exact fun e s' _ hs' => hs'
  · intro sock frame s₁ hs₁ hsock _ hframe
    have hsame : request = .ok frame := hcommand.symm.trans hframe
    have hlistens := hs₁.subscribes sock
    -- a command that was written begins a subscription, one that was not changes nothing
    have hwritten : ∀ a : (p.writeOp sock frame).Answer,
        note request s₁ (p.writeOp sock frame) a = s₁.subscribes sock ∧ p.wrote a = .ok () ∨
        note request s₁ (p.writeOp sock frame) a = s₁ ∧ ∃ e, p.wrote a = .error e := by
      intro a
      cases p with
      | sync =>
        match a with
        | .ok _ => exact .inl ⟨if_pos hsame, rfl⟩
        | .error .timeout => exact .inr ⟨rfl, _, rfl⟩
        | .error .other => exact .inr ⟨rfl, _, rfl⟩
      | aio =>
        match a with
        | .ok _ => exact .inl ⟨if_pos hsame, rfl⟩
        | .error .timeout => exact .inr ⟨rfl, _, rfl⟩
        | .error .other => exact .inr ⟨rfl, _, rfl⟩
        | .error .cancelled => exact .inr ⟨rfl, _, rfl⟩
    refine ⟨fun a => ?_, fun a s₂ hstep => ?_⟩
    · rcases hwritten a with ⟨hnote, -⟩ | ⟨hnote, -⟩
      · rw [hnote]
        exact hlistens.sound (by decide)
      · rw [hnote]
        exact hs₁.sound
    · rw [show s₂ = _ from hstep]
      rcases hwritten a with ⟨hnote, hwrote⟩ | ⟨hnote, e, hwrote⟩
      · rw [hnote, hwrote]
        exact ⟨sock, (Connection.sock_noteWrite _ _).trans hsock, hlistens⟩
      · rw [hnote, hwrote]
        exact hs₁

theorem frameReader (p : Package) (sock : SockId) :
    FrameReader (world request parse) p sock
      (fun b s => b.length ≤ frameLength b ∧ Listens parse sock b s) where
  setting b := keeps_unheard (fun _ => unheard_of_setting) fun _ h => h.2.sound h.1
  read b s size hs hasked := by
    have hread : ∀ a : (p.readOp sock size).Answer,
        (b ++ p.readData a).length ≤ frameLength (b ++ p.readData a) ∧
          Listens parse sock (b ++ p.readData a) (note request s (p.readOp sock size) a) := by
      intro a
      cases p with
      | sync =>
        match a with
        | .ok chunk => exact ⟨hasked.length_le chunk.2, hs.2.reads chunk.1⟩
        | .error fault =>
          change (b ++ []).length ≤ frameLength (b ++ []) ∧ Listens parse sock (b ++ []) s
          rw [List.append_nil]
          exact hs
      | aio =>
        match a with
        | .ok data => exact ⟨hasked.length_le data.2.le, hs.2.reads data.1⟩
        | .error fault =>
          change (b ++ []).length ≤ frameLength (b ++ []) ∧ Listens parse sock (b ++ []) s
          rw [List.append_nil]
          exact hs
    refine ⟨fun a => (hread a).2.sound (hread a).1, fun a s' hstep => ?_⟩
    rw [show s' = _ from hstep]
    exact hread a

/-- The loop of a stream that is not polled. -/
theorem wpm_streamLoop (p : Package) (hrequest : Distinct request) (policy : ReconnectPolicy)
    {command : Command} (hcommand : encodeFrame command.payload = request) (rounds attempt : ℕ) :
    (∀ c s, Resting parse s → wpm (world request parse)
      (p.transport.streamLoop policy command parse false rounds .opening attempt)
      (fun r _ s' => Over parse r s') c s) ∧
    ∀ c s sock, c.sock = some sock → Listens parse sock [] s → wpm (world request parse)
      (p.transport.streamLoop policy command parse false rounds .reading attempt)
      (fun r _ s' => Over parse r s') c s := by
  -- between commands nothing is listened to, and between frames the subscription is current
  induction rounds generalizing attempt with
  | zero => exact ⟨fun _ _ _ => trivial, fun _ _ _ _ _ => trivial⟩
  | succ rounds ih =>
    constructor
    · intro c s hs
      unfold Transport.streamLoop Transport.stopped
      rw [if_neg Bool.false_ne_true, wpm_bind, wpm_pure]
      dsimp only
      rw [if_neg Bool.false_ne_true, wpm_bind, wpm_attempt]
      refine wpm_mono (wpm_openStream p hcommand hs) ?_
      intro r c₁ s₁ hr
      cases r with
      | ok _ =>
        obtain ⟨sock, hsock, hlistens⟩ := hr
        exact (ih attempt).2 c₁ s₁ sock hsock hlistens
      | error e => exact wpm_streamFailed p hrequest policy e attempt (.inl hr) (ih (attempt + 1)).1
    · intro c s sock hsock hs
      unfold Transport.streamLoop Transport.nextFrame
      rw [if_neg Bool.false_ne_true, wpm_bind, wpm_attempt, wpm_bind]
      refine wpm_mono ((frameReader p sock).readFrame Deadline.unlimited hsock ⟨by decide, hs⟩) ?_
      intro r c₁ s₁ hpost
      obtain ⟨hc₁, hr⟩ := hpost
      rw [hc₁]
      cases r with
      | error e =>
        obtain ⟨part, hpart, -, hlistens⟩ := hr
        exact wpm_streamFailed p hrequest policy e attempt (.inr ⟨sock, part, hsock, hpart, hlistens⟩)
          (ih (attempt + 1)).1
      | ok payload =>
        obtain ⟨hlength, hframe, hlistens⟩ := hr
        dsimp only
        rw [wpm_pure]
        dsimp only
        rw [wpm_bind, wpm_ofExcept]
        cases hparse : parse payload with
        | error e =>
          refine ⟨hlistens.sound hframe, fun feed hmem => ?_⟩
          -- the payload that did not parse was that of the subscription the stream ends with
          obtain ⟨feed', hhead, -, -, hshows⟩ := hlistens.current
          obtain rfl : feed' = feed := Option.some.inj (hhead.symm.trans hmem)
          exact .inr ⟨payload, e, hshows, hparse, rfl⟩
        | ok event =>
          have hyields := hlistens.yields hlength hparse
          dsimp only
          rw [wpm_bind, wpm_perform_op]
          refine ⟨fun _ => hyields.sound (by decide), fun resume s₂ hstep => ?_⟩
          rw [show s₂ = s₁.yields event from hstep]
          cases resume with
          | next => exact (ih 0).2 c _ sock hsock hyields
          | close => exact (hyields.failed hsock).over _

/-- Closing the socket afterwards changes nothing of what was read and yielded. -/
theorem Over.closes {r : Except Exc Unit} (h : Over parse r s) (sock : SockId) :
    Over parse r (s.closes sock) := by
  have hshut : ∀ feed ∈ (s.closes sock).feeds.head?, ∃ feed' ∈ s.feeds.head?,
      feed = { feed' with closed := feed.closed } := by
    intro feed hmem
    cases hfeeds : s.feeds with
    | nil =>
      rw [Listening.closes, hfeeds] at hmem
      cases hmem
    | cons feed' older =>
      refine ⟨feed', rfl, ?_⟩
      rw [Listening.closes, hfeeds] at hmem
      have heq : (if feed'.sock = sock then { feed' with closed := true } else feed') = feed :=
        Option.some.inj hmem
      rw [← heq]
      split <;> rfl
  refine ⟨⟨?_, ?_, ?_⟩, ?_⟩
  · rw [Listening.closes]
    dsimp only
    rw [events_modifyHead, h.sound.events]
    intro feed
    split <;> rfl
  · intro feed hmem
    rw [Listening.closes] at hmem
    dsimp only at hmem
    rw [List.tail_modifyHead] at hmem
    exact h.sound.older feed hmem
  · intro feed hmem
    obtain ⟨feed', hmem', heq⟩ := hshut feed hmem
    rw [heq]
    exact h.sound.newest feed' hmem'
  · intro feed hmem
    obtain ⟨feed', hmem', heq⟩ := hshut feed hmem
    rw [heq]
    exact h.leftOut feed' hmem'

theorem keeps_over (r : Except Exc Unit) : Keeps (world request parse)
    (fun op => Unheard op ∨ ∃ sock, op = .closeSocket sock) (Over parse r) := by
  intro s op hop hs
  rcases hop with hop | ⟨sock, rfl⟩
  · exact keeps_unheard (fun _ => id) (fun _ h => h.sound) s op hop hs
  · refine ⟨fun _ => (hs.closes sock).sound, fun a s' hstep => ?_⟩
    rw [show s' = s.closes sock from hstep]
    exact hs.closes sock

/-- A stream gives its connection back, and has yielded what it read. -/
theorem wpm_stream (p : Package) (config : ClientConfig) (hrequest : Distinct request)
    {command : Command} (hcommand : encodeFrame command.payload = request) (rounds : ℕ)
    (hs : Resting parse s) :
    wpm (world request parse) (p.transport.stream config rounds command parse false)
      (fun r _ s' => Over parse r s') () s := by
  have hover : ∀ {e : Exc} {s' : Listening}, Resting parse s' → Over parse (.error e) s' := by
    intro e s' hs'
    have hfailed : Failed parse (.new config.settings) s' := .inl hs'
    exact hfailed.over _
  unfold Transport.stream
  rw [wpm_bind]
  have hkeeps : Keeps (world request parse) (· = .monotonic) (Resting parse) :=
    keeps_unheard (fun _ heq => heq ▸ trivial) fun _ h => h.sound
  refine wpm_mono (wpm_of_leaves hkeeps (clocks_start _) hs) ?_
  intro r _ s₁ hpost
  obtain ⟨-, hs₁⟩ := hpost
  cases r with
  | error e => exact hover hs₁
  | ok d =>
    apply wpm_withConnection_of
    have hacquire := p.only_acquire (fun _ => resumes_of_plain) config.settings d
      (only_connect p hrequest)
    refine wpm_mono (wpm_of_only keeps_resting hacquire hs₁) ?_
    intro r _ s₂ hpost
    obtain ⟨-, hs₂⟩ := hpost
    cases r with
    | error e => exact hover hs₂
    | ok connection =>
      refine wpm_mono ((wpm_streamLoop p hrequest config.reconnect hcommand rounds 0).1
        connection s₂ hs₂) ?_
      intro outcome c₃ s₃ hs₃
      -- putting the connection back reads and yields nothing
      have hplace : Keeps (world request parse)
          (fun op => Unheard op ∨ ∃ sock, op = .closeSocket sock)
            (Over parse outcome) := keeps_over outcome
      apply wpm_release_of (J := Over parse outcome)
      · obtain ⟨hpermits, hstep⟩ := hplace s₃ .poolClosed (.inl trivial) hs₃
        exact ⟨hpermits, fun a s₄ h => hstep a s₄ h⟩
      · intro s₄ hs₄
        apply wpm_close_of
        · intro sock _
          obtain ⟨hpermits, hstep⟩ := hplace s₄ (.closeSocket sock) (.inr ⟨sock, rfl⟩) hs₄
          exact ⟨hpermits, fun s₅ h => hstep () s₅ h⟩
        · exact fun _ => hs₄
      · intro s₄ hs₄
        obtain ⟨hpermits, hstep⟩ := hplace s₄ (.putSlot _) (.inl trivial) hs₄
        exact ⟨hpermits, fun a s₅ h => hstep a s₅ h⟩

end Contracts

/-! ## Every run -/

/-- The frame that subscribes. -/
def request (subscription : Subscription) : Except Exc Bytes := do
  encodeFrame (← subscription.command).payload

theorem distinct_request (subscription : Subscription) : Distinct (request subscription) := by
  have hencoded : ∃ (e : Encoder) (a : e.Args), e ≠ .hello ∧ e.encode a = subscription.command := by
    cases subscription with
    | stream => exact ⟨.stream, (), by decide, rfl⟩
    | pstream pfx => exact ⟨.pstream, pfx, by decide, rfl⟩
    | qstream => exact ⟨.qstream, (), by decide, rfl⟩
    | qpstream pfx => exact ⟨.qpstream, pfx, by decide, rfl⟩
  obtain ⟨e, a, hne, hencode⟩ := hencoded
  intro token m hm frame hframe heq
  obtain ⟨command, hcommand, hsame⟩ := bind_ok_iff.mp heq
  rw [← hencode] at hcommand
  exact hne (@Encoder.eq_of_payload_eq e .hello a token command m hcommand hm
    (encodeFrame_injective hsame hframe))

/-- A stream has yielded what it read when it ends. -/
theorem wpm_subscribe (p : Package) (config : ClientConfig) (rounds : ℕ) (subscription : Subscription) :
    wpm (world (request subscription) subscription.parse)
      (p.transport.subscribe config rounds subscription false)
      (fun r _ s' => Over subscription.parse r s') () {} := by
  unfold Transport.subscribe
  rw [wpm_bind, wpm_ofExcept]
  cases hcommand : subscription.command with
  | error e => exact ⟨resting_start.sound, fun feed hmem => by cases hmem⟩
  | ok command =>
    have hrequest : encodeFrame command.payload = request subscription := by
      rw [request, hcommand]
      rfl
    exact wpm_stream p config (distinct_request subscription) hrequest rounds resting_start

/-- What is read of the frames that were sent begins with whole frames: the first ones. -/
theorem prefix_of_frames {payloads sent : List Bytes} {rest : Bytes}
    (hpayloads : ∀ payload ∈ payloads, payload.length < 2 ^ 32)
    (hsent : ∀ payload ∈ sent, payload.length < 2 ^ 32)
    (h : (payloads.map frameOf).flatten ++ rest <+: (sent.map frameOf).flatten) :
    payloads <+: sent := by
  induction payloads generalizing sent with
  | nil => exact List.nil_prefix
  | cons payload payloads ih =>
    obtain ⟨hpayload, hpayloads⟩ := List.forall_mem_cons.mp hpayloads
    obtain ⟨unread, hunread⟩ := h
    cases sent with
    | nil => simp [frameOf, beBytes] at hunread
    | cons first sent =>
      obtain ⟨hfirst, hlater⟩ := List.forall_mem_cons.mp hsent
      simp only [List.map_cons, List.flatten_cons, frameOf, List.append_assoc] at hunread
      obtain ⟨rfl, hmore⟩ := payload_of_frame hfirst
        (decodeFrameSize_beBytes hpayload (le_refl payload.length)) hunread
      refine (List.prefix_cons_inj payload).mpr (ih hpayloads hlater ⟨unread, ?_⟩)
      simpa only [List.append_assoc, frameOf] using hmore

/-- The events are those of the first frames that were sent, in order. -/
theorem Feed.Shows.sent {parse : Bytes → Except Exc StreamEvent} {feed : Feed} {rest : Bytes}
    (h : feed.Shows parse rest) {sent : List Bytes} (hsent : ∀ payload ∈ sent, payload.length < 2 ^ 32)
    (hreceived : feed.received <+: (sent.map frameOf).flatten) :
    feed.yielded.map Except.ok <+: sent.map parse := by
  obtain ⟨payloads, hlengths, heq, hyielded⟩ := h
  rw [heq] at hreceived
  rw [← hyielded]
  exact (prefix_of_frames hlengths hsent hreceived).map parse

theorem Sound.shows {parse : Bytes → Except Exc StreamEvent} {s : Listening} (h : Sound parse s) :
    ∀ feed ∈ s.feeds, ∃ rest, feed.Shows parse rest := by
  intro feed hmem
  cases hfeeds : s.feeds with
  | nil =>
    rw [hfeeds] at hmem
    cases hmem
  | cons newest older =>
    rw [hfeeds] at hmem
    rcases List.mem_cons.mp hmem with rfl | hmem
    · obtain ⟨rest, -, hshows⟩ := h.newest feed (by rw [hfeeds]; rfl)
      exact ⟨rest, hshows⟩
    · obtain ⟨rest, -, hshows⟩ := (h.older feed (by rw [hfeeds]; exact hmem)).whole
      exact ⟨rest, hshows⟩

/-- In every run of a stream the consumer gets the events of its subscriptions one after the other, of
each the events of the first frames that the server sent; a subscription begins when the connection of
the one before it is closed, and no frame that was read whole is left out, but one that is not an event
and so ends the stream. -/
theorem subscriptions_delivered (p : Package) (config : ClientConfig) (rounds : ℕ)
    (subscription : Subscription) {q : Prog Net (Except Exc Unit × Unit)} {log : List (Event Net)}
    (hrun : Reaches (record Net) (p.transport.subscribe config rounds subscription false (), [])
      (q, log)) :
    Sound subscription.parse (heard (request subscription) log) ∧
    (∀ feed ∈ (heard (request subscription) log).feeds, ∀ sent : List Bytes,
      (∀ payload ∈ sent, payload.length < 2 ^ 32) → feed.received <+: (sent.map frameOf).flatten →
      feed.yielded.map Except.ok <+: sent.map subscription.parse) ∧
    ∀ r, q = .pure (r, ()) → ∀ feed ∈ (heard (request subscription) log).feeds.head?,
      LeftOut subscription.parse r feed := by
  have hcontract := wpm_subscribe p config rounds subscription
  have hreaches : Reaches (world (request subscription) subscription.parse)
      (p.transport.subscribe config rounds subscription false (), {})
      (q, heard (request subscription) log) := by
    refine reaches_of_step ?_ (reaches_monitor
      (fun s (event : Event Net) => note (request subscription) s event.1 event.2) {} hrun)
    exact fun _ _ _ _ hstep => hstep
  have hsound : Sound subscription.parse (heard (request subscription) log) := by
    refine reaches_invariant (Sound subscription.parse) ?_ hcontract resting_start.sound hreaches
    intro s op a s' _ hpermits hstep
    rw [show s' = _ from hstep]
    exact hpermits a
  refine ⟨hsound, ?_, ?_⟩
  · intro feed hmem sent hsent hreceived
    obtain ⟨rest, hshows⟩ := hsound.shows feed hmem
    exact hshows.sent hsent hreceived
  · intro r hq
    rw [hq] at hreaches
    have hover : Over subscription.parse r (heard (request subscription) log) :=
      wp_result (Q := fun (rc : Except Exc Unit × Unit) s' => Over subscription.parse rc.1 s')
        hcontract hreaches
    exact hover.leftOut

/-! ## A server that closes the connection of a subscription -/

def calmly (n : ℕ) : List ((op : NetOp) → op.Answer) := List.replicate n NetOp.calm

/-- The data arrives in one piece. -/
def arrives (data : Bytes) : (op : NetOp) → op.Answer
  | .recv _ size => if h : data.length ≤ size then .ok ⟨data, h⟩ else .error .other
  | op => NetOp.calm op

def framed (payload : Bytes) : List ((op : NetOp) → op.Answer) :=
  [arrives (beBytes payload.length), arrives payload]

def lends : (op : NetOp) → op.Answer
  | .getSlot _ => some (some .pooled)
  | op => NetOp.calm op

def leaves : (op : NetOp) → op.Answer
  | .yieldEvent _ => .close
  | op => NetOp.calm op

def limitEvent : Bytes := encodeUtf8 "ok|hit;60;1;2".toList

/-- An event on the pooled connection, the end of its stream, a new connection and an event on it. -/
def resubscribed : List ((op : NetOp) → op.Answer) :=
  calmly 3 ++ [lends] ++ calmly 3 ++ framed limitEvent ++ calmly 15 ++
    framed (encodeUtf8 "ok|1;4096;0;admin".toList) ++ calmly 3 ++ framed limitEvent ++ [leaves] ++ calmly 2

def resubscribing : Prog Net (Except Exc Unit × Unit) :=
  Package.sync.transport.subscribe { settings := Connection.pooled.settings } 6 .stream false ()

theorem resubscription_delivered :
    let s := heard (request .stream) (resubscribing.play resubscribed []).2
    (∀ feed ∈ s.feeds, ∀ sent : List Bytes, (∀ payload ∈ sent, payload.length < 2 ^ 32) →
      feed.received <+: (sent.map frameOf).flatten →
      feed.yielded.map Except.ok <+: sent.map Subscription.stream.parse) ∧
    s.feeds.map Feed.sock = [0, 3] ∧
    s.events = [.limit ⟨"hit".toList, 60, 1, 2⟩, .limit ⟨"hit".toList, 60, 1, 2⟩] := by
  have hrun := reaches_of_outcome (p := resubscribing) (a := (.error .generatorExit, ())) resubscribed
    (by decide +kernel)
  exact ⟨(subscriptions_delivered .sync _ 6 .stream hrun).2.1, by decide +kernel, by decide +kernel⟩

end FqClient.Subscriptions
