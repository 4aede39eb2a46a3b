import FqClient.PooledLines

namespace FqClient.OwnResponses

open Effects HeldLines PooledLines

variable {ι : Type}

/-! ## What the server sends on a connection -/

/-- A connection as the server sees it: the bytes of its responses that nobody has read yet, nothing
certain since a request may have reached it in part, or lost. -/
inductive Line
  | live (unread : Bytes)
  | torn
  | lost
  deriving DecidableEq

/-- The request that a task wrote last, with the response of the server to it. -/
abbrev Exchange := Option (Bytes × Bytes)

namespace Line

/-- A response is outstanding, or may be. -/
def Owed : Line → Prop
  | .live unread => unread ≠ []
  | .torn => True
  | .lost => False

/-- A request that arrives is answered by one frame, whenever its bytes may come. -/
def Asked (frame : Bytes) : Line → Line → Exchange → Prop
  | .live unread, l', n' => ∃ response : Bytes, response.length < 2 ^ 32 ∧
      l' = .live (unread ++ (beBytes response.length ++ response)) ∧ n' = some (frame, response)
  | .torn, l', n' => l' = .torn ∧ n' = none
  | .lost, l', n' => l' = .lost ∧ n' = none

/-- A write that fails may have sent nothing or a part, or the connection is lost. -/
def Failed : Line → Line → Prop
  | .lost, l' => l' = .lost
  | l, l' => l' = l ∨ l' = .torn ∨ l' = .lost

/-- The bytes that are read are the next ones; where nothing is certain they may be any. -/
def Reads (data : Bytes) : Line → Line → Prop
  | .live unread, l' => ∃ rest, unread = data ++ rest ∧ l' = .live rest
  | .torn, l' => l' = .torn
  | .lost, _ => False

/-- What an operation on a socket does to its line, and to what is known of the request that was written
last. -/
def transfer : (op : NetOp) → op.Answer → Line → Exchange → Line → Exchange → Prop
  | .sendall _ frame, .ok _, l, _, l', n' | .writeDrain _ frame, .ok _, l, _, l', n' =>
      l.Asked frame l' n'
  | .sendall _ _, .error _, l, _, l', n' | .writeDrain _ _, .error _, l, _, l', n' =>
    l.Failed l' ∧ n' = none
  | .recv _ _, .ok chunk, l, n, l', n' =>
    (if chunk.1 = [] then l' = .lost else l.Reads chunk.1 l') ∧ n' = n
  | .readexactly _ _, .ok data, l, n, l', n' => l.Reads data.1 l' ∧ n' = n
  | .readexactly _ _, .error .incomplete, _, n, l', n' => l' = .lost ∧ n' = n
  | .recv _ _, .error .other, l, n, l', n' | .readexactly _ _, .error .other, l, n, l', n' =>
    (l' = l ∨ l' = .lost) ∧ n' = n
  | _, _, l, n, l', n' => l' = l ∧ n' = n

end Line

/-- The server answers every request that reaches it with one frame, in the order of the requests. -/
def server : Wire ι Line Exchange where
  fresh := .live []
  Owed := Line.Owed
  transfer _ := Line.transfer

/-- A request that is written is answered by one frame or its connection is lost, and what is read
are the next bytes. -/
structure Answering (wire : Wire ι Line Exchange) : Prop where
  fresh : wire.fresh = .live []
  owed : wire.Owed = Line.Owed
  asked : ∀ {i : ι} (p : Package) {sock : SockId} {frame : Bytes} {a : (p.writeOp sock frame).Answer}
    {l l' : Line} {n n' : Exchange}, p.wrote a = .ok () →
    wire.transfer i (p.writeOp sock frame) a l n l' n' → l.Asked frame l' n' ∨ l' = .lost
  recv : ∀ {i : ι} {sock : SockId} {size : ℕ} {a : (NetOp.recv sock size).Answer} {l l' : Line}
    {n n' : Exchange}, wire.transfer i (.recv sock size) a l n l' n' →
    Line.transfer (.recv sock size) a l n l' n'
  readexactly : ∀ {i : ι} {sock : SockId} {size : ℕ} {a : (NetOp.readexactly sock size).Answer}
    {l l' : Line} {n n' : Exchange}, wire.transfer i (.readexactly sock size) a l n l' n' →
    Line.transfer (.readexactly sock size) a l n l' n'

/-- The payload is the response to the request of the command. -/
def Answered (command : Command) (payload : Bytes) (n : Exchange) : Prop :=
  ∃ frame, encodeFrame command.payload = .ok frame ∧ n = some (frame, payload)

/-! ## One request -/

/-- These bytes of the response are read, and the rest of it is what comes next. -/
def Remains (response b : Bytes) : Line → Prop
  | .live rest => b ++ rest = beBytes response.length ++ response
  | .torn => False
  | .lost => b <+: beBytes response.length ++ response

section Remains
variable {response b data : Bytes} {l l' : Line}

theorem Remains.prefix (h : Remains response b l) : b <+: beBytes response.length ++ response := by
  cases l with
  | live rest => exact ⟨rest, h⟩
  | torn => exact h.elim
  | lost => exact h

theorem Remains.reads (h : Remains response b l) (hread : l.Reads data l') :
    Remains response (b ++ data) l' := by
  cases l with
  | live rest =>
    obtain ⟨more, rfl, rfl⟩ := hread
    change b ++ data ++ more = _
    rw [List.append_assoc]
    exact h
  | torn => exact h.elim
  | lost => exact hread.elim

/-- A response that is read by its header is read whole, and nothing after it. -/
theorem Remains.whole {header payload : Bytes} {limit : ℕ} (hlength : response.length < 2 ^ 32)
    (hsize : decodeFrameSize header limit = .ok payload.length)
    (h : Remains response (header ++ payload) l) : payload = response ∧ ¬ l.Owed := by
  cases l with
  | live rest =>
    have hall : header ++ (payload ++ rest) = beBytes response.length ++ (response ++ []) := by
      rw [List.append_nil, ← List.append_assoc]
      exact h
    obtain ⟨hpayload, hrest⟩ := payload_of_frame hlength hsize hall
    exact ⟨hpayload, fun howed => howed hrest⟩
  | torn => exact h.elim
  | lost =>
    obtain ⟨more, hmore⟩ := h.prefix
    have hall : header ++ (payload ++ more) = beBytes response.length ++ (response ++ []) := by
      rw [List.append_nil, ← List.append_assoc]
      exact hmore
    exact ⟨(payload_of_frame hlength hsize hall).1, id⟩

end Remains

/-- The request was written, and so much of the response to it is read; nothing was, when the connection
is lost. -/
def Awaits (sock : SockId) (frame b : Bytes) (o : Own Line Exchange) : Prop :=
  (∃ response : Bytes, response.length < 2 ^ 32 ∧ o.note = some (frame, response) ∧
    ∃ l, o.lines sock = some l ∧ Remains response b l) ∨
  b = [] ∧ o.lines sock = some .lost

section Awaits
variable {i : ι} {sock : SockId} {frame b data : Bytes} {o : Own Line Exchange} {l l' : Line}

theorem Awaits.held (h : Awaits sock frame b o) : ∃ l, o.lines sock = some l := by
  rcases h with ⟨_, _, _, l, hl, _⟩ | ⟨_, hl⟩
  · exact ⟨l, hl⟩
  · exact ⟨.lost, hl⟩

theorem Awaits.reads (h : Awaits sock frame b o) (hl : o.lines sock = some l)
    (hread : l.Reads data l') :
    Awaits sock frame (b ++ data) ⟨Function.update o.lines sock (some l'), o.note⟩ := by
  rcases h with ⟨response, hlength, hnote, l₀, hl₀, hremains⟩ | ⟨_, hl₀⟩
  · have heq : l₀ = l := Option.some.inj (hl₀.symm.trans hl)
    rw [heq] at hremains
    exact Or.inl ⟨response, hlength, hnote, l', Function.update_self _ _ _, hremains.reads hread⟩
  · have heq : Line.lost = l := Option.some.inj (hl₀.symm.trans hl)
    rw [← heq] at hread
    exact hread.elim

theorem Awaits.lost (h : Awaits sock frame b o) :
    Awaits sock frame b ⟨Function.update o.lines sock (some .lost), o.note⟩ := by
  rcases h with ⟨response, hlength, hnote, l, _, hremains⟩ | ⟨hb, _⟩
  · exact Or.inl ⟨response, hlength, hnote, .lost, Function.update_self _ _ _, hremains.prefix⟩
  · exact Or.inr ⟨hb, Function.update_self _ _ _⟩

theorem Awaits.same (h : Awaits sock frame b o) (hl : o.lines sock = some l) :
    Awaits sock frame b ⟨Function.update o.lines sock (some l), o.note⟩ := by
  rw [← hl, Function.update_eq_self]
  exact h

theorem reader {wire : Wire ι Line Exchange} (hwire : Answering wire) :
    Reader (Own.world wire i) sock (Awaits sock frame) where
  setting b := keeps_aside (fun _ => NetOp.Setting.aside) _
  recv b o size h := by
    refine ⟨h.held, fun a o' hstep => ?_⟩
    have htransfers : o.Transfers wire i sock (.recv sock size) a o' := hstep
    obtain ⟨l, l', n, hl, htransfer, rfl⟩ := htransfers
    replace htransfer := hwire.recv htransfer
    cases a with
    | ok chunk =>
      obtain ⟨hread, rfl⟩ := htransfer
      dsimp only
      split at hread
      next hnil =>
        rw [hnil, List.append_nil, hread]
        exact h.lost
      next => exact h.reads hl hread
    | error fault =>
      cases fault with
      | timeout =>
        obtain ⟨rfl, rfl⟩ := htransfer
        exact h.same hl
      | other =>
        obtain ⟨hline, rfl⟩ := htransfer
        -- an `OSError` says nothing of the line: it may be the same or lost
        rcases hline with rfl | rfl
        · exact h.same hl
        · exact h.lost
  readexactly b o size h := by
    refine ⟨h.held, fun a o' hstep => ?_⟩
    have htransfers : o.Transfers wire i sock (.readexactly sock size) a o' := hstep
    obtain ⟨l, l', n, hl, htransfer, rfl⟩ := htransfers
    replace htransfer := hwire.readexactly htransfer
    cases a with
    | ok data =>
      obtain ⟨hread, rfl⟩ := htransfer
      exact h.reads hl hread
    | error fault =>
      refine ⟨[], ?_⟩
      rw [List.append_nil]
      cases fault with
      | timeout | cancelled =>
        obtain ⟨rfl, rfl⟩ := htransfer
        exact h.same hl
      | other =>
        obtain ⟨hline, rfl⟩ := htransfer
        rcases hline with rfl | rfl
        · exact h.same hl
        · exact h.lost
      | incomplete =>
        obtain ⟨rfl, rfl⟩ := htransfer
        exact h.lost

/-- A frame that is read while a response is awaited is that response. -/
theorem Awaits.answered {command : Command} {header payload : Bytes} {limit : ℕ} {c : Connection}
    (hframe : encodeFrame command.payload = .ok frame)
    (hsize : decodeFrameSize header limit = .ok payload.length) (hsock : c.sock = some sock)
    (h : Awaits sock frame (header ++ payload) o) :
    Has (fun l => ¬ l.Owed) c o ∧ Answered command payload o.note := by
  rcases h with ⟨response, hlength, hnote, l, hl, hremains⟩ | ⟨hnil, _⟩
  · obtain ⟨hpayload, hclean⟩ := hremains.whole hlength hsize
    constructor
    · intro sock' hsock'
      exact ⟨l, Option.some.inj (hsock.symm.trans hsock') ▸ hl, hclean⟩
    · exact ⟨frame, hframe, by rw [hnote, hpayload]⟩
  · have hheader := (decodeFrameSize_ok hsize).1
    rw [(List.append_eq_nil_iff.mp hnil).1] at hheader
    exact absurd hheader (by decide)

theorem asked_of_wrote (p : Package) {a : (p.writeOp sock frame).Answer} {n n' : Exchange}
    (hwrote : p.wrote a = .ok ()) (h : Line.transfer (p.writeOp sock frame) a l n l' n') :
    l.Asked frame l' n' := by
  cases p with
  | sync =>
    rcases a with (_ | _) | _
    · cases hwrote
    · cases hwrote
    · exact h
  | aio =>
    rcases a with (_ | _ | _) | _
    · cases hwrote
    · cases hwrote
    · cases hwrote
    · exact h

theorem answering_server : Answering (server : Wire ι Line Exchange) where
  fresh := rfl
  owed := rfl
  asked p _ _ _ _ _ _ _ hwrote h := Or.inl (asked_of_wrote p hwrote h)
  recv h := h
  readexactly h := h

/-- A request on a connection on which nothing is outstanding. -/
theorem Awaits.begin (hclean : ¬ l.Owed) {n' : Exchange} (h : l.Asked frame l' n' ∨ l' = .lost) :
    Awaits sock frame [] ⟨Function.update o.lines sock (some l'), n'⟩ := by
  rcases h with h | rfl
  swap
  · exact Or.inr ⟨rfl, Function.update_self _ _ _⟩
  cases l with
  | live unread =>
    obtain ⟨response, hlength, rfl, rfl⟩ := h
    have hnone : unread = [] := not_not.mp hclean
    refine Or.inl ⟨response, hlength, rfl, _, Function.update_self _ _ _, ?_⟩
    rw [hnone]
    exact rfl
  | torn => exact absurd trivial hclean
  | lost =>
    obtain ⟨rfl, rfl⟩ := h
    exact Or.inr ⟨rfl, Function.update_self _ _ _⟩

end Awaits

/-- A call on a clean connection that is answered gets the response to its own request, and leaves the
connection clean. -/
theorem send_own {wire : Wire ι Line Exchange} (hwire : Answering wire) (p : Package) {i : ι}
    (command : Command) (d : Deadline) {c : Connection} {o : Own Line Exchange}
    (hc : Has (fun l => ¬ l.Owed) c o) :
    wpm (Own.world wire i) (p.transport.send command d) (fun r c' o' => Holds c' o' ∧
      ∀ payload, r = .ok payload → Has (fun l => ¬ l.Owed) c' o' ∧ Answered command payload o'.note)
      c o := by
  have hfailed : ∀ {e : Exc} {c' : Connection} {o' : Own Line Exchange}, Holds c' o' → Holds c' o' ∧
      ∀ payload, (Except.error e : Except Exc Bytes) = .ok payload →
        Has (fun l => ¬ l.Owed) c' o' ∧ Answered command payload o'.note := by
    intro e c' o' hc'
    exact ⟨hc', fun payload heq => by cases heq⟩
  apply wpm_send_of
  apply wpm_writeRequest p (J := fun o' => o' = o)
    (keeps_aside (fun _ => NetOp.Setting.aside) _) command d rfl
  · intro e o' _ ho'
    rw [ho']
    exact hfailed hc.holds
  · intro sock frame o₁ ho₁ hsock _ hframe
    obtain ⟨l, hl, hclean⟩ := hc sock hsock
    rw [ho₁]
    refine ⟨permits_writeOp p hl, fun a o₂ h => ?_⟩
    have htransfers := step_writeOp p h
    have hsock₂ : (c.noteWrite (p.wrote a)).sock = some sock := by rw [c.sock_noteWrite, hsock]
    have hholds : ∀ {o' : Own Line Exchange}, (∃ l, o'.lines sock = some l) →
        Holds (c.noteWrite (p.wrote a)) o' := by
      intro o' ⟨l', hl'⟩ sock' hsock'
      exact ⟨l', Option.some.inj (hsock₂.symm.trans hsock') ▸ hl', trivial⟩
    have hheld := htransfers.held
    generalize hc₂ : c.noteWrite (p.wrote a) = c₂ at hsock₂ hholds
    cases hwrote : p.wrote a with
    | error e => exact hfailed (hholds hheld)
    | ok u =>
      dsimp only
      obtain ⟨l₀, l', n', hl₀, htransfer, rfl⟩ := htransfers
      rw [← Option.some.inj (hl.symm.trans hl₀)] at htransfer
      -- the line has the response, whole or in part, from the moment of the write
      have hawaits : Awaits sock frame [] ⟨Function.update o.lines sock (some l'), n'⟩ :=
        Awaits.begin hclean (hwire.asked p hwrote htransfer)
      refine wpm_mono (wpm_readFrame p (reader hwire) d hsock₂ hawaits) ?_
      intro r c₃ o₃ hpost
      obtain ⟨hc₃, hr⟩ := hpost
      rw [hc₃]
      cases r with
      | error e =>
        obtain ⟨more, hmore⟩ := hr.got
        exact hfailed (hholds hmore.held)
      | ok payload =>
        obtain ⟨header, hsize, hread⟩ := hr
        obtain ⟨hgood, hanswered⟩ := hread.answered hframe hsize hsock₂
        exact ⟨(hgood.congr rfl).holds, fun payload' heq => by
          rw [← Except.ok.inj heq]
          exact ⟨hgood.congr rfl, hanswered⟩⟩

theorem Answering.answers {wire : Wire ι Line Exchange} (hwire : Answering wire) (p : Package)
    (i : ι) : Answers wire i p.transport (fun l => ¬ l.Owed) Answered where
  clean l h := by
    rw [hwire.owed] at h
    exact h
  fresh := by
    rw [hwire.fresh]
    exact fun h => h rfl
  send command d _ _ := send_own hwire p command d

theorem answers (p : Package) (i : ι) :
    Answers server i p.transport (fun l => ¬ l.Owed) Answered := answering_server.answers p i

/-! ## Every run -/

/-- A unary call. -/
structure Unary where
  command : Command
  timeout : Timeout
  rounds : ℕ

variable [DecidableEq ι]

/-- Unary calls over one pool, none of which has begun. -/
def tasks (p : Package) (config : ClientConfig) (calls : ι → Unary)
    (opened : List Connection) (empty : ℕ)
    (first : ι) : Tasks Net ι (Except Exc Bytes × Unit) (Shared ι Line Exchange) :=
  ⟨first, fun i => p.transport.request config (calls i).rounds (calls i).command (calls i).timeout (),
    .start server none opened empty⟩

/-- In every interleaving of unary calls in which no connection is put back while a response to it is
outstanding, what a call hands to its parser is the response to its own request. -/
theorem responses_own_of_settled (p : Package) (config : ClientConfig) (calls : ι → Unary)
    (opened : List Connection) (empty : ℕ) (first : ι)
    (t : Tasks Net ι (Except Exc Bytes × Unit) (Shared ι Line Exchange))
    (h : Tasks.Reaches (settled server) (fun _ => True) (tasks p config calls opened empty first) t)
    (i : ι) (payload : Bytes) (hreturned : t.prog i = .pure (.ok payload, ())) :
    Answered (calls i).command payload (t.state.note i) := by
  have hstart : ∀ i s, Inv server s → wp (among server i)
    ((tasks p config calls opened empty first).prog i)
      (fun rc s' => Inv server s' ∧ ∀ payload, rc.1 = .ok payload →
        Answered (calls i).command payload (own i s').note) s := by
    intro i s hs
    exact wpm_request (answers p i) config (calls i).rounds (calls i).command (calls i).timeout hs
  obtain ⟨hinv, hsound⟩ := sound_of_reaches
    (Q := fun i rc o => ∀ payload, rc.1 = .ok payload → Answered (calls i).command payload o.note)
    (inv_start (answers p first).fresh none opened empty) hstart h
  exact hsound.ended_of_inv hinv hreturned payload rfl

/-! ## Two calls, one after the other -/

def reply (frame : Bytes) : Bytes :=
  if encodeFrame Command.getHit.payload = .ok frame then encodeUtf8 "ok|1".toList else encodeUtf8 "ok|2".toList

/-- A server that answers each request, at once or too late. -/
def answering (late : Bool) : (op : NetOp) → Line → Exchange → op.Answer × Line × Exchange
  | .sendall _ frame, .live unread, _ =>
    (.ok (), .live (unread ++ (beBytes (reply frame).length ++ reply frame)), some (frame, reply frame))
  | .sendall _ _, l, _ => (.ok (), l, none)
  | .recv _ size, .live unread, n =>
    if late = true ∨ unread.take size = [] then (.error .timeout, .live unread, n)
    else (.ok ⟨unread.take size, List.length_take_le _ _⟩, .live (unread.drop size), n)
  | .recv _ _, l, n => (.error .timeout, l, n)
  | .writeDrain _ _, l, _ => (.error .other, l, none)
  | .readexactly _ _, l, n => (.error .timeout, l, n)
  | op, l, n => (op.calm, l, n)

theorem transfer_answering (late : Bool) (op : NetOp) (l : Line) (n : Exchange) :
    Line.transfer op (answering late op l n).1 l n (answering late op l n).2.1
      (answering late op l n).2.2 := by
  cases op with
  | sendall sock frame =>
    cases l with
    | live unread =>
      refine ⟨reply frame, ?_, rfl, rfl⟩
      unfold reply
      split <;> decide
    | torn | lost => exact ⟨rfl, rfl⟩
  | recv sock size =>
    cases l with
    | live unread =>
      unfold answering
      dsimp only
      split
      next => exact ⟨rfl, rfl⟩
      next h =>
        refine ⟨?_, rfl⟩
        dsimp only
        rw [if_neg fun hnil => h (Or.inr hnil)]
        exact ⟨_, (List.take_append_drop _ _).symm, rfl⟩
    | torn | lost => exact ⟨rfl, rfl⟩
  | writeDrain sock frame =>
    cases l with
    | live unread => exact ⟨Or.inl rfl, rfl⟩
    | torn => exact ⟨Or.inl rfl, rfl⟩
    | lost => exact ⟨rfl, rfl⟩
  | _ => exact ⟨rfl, rfl⟩

def clean : Line → Bool
  | .live unread => unread.isEmpty
  | .torn => false
  | .lost => true

theorem not_owed_of_clean (l : Line) (h : clean l = true) : ¬ l.Owed := by
  cases l with
  | live unread => exact not_not.mpr (List.isEmpty_iff.mp h)
  | torn => cases h
  | lost => exact id

/-- A call of a second, and one without a deadline. -/
def twoCalls : Bool → Unary
  | false => ⟨.getHit, .seconds 1, 1⟩
  | true => ⟨⟨encodeUtf8 "GET miss".toList, true⟩, .unlimited, 1⟩

def twoTasks (first : Bool) : Tasks Net Bool (Except Exc Bytes × Unit) (Shared Bool Line Exchange) :=
  tasks .sync { settings := Connection.pooled.settings } twoCalls [.pooled] 0 first

theorem step_answering (late first : Bool) (s : Shared Bool Line Exchange) (op : NetOp) :
    (env server first).step s op (serve NetOp.calm (answering late) first s op).1
      (serve NetOp.calm (answering late) first s op).2 :=
  step_serve (transfer_answering late) s op

/-- The calls on a connection each. -/
def apart : Tasks Net Bool (Except Exc Bytes × Unit) (Shared Bool Line Exchange) :=
  tasks .sync { settings := Connection.pooled.settings } twoCalls
    [.pooled, { Connection.pooled with sock := some 4 }] 0 false

/-- Both have written their requests before either reads a response. -/
def bothWaiting : List (Bool × ℕ) := [(false, 8), (true, 4), (false, 7), (true, 5)]


/-- Two calls whose responses come in time. -/
theorem answered_in_time : ∃ t : Tasks Net Bool (Except Exc Bytes × Unit) (Shared Bool Line Exchange),
    t.prog false = .pure (.ok (encodeUtf8 "ok|1".toList), ()) ∧
    t.prog true = .pure (.ok (encodeUtf8 "ok|2".toList), ()) ∧
      Answered (twoCalls false).command (encodeUtf8 "ok|1".toList) (t.state.note false) ∧
      Answered (twoCalls true).command (encodeUtf8 "ok|2".toList) (t.state.note true) := by
  have hplays : (apart.play (serveSettled clean NetOp.calm fun _ => answering false)
    bothWaiting).any (fun t =>
      t.ended false (.ok (encodeUtf8 "ok|1".toList), ()) &&
        t.ended true (.ok (encodeUtf8 "ok|2".toList), ())) = true := by decide +kernel
  obtain ⟨t, hreaches, hends⟩ := Tasks.exists_of_plays (W := settled server)
    (step_serveSettled (fun _ => transfer_answering false) not_owed_of_clean) hplays
  obtain ⟨hfalse, htrue⟩ := (Bool.and_eq_true _ _).mp hends
  have hown := responses_own_of_settled .sync _ twoCalls _ 0 false t hreaches
  have hfirst := Tasks.prog_of_ended hfalse
  have hsecond := Tasks.prog_of_ended htrue
  exact ⟨t, hfirst, hsecond, hown false _ hfirst, hown true _ hsecond⟩

/-- The first call gives up before the response to it arrives, and puts its connection back; the second
one takes that response for its own. -/
theorem response_crossed : ∃ t, Tasks.Reaches (env server) (fun _ => True) (twoTasks false) t ∧
    t.prog false = .pure (.error (.timeoutError .whileReading), ()) ∧
    ∃ payload, t.prog true = .pure (.ok payload, ()) ∧
      ¬ Answered (twoCalls true).command payload (t.state.note true) := by
  let before : Shared Bool Line Exchange :=
    (((twoTasks false).prog false).run (serve NetOp.calm (answering true) false)
      (twoTasks false).state).2
  let after : Shared Bool Line Exchange :=
    (((twoTasks false).prog true).run (serve NetOp.calm (answering false) true) before).2
  have hfirst : ((twoTasks false).prog false).run (serve NetOp.calm (answering true) false)
    (twoTasks false).state =
      (some (.error (.timeoutError .whileReading), ()), before) := run_eq_of_fst (by decide +kernel)
  have hsecond : ((twoTasks false).prog true).run (serve NetOp.calm (answering false) true) before =
      (some (.ok (encodeUtf8 "ok|1".toList), ()), after) := run_eq_of_fst (by decide +kernel)
  have hnote : (after.note true).map Prod.snd = some (encodeUtf8 "ok|2".toList) := by decide +kernel
  obtain ⟨t, hreaches, hfalse, htrue, hstate⟩ :=
    Tasks.reaches_in_turn (i := false) (j := true) (by decide)
    (reaches_run (step_answering true false) hfirst) (reaches_run (step_answering false true) hsecond)
  refine ⟨t, hreaches, hfalse, _, htrue, ?_⟩
  rintro ⟨frame, _, hanswered⟩
  rw [hstate] at hanswered
  rw [hanswered] at hnote
  have hsame : encodeUtf8 "ok|1".toList = encodeUtf8 "ok|2".toList := Option.some.inj hnote
  exact absurd hsame (by decide)

end FqClient.OwnResponses
