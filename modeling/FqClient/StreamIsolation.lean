import FqClient.PooledLines

namespace FqClient.StreamIsolation

open Effects HeldLines PooledLines

variable {ι : Type}

/-! ## What the server sends on a connection -/

/-- A connection as the server sees it: the tasks that subscribed on it, as long as it stays open. -/
inductive Line (ι : Type)
  | live (subscribers : List ι)
  | lost

/-- The tasks for whose subscriptions those frames were sent that a task has read from. -/
abbrev ReadOf (ι : Type) := List ι

namespace Line

/-- The server goes on sending events. -/
def Owed : Line ι → Prop
  | .live subscribers => subscribers ≠ []
  | .lost => False

/-- The line once a command of task `i` has arrived, which may be its subscription. -/
def Subscribed (subscribes : Prop) (i : ι) : Line ι → Line ι → Prop
  | .live subscribers, l' => (subscribes → l' = .live (i :: subscribers)) ∧
      (¬ subscribes → l' = .live subscribers)
  | .lost, l' => l' = .lost

/-- What is read are bytes of responses and of events for those who subscribed, in any number and order. -/
def Reads : Line ι → ReadOf ι → Line ι → ReadOf ι → Prop
  | .live subscribers, n, l', n' => l' = .live subscribers ∧
      ∃ owners : List ι, (∀ j ∈ owners, j ∈ subscribers) ∧ n' = n ++ owners
  | .lost, _, _, _ => False

/-- What an operation of task `i` on a socket does to its line, and to what the task has read from. A write
that fails may have sent the whole command. -/
def transfer (subscribes : ι → Bytes → Prop) (i : ι) :
    (op : NetOp) → op.Answer → Line ι → ReadOf ι → Line ι → ReadOf ι → Prop
  | .sendall _ frame, .ok _, l, n, l', n' | .writeDrain _ frame, .ok _, l, n, l', n' =>
    l.Subscribed (subscribes i frame) i l' ∧ n' = n
  | .sendall _ frame, .error _, l, n, l', n' | .writeDrain _ frame, .error _, l, n, l', n' =>
    (l' = l ∨ l.Subscribed (subscribes i frame) i l' ∨ l' = .lost) ∧ n' = n
  | .recv _ _, .ok chunk, l, n, l', n' => if chunk.1 = [] then l' = .lost ∧ n' = n else l.Reads n l' n'
  | .readexactly _ _, .ok _, l, n, l', n' => l.Reads n l' n'
  | .readexactly _ _, .error .incomplete, _, n, l', n' => l' = .lost ∧ n' = n
  | .recv _ _, .error .other, l, n, l', n' | .readexactly _ _, .error .other, l, n, l', n' =>
    (l' = l ∨ l' = .lost) ∧ n' = n
  | _, _, l, n, l', n' => l' = l ∧ n' = n

end Line

/-- The server sends a subscriber events for as long as its connection stays open. -/
def server (subscribes : ι → Bytes → Prop) : Wire ι (Line ι) (ReadOf ι) where
  fresh := .live []
  Owed := Line.Owed
  transfer := Line.transfer subscribes

/-! ## What each step keeps -/

/-- Only the task itself has subscribed on this line. -/
def OnlyOwn (i : ι) : Line ι → Prop
  | .live subscribers => ∀ j ∈ subscribers, j = i
  | .lost => True

theorem onlyOwn_of_not_owed {i : ι} {l : Line ι} (h : ¬ l.Owed) : OnlyOwn i l := by
  cases l with
  | live subscribers =>
    have hnone : subscribers = [] := not_not.mp h
    rw [hnone]
    exact List.forall_mem_nil _
  | lost => trivial

section Transfer
variable {i : ι} {l l' : Line ι} {n n' : ReadOf ι}

theorem OnlyOwn.subscribed {subscribes : Prop} (hl : OnlyOwn i l) (h : l.Subscribed subscribes i l') :
    OnlyOwn i l' := by
  cases l with
  | live subscribers =>
    by_cases hsubscribes : subscribes
    · rw [h.1 hsubscribes]
      exact List.forall_mem_cons.mpr ⟨rfl, hl⟩
    · rw [h.2 hsubscribes]
      exact hl
  | lost =>
    rw [show l' = .lost from h]
    trivial

theorem OnlyOwn.reads (hl : OnlyOwn i l) (hn : ∀ j ∈ n, j = i) (h : l.Reads n l' n') :
    OnlyOwn i l' ∧ ∀ j ∈ n', j = i := by
  cases l with
  | live subscribers =>
    obtain ⟨rfl, owners, howners, rfl⟩ := h
    refine ⟨hl, fun j hj => ?_⟩
    rcases List.mem_append.mp hj with hj | hj
    · exact hn j hj
    · exact hl j (howners j hj)
  | lost => exact h.elim

/-- A transfer on a line that only the task itself subscribed on. -/
theorem OnlyOwn.transfer {subscribes : ι → Bytes → Prop} {op : NetOp} {a : op.Answer} (hl : OnlyOwn i l)
    (hn : ∀ j ∈ n, j = i) (h : Line.transfer subscribes i op a l n l' n') :
    OnlyOwn i l' ∧ ∀ j ∈ n', j = i := by
  have hsame : l' = l ∧ n' = n → OnlyOwn i l' ∧ ∀ j ∈ n', j = i := by
    intro hsame
    rw [hsame.1, hsame.2]
    exact ⟨hl, hn⟩
  have hlost : l' = .lost ∧ n' = n → OnlyOwn i l' ∧ ∀ j ∈ n', j = i := by
    intro hlost
    rw [hlost.1, hlost.2]
    exact ⟨trivial, hn⟩
  have hwritten : ∀ {frame}, l.Subscribed (subscribes i frame) i l' ∧ n' = n →
      OnlyOwn i l' ∧ ∀ j ∈ n', j = i := by
    intro frame hwritten
    rw [hwritten.2]
    exact ⟨hl.subscribed hwritten.1, hn⟩
  have hfailed : ∀ {frame}, (l' = l ∨ l.Subscribed (subscribes i frame) i l' ∨ l' = .lost) ∧ n' = n →
      OnlyOwn i l' ∧ ∀ j ∈ n', j = i := by
    intro frame hfailed
    rcases hfailed with ⟨hline | hline | hline, hnote⟩
    · exact hsame ⟨hline, hnote⟩
    · exact hwritten ⟨hline, hnote⟩
    · exact hlost ⟨hline, hnote⟩
  have hbroken : (l' = l ∨ l' = .lost) ∧ n' = n → OnlyOwn i l' ∧ ∀ j ∈ n', j = i := by
    intro hbroken
    rcases hbroken with ⟨hline | hline, hnote⟩
    · exact hsame ⟨hline, hnote⟩
    · exact hlost ⟨hline, hnote⟩
  -- a line stays as it is, is subscribed by its holder, or is lost
  cases op with
  | sendall sock frame =>
    cases a with
    | ok _ => exact hwritten h
    | error fault => exact hfailed h
  | writeDrain sock frame =>
    cases a with
    | ok _ => exact hwritten h
    | error fault => exact hfailed h
  | recv sock size =>
    cases a with
    | ok chunk =>
      unfold Line.transfer at h
      dsimp only at h
      split at h
      · exact hlost h
      · exact hl.reads hn h
    | error fault =>
      cases fault with
      | timeout => exact hsame h
      | other => exact hbroken h
  | readexactly sock size =>
    cases a with
    | ok data => exact hl.reads hn h
    | error fault =>
      cases fault with
      | timeout | cancelled => exact hsame h
      | other => exact hbroken h
      | incomplete => exact hlost h
  | _ => exact hsame h

end Transfer

variable {subscribes : ι → Bytes → Prop}

/-- On the line of a socket that a task holds only the task itself has subscribed, and it has only read
from frames for its own subscription. -/
structure Tidy (s : Shared ι (Line ι) (ReadOf ι)) : Prop where
  lines : ∀ sock i, s.place sock = .held i → OnlyOwn i (s.line sock)
  notes : ∀ i, ∀ j ∈ s.note i, j = i

section Tidy
variable {i : ι} {s s' : Shared ι (Line ι) (ReadOf ι)} {sock : SockId} {op : NetOp} {a : op.Answer}
  {slot : Option Connection}

theorem Tidy.opens (h : Tidy s) : Tidy { s with
    line := Function.update s.line sock (.live []),
      place := Function.update s.place sock (.held i) } where
  lines sock' j hheld := by
    by_cases heq : sock' = sock
    · rw [heq]
      dsimp only
      rw [Function.update_self]
      exact List.forall_mem_nil _
    · dsimp only at hheld ⊢
      rw [Function.update_of_ne heq] at hheld ⊢
      exact h.lines sock' j hheld
  notes := h.notes

/-- A slot changes hands. -/
theorem Tidy.moves (h : Tidy s) {place : Place ι} (slots : List (Option Connection))
    (hslot : ∀ sock, slotSocket slot = some sock → ∀ j, place = .held j → OnlyOwn j (s.line sock)) :
    Tidy { s with slots := slots, place := s.moved slot place } where
  lines sock' j hheld := by
    dsimp only at hheld ⊢
    unfold Shared.moved at hheld
    cases hsock : slotSocket slot with
    | none =>
      rw [hsock] at hheld
      exact h.lines sock' j hheld
    | some sock =>
      rw [hsock] at hheld
      dsimp only at hheld
      by_cases heq : sock' = sock
      · rw [heq, Function.update_self] at hheld
        rw [heq]
        exact hslot sock hsock j hheld
      · rw [Function.update_of_ne heq] at hheld
        exact h.lines sock' j hheld
  notes := h.notes

/-- What the pool hands out has no subscriber. -/
theorem Tidy.takes (h : Tidy s) (hs : Inv (server subscribes) s) {slots : List (Option Connection)}
    (hslots : s.slots = slot :: slots) :
    Tidy { s with slots := slots, place := s.moved slot (.held i) } := by
  apply h.moves
  intro sock hsock j _
  have hmem : sock ∈ s.pooled := by
    rw [Shared.pooled, hslots, socketsOf_of_some hsock]
    exact List.mem_cons_self
  exact onlyOwn_of_not_owed (hs.clean sock hmem)

variable [DecidableEq ι]

theorem Tidy.transfers (h : Tidy s) (hheld : s.place sock = .held i)
    (hstep : s.Transfers (server subscribes) i sock op a s') : Tidy s' := by
  obtain ⟨l, n, htransfer, rfl⟩ := hstep
  obtain ⟨hline, hnote⟩ := (h.lines sock i hheld).transfer (h.notes i) htransfer
  constructor
  · intro sock' j hheld'
    by_cases heq : sock' = sock
    · rw [heq] at hheld' ⊢
      have hsame : i = j := by
        cases hheld.symm.trans hheld'
        rfl
      dsimp only
      rw [Function.update_self, ← hsame]
      exact hline
    · dsimp only
      rw [Function.update_of_ne heq]
      exact h.lines sock' j hheld'
  · intro j
    dsimp only
    by_cases heq : j = i
    · rw [heq, Function.update_self]
      exact hnote
    · rw [Function.update_of_ne heq]
      exact h.notes j

theorem tidy_of_step (hs : Inv (server subscribes) s) (h : Tidy s) (hpermits : permits i s op)
    (hstep : step (server subscribes) i s op a s') : Tidy s' := by
  cases op with
  | createConnection host port timeout =>
    cases a with
    | error fault => exact (show s' = s from hstep) ▸ h
    | ok sock => exact hstep.2 ▸ h.opens
  | openConnection host port hostname =>
    cases a with
    | error fault => exact (show s' = s from hstep) ▸ h
    | ok sock => exact hstep.2 ▸ h.opens
  | sendall | recv | writeDrain | readexactly => exact h.transfers hpermits hstep
  | closeSocket sock =>
    rw [show s' = _ from hstep]
    constructor
    · intro sock' j hheld
      -- the closed socket is held by nobody any more
      by_cases heq : sock' = sock
      · rw [heq] at hheld
        dsimp only at hheld
        rw [Function.update_self] at hheld
        cases hheld
      · dsimp only at hheld
        rw [Function.update_of_ne heq] at hheld
        exact h.lines sock' j hheld
    · exact h.notes
  | getSlot timeout =>
    cases a with
    | none => exact (show s' = s from hstep) ▸ h
    | some slot =>
      obtain ⟨slots, hslots, hstep⟩ := hstep
      exact hstep ▸ h.takes hs hslots
  | awaitSlot =>
    cases a with
    | error fault => exact (show s' = s from hstep) ▸ h
    | ok slot =>
      obtain ⟨slots, hslots, hstep⟩ := hstep
      exact hstep ▸ h.takes hs hslots
  | putSlot slot =>
    rw [show s' = _ from hstep]
    apply h.moves
    intro sock _ j heq
    cases heq
  | _ => exact (show s' = s from hstep) ▸ h

end Tidy

/-! ## Every run -/

/-- A unary call, or a stream. -/
inductive Work
  | call (command : Command) (timeout : Timeout) (rounds : ℕ)
  | stream (command : Command) (parse : Bytes → Except Exc StreamEvent) (polled : Bool) (rounds : ℕ)

namespace Work

def prog (p : Package) (config : ClientConfig) : Work → Prog Net (Except Exc Unit × Unit)
  | .call command timeout rounds =>
    ((fun _ => ()) <$> p.transport.request config rounds command timeout : ClientM Unit) ()
  | .stream command parse polled rounds => p.transport.stream config rounds command parse polled ()

/-- The frame is the command of the stream. -/
def Subscribes : Work → Bytes → Prop
  | .call _ _ _, _ => False
  | .stream command _ _ _, frame => encodeFrame command.payload = .ok frame

end Work

/-- Calls and streams over one pool, none of which has begun. -/
def tasks (p : Package) (config : ClientConfig) (works : ι → Work)
    (opened : List Connection) (empty : ℕ)
    (first : ι) : Tasks Net ι (Except Exc Unit × Unit) (Shared ι (Line ι) (ReadOf ι)) :=
  ⟨first, fun i => (works i).prog p config,
    .start (server fun i => (works i).Subscribes) [] opened empty⟩

theorem not_owed_fresh : ¬ (server subscribes).Owed (server subscribes).fresh := fun h => h rfl

theorem tidy_start (works : ι → Work) (opened : List Connection) (empty : ℕ) :
    Tidy (Shared.start (server fun i => (works i).Subscribes) [] opened empty) where
  lines _ _ _ := List.forall_mem_nil _
  notes _ := List.forall_mem_nil _

section Runs
variable [DecidableEq ι]

theorem wp_work (p : Package) (config : ClientConfig) (work : Work) {i : ι}
    {s : Shared ι (Line ι) (ReadOf ι)} (hs : Inv (server subscribes) s) :
    wp (among (server subscribes) i) (work.prog p config)
      (fun _ s' => Inv (server subscribes) s' ∧ True) s := by
  have hheld : Answers (server subscribes) i p.transport (fun _ => True) fun _ _ _ => True :=
    answers_held p
  cases work with
  | call command timeout rounds =>
    have hcall := wpm_request hheld config rounds command timeout hs
    change wpm (among (server subscribes) i)
      ((fun _ => ()) <$> p.transport.request config rounds command
      timeout) (fun _ _ s' => Inv (server subscribes) s' ∧ True) () s
    rw [wpm_map]
    refine wpm_mono hcall ?_
    intro r _ s' hpost
    obtain ⟨hs', _⟩ := hpost
    cases r with
    | error e => exact ⟨hs', trivial⟩
    | ok payload => exact ⟨hs', trivial⟩
  | stream command parse polled rounds =>
    change wpm (among (server subscribes) i) (p.transport.stream config rounds command parse polled)
      (fun _ _ s' => Inv (server subscribes) s' ∧ True) () s
    unfold Transport.stream
    rw [wpm_bind]
    refine wpm_mono (wpm_own hs (wpm_of_leaves
      (keeps_aside (fun _ => NetOp.Setting.aside) fun _ => True)
      (clocks_start _).sets trivial)) ?_
    intro r _ s₁ hpost
    obtain ⟨hs₁, _⟩ := hpost
    cases r with
    | error e => exact ⟨hs₁, trivial⟩
    | ok d =>
      have hbody : ∀ c (o : Own (Line ι) (ReadOf ι)), Has (fun _ => True) c o →
          wpm (Own.world (server subscribes) i)
            (p.transport.streamLoop config.reconnect command parse polled rounds .opening 0)
            (fun r c' o' => Holds c' o' ∧ ∀ u : Unit, r = .ok u → True) c o := by
        intro c o hc
        refine wpm_mono (retains_streamLoop p _ command parse polled rounds .opening 0 c o hc) ?_
        exact fun _ _ _ hc' => ⟨hc', fun _ _ => trivial⟩
      refine wpm_mono (wpm_withConnection (P := fun _ _ => True) hheld.clean
        (fun o => hheld.connect rfl) d hbody hs₁) ?_
      exact fun _ _ _ hpost => ⟨hpost.1, trivial⟩

theorem tidy_of_reaches (p : Package) (config : ClientConfig) (works : ι → Work)
    (opened : List Connection) (empty : ℕ) (first : ι)
    {t : Tasks Net ι (Except Exc Unit × Unit) (Shared ι (Line ι) (ReadOf ι))}
    (h : Tasks.Reaches (settled (server fun i => (works i).Subscribes)) (fun _ => True)
      (tasks p config works opened empty first) t) : Tidy t.state := by
  induction h with
  | refl => exact tidy_start works opened empty
  | tail hreaches hstep ih =>
    obtain ⟨hinv, hsound⟩ := sound_of_reaches (Q := fun _ _ _ => True)
      (inv_start not_owed_fresh [] opened empty) (fun i s => wp_work p config (works i)) hreaches
    cases hstep with
    | op hprog hop => exact tidy_of_step hinv ih (hsound.permits hprog) hop.2
    | switch k hparked => exact ih

/-- In every interleaving of calls and streams in which no connection is put back while events may arrive
on it, no task ever reads from a frame that the server sent for the subscription of another one. -/
theorem events_own_of_settled (p : Package) (config : ClientConfig) (works : ι → Work)
    (opened : List Connection) (empty : ℕ) (first : ι)
    (t : Tasks Net ι (Except Exc Unit × Unit) (Shared ι (Line ι) (ReadOf ι)))
    (h : Tasks.Reaches (settled (server fun i => (works i).Subscribes)) (fun _ => True)
      (tasks p config works opened empty first) t) (i j : ι) (hread : j ∈ t.state.note i) : j = i :=
  (tidy_of_reaches p config works opened empty first h).notes i j hread

end Runs

/-! ## A stream that ends, and a call after it -/

def event : Bytes := encodeUtf8 "ok|key;1;2;3".toList

/-- The part of an event that a read of this size gets, when the frame is read in two steps. -/
def eventPart (size : ℕ) : Bytes := (if size = frameHeaderSize then beBytes event.length else event).take size

/-- A server that sends each reader one event of those who subscribed, and then closes the connection. -/
def sending (i : Bool) : (op : NetOp) → Line Bool → ReadOf Bool → op.Answer × Line Bool × ReadOf Bool
  | .sendall _ frame, .live subscribers, n =>
    (.ok (), .live (if i = false ∧ encodeFrame (encodeUtf8 "STREAM".toList) = .ok frame then i :: subscribers
      else subscribers), n)
  | .sendall _ _, .lost, n => (.ok (), .lost, n)
  | .recv _ size, .live subscribers, n =>
    if n.length < 2 ∧ eventPart size ≠ [] then
      (.ok ⟨eventPart size, List.length_take_le _ _⟩, .live subscribers, n ++ subscribers)
    else (.ok ⟨[], Nat.zero_le _⟩, .lost, n)
  | .recv _ _, .lost, n => (.ok ⟨[], Nat.zero_le _⟩, .lost, n)
  | .writeDrain _ _, l, n => (.error .other, l, n)
  | .readexactly _ _, l, n => (.error .timeout, l, n)
  | op, l, n => (op.calm, l, n)

/-- A stream without a limit on its reads, and a call without a deadline. -/
def streamAndCall : Bool → Work
  | false => .stream ⟨encodeUtf8 "STREAM".toList, true⟩ Subscription.stream.parse false 3
  | true => .call .getHit .unlimited 1

theorem transfer_sending (i : Bool) (op : NetOp) (l : Line Bool) (n : ReadOf Bool) :
    Line.transfer (fun i => (streamAndCall i).Subscribes) i op (sending i op l n).1 l n
      (sending i op l n).2.1
      (sending i op l n).2.2 := by
  cases op with
  | sendall sock frame =>
    cases l with
    | live subscribers =>
      refine ⟨?_, rfl⟩
      have hiff : (streamAndCall i).Subscribes frame ↔
          i = false ∧ encodeFrame (encodeUtf8 "STREAM".toList) = .ok frame := by
        cases i with
        | false => exact (and_iff_right rfl).symm
        | true => exact ⟨False.elim, fun h => absurd h.1 (by decide)⟩
      exact ⟨fun h => congrArg Line.live (if_pos (hiff.mp h)),
        fun h => congrArg Line.live (if_neg (mt hiff.mpr h))⟩
    | lost => exact ⟨rfl, rfl⟩
  | recv sock size =>
    cases l with
    | live subscribers =>
      unfold sending
      dsimp only
      split
      next h =>
        unfold Line.transfer
        dsimp only
        rw [if_neg h.2]
        exact ⟨rfl, subscribers, fun _ => id, rfl⟩
      next => exact ⟨rfl, rfl⟩
    | lost => exact ⟨rfl, rfl⟩
  | writeDrain sock frame => exact ⟨Or.inl rfl, rfl⟩
  | _ => exact ⟨rfl, rfl⟩

/-- The consumer closes the stream at its first event, or goes on. -/
def consumer (resume : Resume) : (op : NetOp) → op.Answer
  | .yieldEvent _ => resume
  | op => op.calm

theorem step_sending (resume : Resume) (i : Bool) (s : Shared Bool (Line Bool) (ReadOf Bool))
    (op : NetOp) :
    (env (server fun i => (streamAndCall i).Subscribes) i).step s op
      (serve (consumer resume) (sending i) i s op).1 (serve (consumer resume) (sending i) i s op).2 :=
  step_serve (transfer_sending i) s op

def lostOrAlone : Line Bool → Bool
  | .live subscribers => subscribers.isEmpty
  | .lost => true

theorem not_owed_of_lostOrAlone (l : Line Bool) (h : lostOrAlone l = true) : ¬ l.Owed := by
  cases l with
  | live subscribers => exact not_not.mpr (List.isEmpty_iff.mp h)
  | lost => exact id

/-- A client that does not reconnect. -/
def onceConfig : ClientConfig :=
  { settings := Connection.pooled.settings, reconnect := { maxAttempts := some 0 } }

def begun : Tasks Net Bool (Except Exc Unit × Unit) (Shared Bool (Line Bool) (ReadOf Bool)) :=
  tasks .sync onceConfig streamAndCall [.pooled] 0 false

/-- The stream and the call on a connection each. -/
def apart : Tasks Net Bool (Except Exc Unit × Unit) (Shared Bool (Line Bool) (ReadOf Bool)) :=
  tasks .sync onceConfig streamAndCall [.pooled, { Connection.pooled with sock := some 4 }] 0 false

/-- The call is made while the stream reads its event. -/
def turns : List (Bool × ℕ) := [(false, 8), (true, 6), (false, 6), (true, 3)]

/-- The stream reads an event of its own and the call nothing of it, and the stream ends when the server
closes its connection. -/
theorem own_event_read : ∃ t : Tasks Net Bool (Except Exc Unit × Unit) (Shared Bool (Line Bool) (ReadOf Bool)),
    t.prog false = .pure (.error (.connectionError .closedByServer), ()) ∧
      t.prog true = .pure (.ok (), ()) ∧
      (∃ j, j ∈ t.state.note false ∧ j = false) ∧ false ∉ t.state.note true := by
  have hplays : (apart.play (serveSettled lostOrAlone (consumer .next) sending) turns).any (fun t =>
      t.ended false (.error (.connectionError .closedByServer), ()) && t.ended true (.ok (), ()) &&
        decide (false ∈ t.state.note false)) = true := by decide +kernel
  obtain ⟨t, hreaches, hends⟩ := Tasks.exists_of_plays
    (W := settled (server fun i => (streamAndCall i).Subscribes))
    (step_serveSettled transfer_sending not_owed_of_lostOrAlone) hplays
  obtain ⟨hended, hread⟩ := (Bool.and_eq_true _ _).mp hends
  obtain ⟨hstream, hcall⟩ := (Bool.and_eq_true _ _).mp hended
  have hown := events_own_of_settled .sync onceConfig streamAndCall _ 0 false t hreaches
  refine ⟨t, Tasks.prog_of_ended hstream, Tasks.prog_of_ended hcall, ?_, fun hcrossed => ?_⟩
  · exact ⟨false, of_decide_eq_true hread, hown false false (of_decide_eq_true hread)⟩
  · exact absurd (hown true false hcrossed) (by decide)

/-- The consumer closes the stream, which puts its connection back; the call that gets it takes an event of
that subscription for its response. -/
theorem event_read_by_call : ∃ t, Tasks.Reaches (env (server fun i => (streamAndCall i).Subscribes))
    (fun _ => True) begun t ∧ t.prog false = .pure (.error .generatorExit, ()) ∧
      t.prog true = .pure (.ok (), ()) ∧ false ∈ t.state.note true := by
  let before : Shared Bool (Line Bool) (ReadOf Bool) :=
    ((begun.prog false).run (serve (consumer .close) (sending false) false) begun.state).2
  let after : Shared Bool (Line Bool) (ReadOf Bool) :=
    ((begun.prog true).run (serve (consumer .close) (sending true) true) before).2
  have hstream : (begun.prog false).run (serve (consumer .close) (sending false) false) begun.state =
      (some (.error .generatorExit, ()), before) := run_eq_of_fst (by decide +kernel)
  have hcall : (begun.prog true).run (serve (consumer .close) (sending true) true) before =
      (some (.ok (), ()), after) := run_eq_of_fst (by decide +kernel)
  obtain ⟨t, hreaches, hended, hreturned, hstate⟩ :=
    Tasks.reaches_in_turn (i := false) (j := true) (by decide)
      (reaches_run (step_sending .close false) hstream) (reaches_run (step_sending .close true) hcall)
  refine ⟨t, hreaches, hended, hreturned, ?_⟩
  rw [hstate]
  decide +kernel

end FqClient.StreamIsolation
