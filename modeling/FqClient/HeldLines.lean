import FqClient.Retrying
import FqClient.Exchanges

namespace FqClient

open Effects

/-- An operation that neither opens, uses nor closes a connection, and that the pool does not see. -/
def NetOp.Aside : NetOp → Prop
  | .monotonic | .random | .sleep _ | .asyncSleep _ | .wrapSocket _ _ | .settimeout _ _
  | .enterTimeout _ | .shouldStop | .yieldEvent _ => True
  | _ => False

theorem NetOp.Setting.aside {op : NetOp} (h : op.Setting) : op.Aside := by
  cases op <;> first | exact h | trivial

theorem NetOp.Waiting.aside {op : NetOp} (h : op.Waiting) : op.Aside := by
  cases op <;> first | exact h | trivial

namespace HeldLines

/-! ## The lines that a task holds -/

/-- What the lines of the connections carry: a line that was just opened, whether more may arrive on a
line than was sent for its next holder, and what a transfer by a task makes of the line and of what is
noted of the task. -/
structure Wire (ι L N : Type) where
  fresh : L
  Owed : L → Prop
  transfer : ι → (op : NetOp) → op.Answer → L → N → L → N → Prop

variable {ι L N : Type}

/-- The lines that a task holds, and what is noted of it. -/
@[ext] structure Own (L N : Type) where
  lines : SockId → Option L
  note : N

namespace Own

/-- A transfer on a line that the task holds. -/
def Transfers (wire : Wire ι L N) (i : ι) (sock : SockId) (op : NetOp) (a : op.Answer)
    (o o' : Own L N) : Prop :=
  ∃ l l' n, o.lines sock = some l ∧ wire.transfer i op a l o.note l' n ∧
    o' = ⟨Function.update o.lines sock (some l'), n⟩

/-- What the operations of task `i` on sockets do to its own part. -/
def step (wire : Wire ι L N) (i : ι) (o : Own L N) : (op : NetOp) → op.Answer → Own L N → Prop
  | .createConnection _ _ _, .ok sock, o' | .openConnection _ _ _, .ok sock, o' =>
    o.lines sock = none ∧ o' = { o with lines := Function.update o.lines sock (some wire.fresh) }
  | .sendall sock data, a, o' => o.Transfers wire i sock (.sendall sock data) a o'
  | .recv sock size, a, o' => o.Transfers wire i sock (.recv sock size) a o'
  | .writeDrain sock data, a, o' => o.Transfers wire i sock (.writeDrain sock data) a o'
  | .readexactly sock size, a, o' => o.Transfers wire i sock (.readexactly sock size) a o'
  | .closeSocket sock, _, o' => o' = { o with lines := Function.update o.lines sock none }
  | _, _, o' => o' = o

def permits (o : Own L N) : NetOp → Prop
  | .sendall sock _ | .recv sock _ | .writeDrain sock _ | .readexactly sock _ | .closeSocket sock =>
    ∃ l, o.lines sock = some l
  | .poolClosed | .getSlot _ | .awaitSlot | .putSlot _ => False
  | _ => True

/-- The environment of a task that holds a connection: it does not see the pool. -/
def world (wire : Wire ι L N) (i : ι) : World Net (Own L N) where
  permits := permits
  step := step wire i

end Own

/-! ## A connection of a task -/

/-- The connection has no socket, or one that the task holds and whose line is such. -/
def Has (good : L → Prop) (c : Connection) (o : Own L N) : Prop :=
  ∀ sock, c.sock = some sock → ∃ l, o.lines sock = some l ∧ good l

/-- The connection has no socket, or one that the task holds. -/
abbrev Holds (c : Connection) (o : Own L N) : Prop := Has (fun _ => True) c o

section Task
variable {wire : Wire ι L N} {i : ι} {o : Own L N} {c : Connection}
  {good good' : L → Prop}

theorem Has.mono (h : Has good c o) (hgood : ∀ l, good l → good' l) : Has good' c o := by
  intro sock hsock
  obtain ⟨l, hl, hgoodl⟩ := h sock hsock
  exact ⟨l, hl, hgood l hgoodl⟩

theorem Has.holds (h : Has good c o) : Holds c o := h.mono fun _ _ => trivial

theorem has_of_none (h : c.sock = none) : Has good c o := by
  intro sock hsock
  rw [h] at hsock
  cases hsock

/-- Only the socket of the connection matters. -/
theorem Has.congr {c' : Connection} (h : Has good c o) (hsock : c'.sock = c.sock) : Has good c' o := by
  intro sock h'
  exact h sock (hsock ▸ h')

/-! ### What keeps a connection in the hands of its task -/

theorem keeps_aside {P : NetOp → Prop} (hP : ∀ op, P op → op.Aside) (J : Own L N → Prop) :
    Keeps (Own.world wire i) P J := by
  intro o op hop ho
  have h := hP op hop
  cases op <;> first
    | exact h.elim
    | exact ⟨trivial, fun a o' hstep => (show o' = o from hstep) ▸ ho⟩

theorem step_writeOp (p : Package) {sock : SockId} {frame : Bytes} {a : (p.writeOp sock frame).Answer}
    {o' : Own L N} (h : (Own.world wire i).step o (p.writeOp sock frame) a o') :
    o.Transfers wire i sock (p.writeOp sock frame) a o' := by
  cases p <;> exact h

theorem permits_writeOp (p : Package) {sock : SockId} {frame : Bytes} {l : L}
    (h : o.lines sock = some l) : (Own.world wire i).permits o (p.writeOp sock frame) := by
  cases p <;> exact ⟨l, h⟩

/-- After a transfer the task still holds the socket. -/
theorem Own.Transfers.held {sock : SockId} {op : NetOp} {a : op.Answer} {o' : Own L N}
    (h : o.Transfers wire i sock op a o') : ∃ l, o'.lines sock = some l := by
  obtain ⟨l, l', n, _, _, rfl⟩ := h
  exact ⟨l', Function.update_self _ _ _⟩

theorem holds_writeRequest (p : Package) (command : Command) (d : Deadline) (hc : Holds c o) :
    wpm (Own.world wire i) (p.transport.writeRequest command d) (fun _ c' o' => Holds c' o') c o := by
  apply wpm_writeRequest p (J := fun o' => o' = o)
    (keeps_aside (fun _ => NetOp.Setting.aside) _) command d rfl
  · intro e o' _ ho'
    rw [ho']
    exact hc
  · intro sock frame o₁ ho₁ hsock _ _
    obtain ⟨l, hl, _⟩ := hc sock hsock
    rw [ho₁]
    refine ⟨permits_writeOp p hl, fun a o₂ h => ?_⟩
    intro sock' hsock'
    rw [Connection.sock_noteWrite, hsock] at hsock'
    obtain ⟨l', hl'⟩ := (step_writeOp p h).held
    exact ⟨l', Option.some.inj hsock' ▸ hl', trivial⟩

theorem reader (sock : SockId) :
    Reader (Own.world wire i) sock (fun _ o => ∃ l, o.lines sock = some l) where
  setting b := keeps_aside (fun _ => NetOp.Setting.aside) _
  recv b o size ho := by
    refine ⟨ho, fun a o' h => ?_⟩
    have hheld := Own.Transfers.held h
    cases a <;> exact hheld
  readexactly b o size ho := by
    refine ⟨ho, fun a o' h => ?_⟩
    have hheld := Own.Transfers.held h
    cases a with
    | ok data => exact hheld
    | error fault => exact ⟨[], hheld⟩

theorem holds_readFrame (p : Package) (d : Deadline) (hc : Holds c o) :
    wpm (Own.world wire i) (p.transport.readFrame d) (fun _ c' o' => Holds c' o') c o := by
  cases hsock : c.sock with
  | none => exact wpm_readFrame_closed p hsock hc
  | some sock =>
    obtain ⟨l, hl, _⟩ := hc sock hsock
    refine wpm_mono (wpm_readFrame p (reader sock) d (b := []) hsock ⟨l, hl⟩) ?_
    intro r c' o' hpost
    obtain ⟨hc', hr⟩ := hpost
    obtain ⟨_, l', hl'⟩ := hr.got
    rw [hc']
    intro sock' hsock'
    exact ⟨l', Option.some.inj (hsock.symm.trans hsock') ▸ hl', trivial⟩

/-- Closing leaves no socket. -/
theorem wpm_close {Q : Except Exc Unit → Connection → Own L N → Prop} (hc : Holds c o)
    (h : ∀ o', o'.note = o.note → Q (.ok ()) { c with sock := none } o') :
    wpm (Own.world wire i) closeConnection Q c o := by
  apply wpm_close_of
  · intro sock hsock
    obtain ⟨l, hl, _⟩ := hc sock hsock
    refine ⟨⟨l, hl⟩, fun o' hstep => h o' ?_⟩
    rw [show o' = _ from hstep]
  · exact fun _ => h o rfl

theorem dialer : Dialer (Own.world wire i) (fun _ => True)
    (fun sock o => o.lines sock = some wire.fresh) where
  timeout _ _ _ := ⟨trivial, fun _ _ _ => trivial⟩
  create o host port timeout _ := by
    refine ⟨trivial, fun a o' h => ?_⟩
    cases a with
    | error fault => trivial
    | ok sock => exact h.2 ▸ Function.update_self _ _ _
  openTo o host port hostname _ := by
    refine ⟨trivial, fun a o' h => ?_⟩
    cases a with
    | error fault => trivial
    | ok sock => exact h.2 ▸ Function.update_self _ _ _
  wrap o sock hostname ho := ⟨trivial, fun _ o' h => (show o' = o from h) ▸ ho⟩
  close o sock ho := ⟨⟨_, ho⟩, fun _ _ _ => trivial⟩

end Task

/-! ### Calls on a connection -/

/-- A call on a good connection keeps its socket. When it is answered, the connection is good again and
the answer is as it should be. -/
structure Answers (wire : Wire ι L N) (i : ι) (t : Transport) (good : L → Prop)
    (Answered : Command → Bytes → N → Prop) : Prop where
  clean : ∀ l, ¬ wire.Owed l → good l
  fresh : good wire.fresh
  send : ∀ command d c o, Has good c o → wpm (Own.world wire i) (t.send command d) (fun r c' o' =>
    Holds c' o' ∧ ∀ payload, r = .ok payload → Has good c' o' ∧ Answered command payload o'.note) c o

namespace Answers

variable {wire : Wire ι L N} {i : ι} {p : Package} {good : L → Prop}
  {Answered : Command → Bytes → N → Prop} {c : Connection} {o : Own L N}
  (h : Answers wire i p.transport good Answered)
include h

theorem handshake (hc : Has good c o) : wpm (Own.world wire i) p.transport.handshake
    (fun r c' o' => Holds c' o' ∧ ∀ u, r = .ok u → Has good c' o') c o := by
  have hfailed : ∀ {e : Exc} {c' : Connection} {o' : Own L N}, Holds c' o' → Holds c' o' ∧
      ∀ u, (Except.error e : Except Exc Unit) = .ok u → Has good c' o' := by
    intro e c' o' hc'
    exact ⟨hc', fun u heq => by cases heq⟩
  apply wpm_handshake_of
  · exact fun e _ => hfailed hc.holds
  · intro command _
    refine ⟨trivial, fun now o₁ h₁ => ?_⟩
    rw [show o₁ = o from h₁]
    refine wpm_mono (h.send command _ c o hc) ?_
    intro r c' o' hpost
    obtain ⟨hholds, hgood⟩ := hpost
    cases r with
    | error e => exact hfailed hholds
    | ok response =>
      apply Greeted.response
      · exact fun e => hfailed hholds
      · intro info _
        have hc' : Has good c' o' := (hgood response rfl).1
        exact ⟨hholds.congr rfl, fun _ _ => hc'.congr rfl⟩

/-- A connect leaves a good connection, or a closed one. -/
theorem connect (hclosed : c.sock = none) : wpm (Own.world wire i) p.transport.connect
    (fun _ c' o' => Has good c' o') c o := by
  refine wpm_connect_by p dialer trivial (fun _ _ _ => has_of_none hclosed) fun sock o₁ hr => ?_
  have hdialed : Has good (c.dialed sock) o₁ := by
    intro sock' hsock'
    exact ⟨wire.fresh, Option.some.inj hsock' ▸ hr, h.fresh⟩
  refine wpm_mono (h.handshake hdialed) ?_
  intro r c₂ o₂ hpost
  obtain ⟨hholds, hgood⟩ := hpost
  cases r with
  | ok u => exact hgood u rfl
  | error e => exact wpm_close hholds fun o₃ _ => has_of_none rfl

theorem reconnect (hc : Holds c o) : wpm (Own.world wire i) p.transport.reconnect
    (fun _ c' o' => Has good c' o') c o := by
  unfold Transport.reconnect
  rw [wpm_bind]
  exact wpm_close hc fun o' _ => h.connect rfl

/-- What `_with_retry` returns answers its command. -/
theorem withRetry (policy : ReconnectPolicy) (command : Command) (d : Deadline) (rounds : ℕ)
    (hc : Has good c o) :
    wpm (Own.world wire i) (p.transport.withRetry policy command d p.transport.send rounds 0)
      (fun r c' o' => Holds c' o' ∧ ∀ payload, r = .ok payload → Answered command payload o'.note)
      c o := by
  have hfailed : ∀ {e : Exc} {c' : Connection} {o' : Own L N}, Holds c' o' → Holds c' o' ∧
      ∀ payload, (Except.error e : Except Exc Bytes) = .ok payload →
        Answered command payload o'.note := by
    intro e c' o' hc'
    exact ⟨hc', fun payload heq => by cases heq⟩
  -- a failed request may be owed a response, so nothing is asked of the line until the reconnect
  have hround : Retrying (Own.world wire i) p.transport policy command d p.transport.send
      (fun _ c o => Has good c o) (fun _ _ c o => Holds c o) (fun _ c o => Holds c o)
      (fun r c' o' => Holds c' o' ∧
        ∀ payload, r = .ok payload → Answered command payload o'.note) := by
    constructor
    · intro n c o hc
      refine wpm_mono (h.send command d c o hc) ?_
      intro r c' o' hpost
      obtain ⟨hholds, hgood⟩ := hpost
      cases r with
      | ok payload => exact ⟨hholds, fun payload' heq => (hgood payload' heq).2⟩
      | error e =>
        cases e with
        | connectionError fault => exact hholds
        | _ => exact hfailed hholds
    · exact fun n fault c o hc _ => hfailed hc
    · intro n fault c o hc _ _
      have hkeeps : Keeps (Own.world wire i) NetOp.Waiting (fun o' => o' = o) :=
        keeps_aside (fun _ => NetOp.Waiting.aside) _
      refine wpm_mono (wpm_of_leaves hkeeps (p.backoff_raises policy (n + 1) d) rfl) ?_
      intro r c' o' hpost
      obtain ⟨⟨hc', _⟩, ho'⟩ := hpost
      rw [hc', ho']
      cases r with
      | ok _ => exact hc
      | error e => exact hfailed hc
    · intro n c o hc
      refine wpm_mono (h.reconnect hc) ?_
      intro r c' o' hc'
      cases r with
      | ok _ => exact hc'
      | error e =>
        cases e with
        | connectionError fault => exact hc'
        | _ => exact hfailed hc'.holds
  exact hround.withRetry trivial rounds hc

end Answers

/-! ### Streams -/

section Streams
variable {wire : Wire ι L N} {i : ι} (p : Package)

/-- Every call keeps its connection in the hands of its task. -/
theorem answers_held : Answers wire i p.transport (fun _ => True) fun _ _ _ => True where
  clean _ _ := trivial
  fresh := trivial
  send command d c o hc := by
    apply wpm_send_of
    refine wpm_mono (holds_writeRequest p command d hc) ?_
    intro r c₁ o₁ hc₁
    cases r with
    | error e => exact ⟨hc₁, fun payload heq => by cases heq⟩
    | ok _ =>
      refine wpm_mono (holds_readFrame p d hc₁) ?_
      intro r c₂ o₂ hc₂
      cases r with
      | error e => exact ⟨hc₂, fun payload heq => by cases heq⟩
      | ok frame => exact ⟨hc₂.congr rfl, fun _ _ => ⟨hc₂.congr rfl, trivial⟩⟩

/-- The method leaves its connection in the hands of the task. -/
abbrev Retains {α : Type} (wire : Wire ι L N) (i : ι) (m : ConnM α) : Prop :=
  m.Preserves (Own.world wire i) Holds

theorem retains_of_leaves {P : NetOp → Prop} {E : Exc → Prop} {α : Type} {m : ConnM α}
    (hm : m.Leaves P E) (hP : ∀ op, P op → op.Aside) : Retains wire i m := by
  intro c o hc
  refine wpm_mono (wpm_of_leaves (keeps_aside hP fun o' => o' = o) hm rfl) ?_
  intro r c' o' hpost
  obtain ⟨⟨hc', _⟩, ho'⟩ := hpost
  rw [hc', ho']
  exact hc

theorem retains_perform {op : NetOp} (h : op.Aside) : Retains wire i (perform op) :=
  retains_of_leaves (P := fun op => op.Aside) (E := fun _ => True) (Method.Leaves.perform h) fun _ => id

theorem retains_stopped (polled : Bool) : Retains wire i (Transport.stopped polled) :=
  .ite (retains_perform (by exact trivial)) (.pure _)

theorem retains_nextFrame (pollInterval : Option ℚ) :
    Retains wire i (p.transport.nextFrame pollInterval) := by
  have hread : ∀ d, Retains wire i (p.transport.readFrame d) := fun d c o => holds_readFrame p d
  unfold Transport.nextFrame
  cases pollInterval with
  | none => exact (hread _).bind fun _ => .pure _
  | some pollInterval =>
    refine (retains_of_leaves (clocks_start _) fun op h => h ▸ trivial).bind fun d => ?_
    refine (hread d).attempt.bind fun r => ?_
    cases r with
    | ok frame => exact .pure _
    | error e =>
      cases e with
      | timeoutError site => exact .pure _
      | _ => exact .throw _

theorem retains_reconnect : Retains wire i p.transport.reconnect :=
  fun _ _ => (answers_held p).reconnect

theorem retains_streamFailed (policy : ReconnectPolicy) (e : Exc) (attempt : ℕ) {again : ConnM Unit}
    (hagain : Retains wire i again) :
    Retains wire i (p.transport.streamFailed policy e attempt again) := by
  have hdelay : Retains wire i (policy.delay (attempt + 1)) :=
    (Method.Preserves.ofExcept _).bind fun _ =>
    (retains_perform (by exact trivial)).bind fun _ => .pure _
  refine .ite (.throw _) (.ite (.throw _) (hdelay.bind fun delay => ?_))
  have hsleep : Retains wire i (p.transport.sleep delay) :=
    retains_of_leaves (p.sleep_sleepsFor delay) fun op h => NetOp.Waiting.aside h.waiting
  refine hsleep.bind fun _ => (retains_reconnect p).attempt.bind fun r => ?_
  cases r with
  | ok _ => exact hagain
  | error e => exact .ite hagain (.throw _)

/-- A stream keeps its connection in the hands of its task. -/
theorem retains_streamLoop (policy : ReconnectPolicy) (command : Command)
    (parse : Bytes → Except Exc StreamEvent) (polled : Bool) (rounds : ℕ)
    (phase : Transport.StreamPhase)
    (attempt : ℕ) :
    Retains wire i (p.transport.streamLoop policy command parse polled rounds phase attempt) := by
  induction rounds generalizing phase attempt with
  | zero => exact .halt trivial
  | succ rounds ih =>
    have hfailed : ∀ e, Retains wire i (p.transport.streamFailed policy e attempt
        (p.transport.streamLoop policy command parse polled rounds .opening (attempt + 1))) :=
      fun e => retains_streamFailed p policy e attempt (ih _ _)
    cases phase with
    | opening =>
      refine (retains_stopped polled).bind fun stop => .ite (.pure _) ?_
      have hopen : Retains wire i (p.transport.openStream command) :=
        fun c o => holds_writeRequest p command Deadline.unlimited
      refine hopen.attempt.bind fun r => ?_
      cases r with
      | ok _ => exact ih _ _
      | error e => exact hfailed e
    | reading =>
      refine (retains_nextFrame p _).attempt.bind fun r => ?_
      cases r with
      | error e => exact hfailed e
      | ok frame =>
        cases frame with
        | none => exact (retains_stopped polled).bind fun stop => .ite (.pure _) (ih _ _)
        | some frame =>
          refine (Method.Preserves.ofExcept _).bind fun event => ?_
          refine (retains_perform (by exact trivial)).bind fun resume => ?_
          cases resume with
          | next => exact ih _ _
          | close => exact .throw _

end Streams

end HeldLines

end FqClient
