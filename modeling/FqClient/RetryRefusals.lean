import FqClient.Effects.Runs
import FqClient.Exchanges
import FqClient.Retrying

namespace FqClient.RetryRefusals

open Effects

/-! ## What the server sends, and what becomes of the handshakes -/

/-- The bytes are these frames, one after another. -/
inductive Frames : List Bytes → Bytes → Prop
  | nil : Frames [] []
  | snoc {frames : List Bytes} {b header frame : Bytes} {limit : ℕ} (h : Frames frames b)
      (hsize : decodeFrameSize header limit = .ok frame.length) :
      Frames (frames ++ [frame]) (b ++ header ++ frame)

/-- When the answer to HELLO is complete and accepted, it negotiates that size. -/
def Greets (size : ℕ) (b : Bytes) : Prop :=
  ∀ greeting info, Frames [greeting] b → parseHello greeting = .ok info → info.maxMessageSize = size

/-- Where the newest connection stands, what was received since its last request, whether an
operation on it failed, and whether the connection was ever lost during a handshake. -/
structure Talk where
  stage : Stage := .settled
  received : Bytes := []
  failed : Bool := false
  lost : Bool := false
  deriving DecidableEq

namespace Talk

variable (s : Talk)

/-- Nothing of the answer to HELLO was received yet. -/
def handshaking : Bool := s.stage ≠ .settled && s.received.isEmpty

def wrote : Talk where
  stage := if s.stage = .opened then .greeting else .settled
  received := []
  failed := s.failed
  lost := s.lost

def got (data : Bytes) : Talk := { s with received := s.received ++ data }

def broken (lost : Bool) : Talk := { s with failed := true, lost := s.lost || lost }

/-- A timeout or a cancellation loses no connection. -/
def note : (op : NetOp) → op.Answer → Talk
  | .createConnection _ _ _, .ok _ | .openConnection _ _ _, .ok _ => ⟨.opened, [], false, s.lost⟩
  | .settimeout _ _, .error fault => s.broken (s.handshaking && fault = .osError)
  | .sendall _ _, .ok _ | .writeDrain _ _, .ok _ => s.wrote
  | .sendall _ _, .error fault => s.wrote.broken (s.stage = .opened && fault = .other)
  | .writeDrain _ _, .error fault => s.wrote.broken (s.stage = .opened && fault = .other)
  | .recv _ _, .ok chunk => if chunk.1 = [] then s.broken (s.stage = .greeting) else s.got chunk.1
  | .recv _ _, .error fault => s.broken (s.stage = .greeting && fault = .other)
  | .readexactly _ _, .ok data => s.got data.1
  | .readexactly _ _, .error fault =>
    s.broken (s.stage = .greeting && (fault = .other || fault = .incomplete))
  | _, _ => s

end Talk

/-- Connections may be lost, connects and handshakes may fail at any point; a handshake that succeeds
negotiates `size`. -/
def talking (size : ℕ) : World Net Talk where
  permits _ _ := True
  step s op a s' := s' = s.note op a ∧
    (s'.stage = .greeting → s'.received = s.received ∨ Greets size s'.received)

/-- The local `RequestError`. -/
def Refusal (e : Exc) : Prop := ∃ n limit, e = requestTooLarge n limit

/-- The error is the server's: the last frame it sent reads as this error. -/
def Reported (e : Exc) (s : Talk) : Prop :=
  s.failed = false ∧ ∃ frames frame, Frames (frames ++ [frame]) s.received ∧ okData frame = .error e

/-- The call ends with a `RequestError` for the size that the server did not send. -/
def Refused (r : Except Exc Bytes) (s : Talk) : Prop := ∃ e, r = .error e ∧ Refusal e ∧ ¬ Reported e s

/-- The connection has negotiated `size`: it sent HELLO while the default was in force. -/
structure Negotiated (size : ℕ) (c : Connection) : Prop where
  size : c.maxMessageSize = size
  hello : ∃ command, Commands.hello c.settings.token = .ok command ∧
    command.payload.length ≤ defaultMaxMessageSize

/-! ## What raises such an error -/

def loses : Exc → Bool
  | .connectionError _ => true
  | _ => false

theorem not_refusal {e : Exc} (h : ∀ error, e ≠ .protocol error) : ¬ Refusal e := by
  intro ⟨n, limit, he⟩
  exact h _ he

theorem Frames.ne_nil {greeting b : Bytes} (h : Frames [greeting] b) : b ≠ [] := by
  intro hnil
  generalize hframes : [greeting] = frames at h
  cases h with
  | nil => cases hframes
  | snoc h hsize =>
    have hheader := (decodeFrameSize_ok hsize).1
    rw [(List.append_eq_nil_iff.mp (List.append_eq_nil_iff.mp hnil).1).2] at hheader
    exact absurd hheader (by decide)

theorem greets_nil (size : ℕ) : Greets size [] := fun _ _ h => absurd rfl h.ne_nil

section Parsing
variable {frame : Bytes} {e : Exc}

/-- Feeding a frame raises a refusal only when the frame is that error. -/
theorem okData_of_feed {body : ChunkAssembler} (h : body.feed frame = .error e) (he : Refusal e) :
    okData frame = .error e := by
  unfold ChunkAssembler.feed at h
  unfold okData
  cases hsplit : splitResponse frame with
  | error e' =>
    rw [hsplit] at h
    exact congrArg Except.error (Except.error.inj h)
  | ok parts =>
    obtain ⟨tag, data⟩ := parts
    rw [hsplit] at h
    change (if tag = tagNxt then _ else if tag = tagOk then _ else if tag = tagErr then
      Except.error (parseError data) else Except.error (.corruptedResponse (.unknownFrameTag tag)) :
        Except Exc (Option Bytes × ChunkAssembler)) = _ at h
    change (if tag = tagOk then _ else if tag = tagErr then Except.error (parseError data) else _ :
      Except Exc Bytes) = _
    by_cases hnxt : tag = tagNxt
    · rw [if_pos hnxt] at h
      cases h
    · rw [if_neg hnxt] at h
      by_cases hok : tag = tagOk
      · rw [if_pos hok] at h
        cases h
      · rw [if_neg hok] at h ⊢
        by_cases herr : tag = tagErr
        · rw [if_pos herr] at h ⊢
          exact congrArg Except.error (Except.error.inj h)
        · rw [if_neg herr] at h
          rw [← Except.error.inj h] at he
          exact absurd he (not_refusal fun _ => Exc.noConfusion)

theorem raises_body (data : Bytes) : Raises (fun e => ¬ Refusal e) (do
    let parts ← fields data 4
    let size ← parseUint (parts.getD 1 [])
    if size = 0 then throw (.corruptedResponse .zeroMaxMessageSize)
    else
      return HelloInfo.mk (← parseUint (parts.getD 0 [])) size (← parseBoolField (parts.getD 2 []))
        (text (parts.getD 3 []))) := by
  have herror : ∀ {α : Type} {e : Exc}, (∀ error, e ≠ .protocol error) →
      Raises (fun e => ¬ Refusal e) (.error e : Except Exc α) := fun h => raises_error (not_refusal h)
  have huint : ∀ field, Raises (fun e => ¬ Refusal e) (parseUint field) := fun field =>
    .ite (herror fun _ => Exc.noConfusion) (.ite (herror fun _ => Exc.noConfusion) (raises_ok _))
  refine Raises.bind (.ite (herror fun _ => Exc.noConfusion) (raises_ok _)) fun parts => ?_
  refine (huint _).bind fun size => .ite (herror fun _ => Exc.noConfusion) ?_
  refine (huint _).bind fun version => .bind ?_ fun authRequired => raises_ok _
  exact .ite (raises_ok _) (.ite (raises_ok _) (herror fun _ => Exc.noConfusion))

/-- So does reading the answer to HELLO. -/
theorem okData_of_parseHello (h : parseHello frame = .error e) (he : Refusal e) :
    okData frame = .error e := by
  unfold parseHello at h
  cases hdata : okData frame with
  | error e' =>
    rw [hdata] at h
    exact congrArg Except.error (Except.error.inj h)
  | ok data =>
    rw [hdata] at h
    exact absurd he (raises_body data e h)

theorem raises_splitAddress (address : Str) : Raises (fun e => ¬ Refusal e) (splitAddress address) := by
  have hvalue : ∀ {α : Type}, Raises (fun e => ¬ Refusal e) (.error .valueError : Except Exc α) :=
    raises_error (not_refusal fun _ => Exc.noConfusion)
  unfold splitAddress
  split
  · exact hvalue
  · refine .ite hvalue (.bind (.ite hvalue ?_) fun _ => raises_ok _)
    cases List.mapM decimalValue _
    · exact hvalue
    · exact raises_ok _

end Parsing

/-! ## One attempt -/

/-- How a step of an exchange that began at `s` fails. -/
structure Broke (s : Talk) (e : Exc) (s' : Talk) : Prop where
  raised : ¬ Refusal e
  lost : s'.lost = (s.lost || (s.handshaking && loses e))
  failed : loses e = true → s'.failed = true

section Attempt
variable {size : ℕ} {c : Connection} {s s' : Talk} {sock : SockId}

theorem step_writeOp (p : Package) {frame : Bytes} {a : (p.writeOp sock frame).Answer}
    (h : (talking size).step s (p.writeOp sock frame) a s') : match p.wrote a with
      | .ok _ => s' = s.wrote
      | .error e => (∀ error, e ≠ .protocol error) ∧
          s' = s.wrote.broken (s.stage = .opened && loses e) := by
  cases p with
  | sync =>
    match a, h with
    | .ok _, h => exact h.1
    | .error .timeout, h => exact ⟨fun _ => Exc.noConfusion, h.1⟩
    | .error .other, h => exact ⟨fun _ => Exc.noConfusion, h.1⟩
  | aio =>
    match a, h with
    | .ok _, h => exact h.1
    | .error .timeout, h => exact ⟨fun _ => Exc.noConfusion, h.1⟩
    | .error .other, h => exact ⟨fun _ => Exc.noConfusion, h.1⟩
    | .error .cancelled, h => exact ⟨fun _ => Exc.noConfusion, h.1⟩

theorem step_readOp (p : Package) {asked : ℕ} {a : (p.readOp sock asked).Answer}
    (h : (talking size).step s (p.readOp sock asked) a s') : match p.readFault a with
      | none => ∃ data, s' = s.got data
      | some e => (∀ error, e ≠ .protocol error) ∧
          s' = s.broken (s.stage = .greeting && loses e) := by
  cases p with
  | sync =>
    match a, h with
    | .error .timeout, h => exact ⟨fun _ => Exc.noConfusion, h.1⟩
    | .error .other, h => exact ⟨fun _ => Exc.noConfusion, h.1⟩
    | .ok chunk, h =>
      replace h : s' = if chunk.1 = [] then s.broken (s.stage = .greeting) else s.got chunk.1 := h.1
      change match (if chunk.1 = [] then some (Exc.connectionError .closedByServer) else none) with
        | none => _
        | some e => _
      by_cases hnil : chunk.1 = []
      · rw [if_pos hnil] at h ⊢
        exact ⟨fun _ => Exc.noConfusion, by rw [h]; exact congrArg _ (Bool.and_true _).symm⟩
      · rw [if_neg hnil] at h ⊢
        exact ⟨chunk.1, h⟩
  | aio =>
    match a, h with
    | .ok data, h => exact ⟨data.1, h.1⟩
    | .error .timeout, h => exact ⟨fun _ => Exc.noConfusion, h.1⟩
    | .error .incomplete, h => exact ⟨fun _ => Exc.noConfusion, h.1⟩
    | .error .other, h => exact ⟨fun _ => Exc.noConfusion, h.1⟩
    | .error .cancelled, h => exact ⟨fun _ => Exc.noConfusion, h.1⟩

/-- A limit is set, or that is how the exchange fails. -/
theorem wpm_arm (p : Package) (d : Deadline) : wpm (talking size) (p.arm sock d)
    (fun r c' s' => c' = c ∧ match r with
      | .ok _ => s' = s
      | .error e => Broke s e s') c s := by
  have hsame : ∀ e, loses e = false → (∀ error, e ≠ .protocol error) → Broke s e s := by
    intro e hlost hne
    refine ⟨not_refusal hne, ?_, ?_⟩
    · rw [hlost, Bool.and_false, Bool.or_false]
    · rw [hlost]
      exact fun h => absurd h (by decide)
  refine wpm_arm_of (J := (· = s)) (K := Broke s) p ?_ ?_ ?_ ?_ ?_ rfl
  · intro s₁ op hop hs₁
    refine ⟨trivial, fun a s₂ h => ?_⟩
    subst hop
    exact h.1.trans hs₁
  · exact fun s₁ delay hs₁ => ⟨trivial, fun a s₂ h => h.1.trans hs₁⟩
  · intro s₁ timeout hs₁
    refine ⟨trivial, fun a s₂ h => ?_⟩
    rw [hs₁] at h
    cases a with
    | ok _ => exact h.1
    | error fault =>
      cases fault with
      | osError =>
        refine ⟨not_refusal fun _ => Exc.noConfusion, ?_, fun _ => ?_⟩
        · rw [h.1]
          rfl
        · rw [h.1]
          rfl
      | overflow =>
        refine ⟨not_refusal fun _ => Exc.noConfusion, ?_, fun _ => ?_⟩
        · rw [h.1]
          rfl
        · rw [h.1]
          rfl
  · intro s₁ hs₁
    rw [hs₁]
    exact hsame _ rfl fun _ => Exc.noConfusion
  · intro s₁ hs₁
    rw [hs₁]
    exact hsame _ rfl fun _ => Exc.noConfusion

/-- What a request may begin at: a handshake, or a connection whose handshake is over. -/
def Begins (s : Talk) : Prop := s.failed = false ∧ (s.stage = .opened → s.received = []) ∧
  (s.stage = .greeting → s.received ≠ [])

theorem Begins.handshaking (h : Begins s) : s.handshaking = decide (s.stage = .opened) := by
  obtain ⟨-, hopened, hgreeting⟩ := h
  unfold Talk.handshaking
  cases hstage : s.stage with
  | opened => rw [hopened hstage]; rfl
  | greeting =>
    have hfalse : s.received.isEmpty = false := by simpa using hgreeting hstage
    rw [hfalse]
    rfl
  | settled => rfl

/-- What stays of a connection through an exchange. -/
structure Kept (c c' : Connection) : Prop where
  settings : c'.settings = c.settings
  maxMessageSize : c'.maxMessageSize = c.maxMessageSize

theorem Kept.noteWrite (r : Except Exc Unit) : Kept c (c.noteWrite r) :=
  ⟨c.settings_noteWrite r, c.maxMessageSize_noteWrite r⟩

theorem wpm_writeRequest (p : Package) {command : Command} (d : Deadline) (hsock : c.sock = some sock)
    (hfits : command.payload.length ≤ c.maxMessageSize) (hs : Begins s) :
    wpm (talking size) (p.transport.writeRequest command d) (fun r c' s' => Kept c c' ∧ match r with
      | .ok _ => c'.sock = some sock ∧ s' = s.wrote
      | .error e => Broke s e s') c s := by
  apply wpm_writeRequest_of p
  · exact fun h => absurd h (not_lt.mpr hfits)
  · exact fun _ h => absurd (h.symm.trans hsock) (Option.some_ne_none _).symm
  · intro sock' _ hsock'
    rw [hsock] at hsock'
    cases hsock'
    refine wpm_mono (wpm_arm p d) ?_
    intro r c₁ s₁ ⟨hc₁, hr⟩
    rw [hc₁]
    cases r with
    | error e => exact ⟨⟨rfl, rfl⟩, hr⟩
    | ok _ =>
      rw [show s₁ = s from hr]
      refine ⟨⟨⟨rfl, rfl⟩, not_refusal fun _ => Exc.noConfusion, ?_, fun h => absurd h (by decide)⟩, ?_⟩
      · exact ((congrArg (s.lost || ·) (Bool.and_false _)).trans (Bool.or_false _)).symm
      · intro frame
        refine ⟨trivial, fun a s₂ h => ⟨Kept.noteWrite _, ?_⟩⟩
        have hwrote := step_writeOp p h
        cases hr₂ : p.wrote a with
        | ok _ =>
          rw [hr₂] at hwrote
          exact ⟨(c.sock_noteWrite _).trans hsock, hwrote⟩
        | error e =>
          rw [hr₂] at hwrote
          obtain ⟨hne, hs₂⟩ := hwrote
          rw [hs₂]
          refine ⟨not_refusal hne, ?_, fun _ => rfl⟩
          rw [hs.handshaking]
          rfl

/-- What was received on a connection whose handshake stands there. -/
def Got (size : ℕ) (stage : Stage) (b : Bytes) (s : Talk) : Prop :=
  s.stage = stage ∧ s.received = b ∧ (stage = .greeting → Greets size b)

theorem got_setting (stage : Stage) (b :
      Bytes) : Keeps (talking size) NetOp.Setting (Got size stage b) := by
  intro s op hop hs
  refine ⟨trivial, fun a s' h => ?_⟩
  cases op with
  | monotonic => rwa [show s' = s from h.1]
  | enterTimeout delay => rwa [show s' = s from h.1]
  | settimeout sock timeout =>
    cases a with
    | ok _ => rwa [show s' = s from h.1]
    | error fault => rwa [show s' = s.broken (s.handshaking && fault = .osError) from h.1]
  | _ => exact hop.elim

theorem Got.got {stage : Stage} {b data : Bytes} (hs : Got size stage b s) (hs' : s' = s.got data)
    (hgreets : s'.stage = .greeting → s'.received = s.received ∨ Greets size s'.received) :
    Got size stage (b ++ data) s' := by
  obtain ⟨hstage, hreceived, hbefore⟩ := hs
  rw [hs'] at hgreets ⊢
  refine ⟨hstage, by rw [← hreceived]; rfl, fun hgreeting => ?_⟩
  rw [← hreceived]
  rcases hgreets (hstage.trans hgreeting) with h | h
  · have hsame : s.received ++ data = s.received := h
    rw [hsame, hreceived]
    exact hbefore hgreeting
  · exact h

theorem reader (stage : Stage) : Reader (talking size) sock (Got size stage) where
  setting := got_setting stage
  recv b s asked hs := by
    refine ⟨trivial, fun a s' h => ?_⟩
    cases a with
    | ok chunk =>
      by_cases hnil : chunk.1 = []
      · dsimp only
        rw [show s' = s.broken (s.stage = .greeting) from h.1.trans (if_pos hnil),
          hnil, List.append_nil]
        exact hs
      · exact hs.got (h.1.trans (if_neg hnil)) h.2
    | error fault =>
      dsimp only
      rw [h.1]
      exact hs
  readexactly b s asked hs := by
    refine ⟨trivial, fun a s' h => ?_⟩
    cases a with
    | ok data => exact hs.got h.1 h.2
    | error fault =>
      refine ⟨[], ?_⟩
      rw [h.1, List.append_nil]
      exact hs

theorem handshaking_of_reading (hstage : s.stage ≠ .opened)
    (hgreeting : s.stage = .greeting → s.received = []) :
    s.handshaking = decide (s.stage = .greeting) := by
  unfold Talk.handshaking
  cases h : s.stage with
  | opened => exact absurd h hstage
  | greeting => rw [hgreeting h]; rfl
  | settled => rfl

/-- A frame is read, or that is how the exchange fails. -/
theorem wpm_readFrame (p : Package) (d : Deadline) (hsock : c.sock = some sock)
    (hfailed : s.failed = false)
    (hstage : s.stage ≠ .opened) (hgreeting : s.stage = .greeting → s.received = []) :
    wpm (talking size) (p.transport.readFrame d)
      (fun r c' s' => c' = c ∧ s'.stage = s.stage ∧ match r with
      | .ok frame => s'.failed = false ∧ s'.lost = s.lost ∧
          (s'.stage = .greeting → Greets size s'.received) ∧
          ∀ frames, Frames frames s.received → Frames (frames ++ [frame]) s'.received
      | .error e => Broke s e s') c s := by
  have hgreets : s.stage = .greeting → Greets size s.received := by
    intro h
    rw [hgreeting h]
    exact greets_nil size
  have hgot : Got size s.stage s.received s := ⟨rfl, rfl, hgreets⟩
  have hreads := FqClient.wpm_readFrame p (reader s.stage) d hsock hgot
  have hbreaks : wpm (talking size) (p.transport.readFrame d) (fun r c' s' => c' = c ∧ match r with
      | .ok _ => s'.failed = false ∧ s'.lost = s.lost ∧ s'.stage = s.stage
      | .error e => Broke s e s') c s := by
    apply wpm_readFrame_of p
    · exact fun h => absurd (h.symm.trans hsock) (Option.some_ne_none _).symm
    · intro sock' hsock'
      rw [hsock] at hsock'
      cases hsock'
      refine wpm_mono (wpm_arm p d) ?_
      intro r c₁ s₁ ⟨hc₁, hr⟩
      rw [hc₁]
      cases r with
      | error e => exact ⟨rfl, hr⟩
      | ok _ =>
        rw [show s₁ = s from hr]
        refine wpm_receive_of (J := fun s' => s'.failed = false ∧ s'.lost = s.lost ∧ s'.stage = s.stage)
          (K := Broke s) p ?_ ?_ ⟨hfailed, rfl, rfl⟩
        · intro asked s₂ ⟨hfailed₂, hlost₂, hstage₂⟩
          refine ⟨trivial, fun a s₃ h => ?_⟩
          have hread := step_readOp p h
          cases hfault : p.readFault a with
          | none =>
            rw [hfault] at hread
            obtain ⟨data, hdata⟩ := hread
            rw [hdata]
            exact ⟨hfailed₂, hlost₂, hstage₂⟩
          | some e =>
            rw [hfault] at hread
            obtain ⟨hne, hs₃⟩ := hread
            rw [hs₃]
            refine ⟨not_refusal hne, ?_, fun _ => rfl⟩
            rw [handshaking_of_reading hstage hgreeting, ← hlost₂, ← hstage₂]
            rfl
        · intro what s₂ ⟨_, hlost₂, _⟩
          refine ⟨not_refusal fun _ => Exc.noConfusion, ?_, fun h => by cases h⟩
          rw [hlost₂]
          exact ((congrArg (s.lost || ·) (Bool.and_false _)).trans (Bool.or_false _)).symm
  -- the first contract says what was read, the second what a failure leaves
  refine wpm_mono (wpm_and hreads hbreaks) ?_
  intro r c' s' ⟨⟨hc', hread⟩, _, hr⟩
  cases r with
  | error e =>
    obtain ⟨more, hgot⟩ := hread.got
    exact ⟨hc', hgot.1, hr⟩
  | ok frame =>
    obtain ⟨header, hsize, hgot⟩ := hread
    refine ⟨hc', hgot.1, hr.1, hr.2.1, fun h => ?_, fun frames hframes => ?_⟩
    · rw [hgot.2.1]
      exact hgot.2.2 (hgot.1.symm.trans h)
    · rw [hgot.2.1]
      exact hframes.snoc hsize

/-- What a call on an open connection leaves. -/
theorem wpm_send (p : Package) {command : Command} (d : Deadline) (hsock : c.sock = some sock)
    (hfits : command.payload.length ≤ c.maxMessageSize) (hs : Begins s) :
    wpm (talking size) (p.transport.send command d) (fun r c' s' => Kept c c' ∧ match r with
      | .ok response => s'.stage = s.wrote.stage ∧ s'.failed = false ∧ s'.lost = s.lost ∧
          (s'.stage = .greeting → Greets size s'.received) ∧ Frames [response] s'.received
      | .error e => Broke s e s') c s := by
  apply wpm_send_of
  refine wpm_mono (wpm_writeRequest p d hsock hfits hs) ?_
  intro r c₁ s₁ ⟨hkept, hr⟩
  cases r with
  | error e => exact ⟨hkept, hr⟩
  | ok _ =>
    obtain ⟨hsock₁, hs₁⟩ := hr
    have hstage : s.wrote.stage ≠ .opened := by
      unfold Talk.wrote
      dsimp only
      split <;> decide
    rw [hs₁]
    refine wpm_mono (wpm_readFrame p d hsock₁ hs.1 hstage fun _ => rfl) ?_
    intro r c₂ s₂ ⟨hc₂, hstage₂, hr⟩
    rw [hc₂]
    cases r with
    | ok response =>
      obtain ⟨hfailed, hlost, hgreets, hframes⟩ := hr
      exact ⟨⟨hkept.settings, hkept.maxMessageSize⟩, hstage₂, hfailed, hlost, hgreets, hframes [] .nil⟩
    | error e =>
      refine ⟨hkept, hr.raised, ?_, hr.failed⟩
      rw [hr.lost, handshaking_of_reading hstage fun _ => rfl, hs.handshaking]
      unfold Talk.wrote
      dsimp only
      cases s.stage <;> rfl

/-- The frames of an answer are read without a refusal, but for the server's. -/
theorem wpm_readChunks (p : Package) (d : Deadline) (rounds : ℕ) (body : ChunkAssembler)
    {frames : List Bytes} (hsock : c.sock = some sock) (hfailed : s.failed = false)
    (hstage : s.stage = .settled) (hframes : Frames frames s.received) :
    wpm (talking size) (p.transport.readChunks d rounds body) (fun r c' s' => Kept c c' ∧
      s'.lost = s.lost ∧ ∀ e, r = .error e → Refusal e → Reported e s') c s := by
  induction rounds generalizing body frames s with
  | zero => exact trivial
  | succ rounds ih =>
    unfold Transport.readChunks
    rw [wpm_bind]
    refine wpm_mono (wpm_readFrame p d hsock hfailed (by rw [hstage]; decide)
      fun h => by rw [hstage] at h; cases h) ?_
    intro r c₁ s₁ hpost
    obtain ⟨hc₁, hstage₁, hr⟩ := hpost
    rw [hc₁]
    cases r with
    | error e =>
      refine ⟨⟨rfl, rfl⟩, ?_, fun e' he' href => ?_⟩
      · have hsettled : s.handshaking = false := by
          unfold Talk.handshaking
          rw [hstage]
          rfl
        rw [hr.lost, hsettled, Bool.false_and, Bool.or_false]
      · cases he'
        exact absurd href hr.raised
    | ok frame =>
      obtain ⟨hfailed₁, hlost₁, -, hframes₁⟩ := hr
      dsimp only
      rw [wpm_bind, wpm_ofExcept]
      cases hfeed : body.feed frame with
      | error e =>
        refine ⟨⟨rfl, rfl⟩, hlost₁, fun e' he' href => ?_⟩
        cases he'
        exact ⟨hfailed₁, frames, frame, hframes₁ frames hframes, okData_of_feed hfeed href⟩
      | ok fed =>
        obtain ⟨_ | response, body'⟩ := fed
        · rw [← hlost₁]
          exact ih body' hfailed₁ (hstage₁.trans hstage) (hframes₁ frames hframes)
        · exact ⟨⟨rfl, rfl⟩, hlost₁, fun e' he' => by cases he'⟩

/-- The connection has no socket, or its handshake is over. -/
def Ready (c : Connection) (s : Talk) : Prop := c.sock = none ∨ Begins s ∧ s.stage ≠ .opened

theorem Begins.kept {e : Exc} (hs : Begins s) (hstage : s.stage ≠ .opened) (h : Broke s e s') :
    s'.lost = s.lost := by
  rw [h.lost, hs.handshaking, decide_eq_false hstage, Bool.false_and, Bool.or_false]

/-- An attempt that fits raises no refusal, but for the server's. -/
theorem wpm_attempt_command {p : Package} {send : Command → Deadline → ConnM Bytes} {command : Command}
    (hsend : SentBy p.transport send) (d : Deadline) (hfits : command.payload.length ≤ c.maxMessageSize)
    (hs : Ready c s) : wpm (talking size) (send command d) (fun r c' s' => Kept c c' ∧
      s'.lost = s.lost ∧ ∀ e, r = .error e → Refusal e → Reported e s') c s := by
  have hraised : ∀ {e : Exc} {s' : Talk}, ¬ Refusal e → ∀ e',
    (.error e : Except Exc Bytes) = .error e' →
      Refusal e' → Reported e' s' := by
    intro e s' hne e' he' href
    cases he'
    exact absurd href hne
  -- without a socket nothing is written, so no server can refuse it
  cases hsock : c.sock with
  | none =>
    have hwrite : ∀ {Q : Except Exc Unit → Connection → Talk → Prop},
        Q (.error (.connectionError .closed)) c s →
        wpm (talking size) (p.transport.writeRequest command d) Q c s := by
      intro Q hQ
      apply wpm_writeRequest_of p
      · exact fun h => absurd h (not_lt.mpr hfits)
      · exact fun _ _ => hQ
      · exact fun sock _ h => absurd (h.symm.trans hsock) (Option.some_ne_none _)
    have hne : ¬ Refusal (.connectionError .closed) := not_refusal fun _ => Exc.noConfusion
    cases hsend with
    | send => exact wpm_send_of (hwrite ⟨⟨rfl, rfl⟩, rfl, hraised hne⟩)
    | chunked rounds =>
      unfold Transport.sendChunked
      rw [wpm_bind]
      exact hwrite ⟨⟨rfl, rfl⟩, rfl, hraised hne⟩
  | some sock =>
    obtain ⟨hs, hstage⟩ := hs.resolve_left (by rw [hsock]; exact Option.some_ne_none _)
    cases hsend with
    | send =>
      refine wpm_mono (wpm_send p d hsock hfits hs) ?_
      intro r c' s' ⟨hkept, hr⟩
      cases r with
      | ok response => exact ⟨hkept, hr.2.2.1, fun _ h => by cases h⟩
      | error e => exact ⟨hkept, hs.kept hstage hr, hraised hr.raised⟩
    | chunked rounds =>
      unfold Transport.sendChunked
      rw [wpm_bind]
      refine wpm_mono (wpm_writeRequest p d hsock hfits hs) ?_
      intro r c₁ s₁ ⟨hkept, hr⟩
      cases r with
      | error e => exact ⟨hkept, hs.kept hstage hr, hraised hr.raised⟩
      | ok _ =>
        obtain ⟨hsock₁, hs₁⟩ := hr
        dsimp only
        rw [hs₁]
        have hsettled : s.wrote.stage = .settled := if_neg hstage
        refine wpm_mono (wpm_readChunks p d rounds [] hsock₁ hs.1 hsettled Frames.nil) ?_
        intro r c₂ s₂ ⟨hkept₂, hlost₂, hr₂⟩
        exact ⟨⟨hkept₂.settings.trans hkept.settings,
          hkept₂.maxMessageSize.trans hkept.maxMessageSize⟩, hlost₂, hr₂⟩

/-! ## The call -/

/-- A handshake negotiates the size, or its connection is lost, or it fails for another reason. -/
theorem wpm_handshake (p : Package) (hsock : c.sock = some sock)
    (hc : c.maxMessageSize = defaultMaxMessageSize)
    (hhello : ∃ command, Commands.hello c.settings.token = .ok command ∧
      command.payload.length ≤ defaultMaxMessageSize) (hs : s = ⟨.opened, [], false, s.lost⟩) :
    wpm (talking size) p.transport.handshake (fun r c' s' => c'.settings = c.settings ∧ match r with
      | .ok _ => c'.maxMessageSize = size ∧ s'.lost = s.lost ∧ Begins s' ∧ s'.stage ≠ .opened
      | .error e => c'.maxMessageSize = defaultMaxMessageSize ∧ s'.lost = (s.lost || loses e) ∧
          (loses e = true → s'.failed = true) ∧ (Refusal e → Reported e s')) c s := by
  obtain ⟨hello, hcommand, hfits⟩ := hhello
  rw [← hc] at hfits
  apply wpm_handshake_of
  · intro e h
    rw [hcommand] at h
    cases h
  · intro command h
    rw [hcommand] at h
    cases h
    refine ⟨trivial, fun now s₁ h₁ => ?_⟩
    have hbegins : Begins s := by
      rw [hs]
      exact ⟨rfl, fun _ => rfl, fun h => by cases h⟩
    rw [show s₁ = s from h₁.1]
    refine wpm_mono (wpm_send p _ hsock hfits hbegins) ?_
    intro r c₂ s₂ hpost
    obtain ⟨hkept, hr⟩ := hpost
    cases r with
    | error e =>
      refine ⟨hkept.settings, hkept.maxMessageSize.trans hc, ?_, hr.failed, fun href =>
        absurd href hr.raised⟩
      rw [hr.lost, hbegins.handshaking, hs]
      rfl
    | ok response =>
      obtain ⟨hstage, hfailed, hlost, hgreets, hframes⟩ := hr
      have hgreeting : s₂.stage = .greeting := by
        rw [hstage, hs]
        rfl
      have herror : ∀ e, loses e = false → s₂.lost = (s.lost || loses e) := by
        intro e h
        rw [hlost, h, Bool.or_false]
      unfold Greeted
      dsimp only
      cases hinfo : parseHello response with
      | error e =>
        -- a response that does not parse is no lost connection
        have hloses : loses e = false := by
          have hcomputed := raises_parseHello response e hinfo
          cases e <;> first | rfl | exact hcomputed.elim
        refine ⟨hkept.settings, hkept.maxMessageSize.trans hc, herror e hloses,
          fun h => ?_, fun href => ?_⟩
        · rw [hloses] at h
          cases h
        · exact ⟨hfailed, [], response, hframes, okData_of_parseHello hinfo href⟩
      | ok info =>
        dsimp only
        split
        · refine ⟨hkept.settings, hkept.maxMessageSize.trans hc, herror _ rfl,
            fun h => ?_, fun href => ?_⟩
          · cases h
          · exact absurd href (not_refusal fun _ => Exc.noConfusion)
        · have hopened : s₂.stage ≠ .opened := by
            rw [hgreeting]
            decide
          exact ⟨hkept.settings, hgreets hgreeting response info hframes hinfo, hlost,
            ⟨hfailed, fun h => absurd h hopened, fun _ => hframes.ne_nil⟩, hopened⟩

theorem raises_dial (p : Package) (host : Str) (port : ℕ) :
    (p.transport.dial host port).Leaves (fun _ => True) fun e => ¬ Refusal e := by
  have hthrow : ∀ {e : Exc}, (∀ error, e ≠ .protocol error) → Method.Leaves (fun _ : NetOp => True)
      (fun e => ¬ Refusal e) (throw e : ConnM SockId) := fun h => .throw (not_refusal h)
  cases p with
  | sync =>
    refine Method.Leaves.self.bind fun c => .bind (.perform trivial) fun r => ?_
    rcases r with _ | sock
    · exact hthrow fun _ => Exc.noConfusion
    · refine .ite (.bind (.perform trivial) fun r => ?_) (.pure _)
      cases r
      · exact .bind (.perform trivial) fun _ => hthrow fun _ => Exc.noConfusion
      · exact .pure _
  | aio =>
    refine Method.Leaves.self.bind fun c => .bind (.perform trivial) fun _ => ?_
    refine .bind (.perform trivial) fun r => ?_
    rcases r with (_ | _ | _) | sock
    · exact hthrow fun _ => Exc.noConfusion
    · exact hthrow fun _ => Exc.noConfusion
    · exact hthrow fun _ => Exc.noConfusion
    · exact .pure _

theorem dialer (lost : Bool) : Dialer (talking size) (fun s => s.lost = lost)
    fun _ s => s = ⟨.opened, [], false, lost⟩ where
  timeout s delay hs := ⟨trivial, fun a s' h => by rwa [show s' = s from h.1]⟩
  create s host port timeout hs := by
    refine ⟨trivial, fun a s' h => ?_⟩
    cases a with
    | ok sock => exact h.1.trans (by rw [← hs]; rfl)
    | error fault => exact (congrArg Talk.lost h.1).trans hs
  openTo s host port hostname hs := by
    refine ⟨trivial, fun a s' h => ?_⟩
    cases a with
    | ok sock => exact h.1.trans (by rw [← hs]; rfl)
    | error fault => exact (congrArg Talk.lost h.1).trans hs
  wrap s sock hostname hs := ⟨trivial, fun a s' h => h.1.trans hs⟩
  close s sock hs := ⟨trivial, fun a s' h => (congrArg Talk.lost h.1).trans (congrArg Talk.lost hs)⟩

/-- A connect negotiates the size again, or leaves the size it had, or is lost in its handshake and leaves
the default. -/
theorem wpm_connect (p : Package) (hclosed : c.sock = none)
    (hhello : ∃ command, Commands.hello c.settings.token = .ok command ∧
      command.payload.length ≤ defaultMaxMessageSize) :
    wpm (talking size) p.transport.connect (fun r c' s' => c'.settings = c.settings ∧ match r with
      | .ok _ => c'.maxMessageSize = size ∧ s'.lost = s.lost ∧ Ready c' s'
      | .error e => c'.sock = none ∧ (Refusal e → Reported e s') ∧
          (c'.maxMessageSize = c.maxMessageSize ∧ s'.lost = s.lost ∨
            c'.maxMessageSize = defaultMaxMessageSize ∧ s'.lost = (s.lost || loses e) ∧
              (loses e = true → s'.failed = true))) c s := by
  apply wpm_connect_of
  · intro e h
    exact ⟨rfl, hclosed, fun href => absurd href (raises_splitAddress _ e h), Or.inl ⟨rfl, rfl⟩⟩
  · intro host port
    have hkeeps : Keeps (talking size) (fun _ => True) fun _ => True :=
      fun _ _ _ _ => ⟨trivial, fun _ _ _ => trivial⟩
    refine wpm_mono (wpm_and (wpm_of_leaves hkeeps (raises_dial p host port) trivial)
      (wpm_dial p (dialer s.lost) host port rfl)) ?_
    intro r c₂ s₂ ⟨⟨⟨hc₂, hraises⟩, _⟩, _, hs₂⟩
    rw [hc₂]
    cases r with
    | error e => exact ⟨rfl, hclosed, fun href => absurd href (hraises e rfl), Or.inl ⟨rfl, hs₂⟩⟩
    | ok sock =>
      replace hs₂ : s₂ = ⟨.opened, [], false, s.lost⟩ := hs₂
      have hlost : s₂.lost = s.lost := by rw [hs₂]
      refine wpm_mono (wpm_handshake p (c := c.dialed sock) rfl rfl hhello
        (by rw [hlost]; exact hs₂)) ?_
      intro r c₃ s₃ ⟨hsettings, hr⟩
      cases r with
      | ok _ => exact ⟨hsettings, hr.1, hr.2.1.trans hlost, Or.inr hr.2.2⟩
      | error e =>
        obtain ⟨hmax, hlost₃, hfailed, hreported⟩ := hr
        rw [hlost] at hlost₃
        have hleft : c₃.maxMessageSize = c.maxMessageSize ∧ s₃.lost = s.lost ∨
            c₃.maxMessageSize = defaultMaxMessageSize ∧ s₃.lost = (s.lost || loses e) ∧
              (loses e = true → s₃.failed = true) := Or.inr ⟨hmax, hlost₃, hfailed⟩
        refine wpm_close_of (fun _ _ => ⟨trivial, fun s₄ h => ?_⟩) fun _ =>
          ⟨hsettings, rfl, hreported, hleft⟩
        rw [show s₄ = s₃ from h.1]
        exact ⟨hsettings, rfl, hreported, hleft⟩

theorem wpm_reconnect (p : Package) (hhello : ∃ command, Commands.hello c.settings.token = .ok command ∧
      command.payload.length ≤ defaultMaxMessageSize) :
    wpm (talking size) p.transport.reconnect (fun r c' s' => c'.settings = c.settings ∧ match r with
      | .ok _ => c'.maxMessageSize = size ∧ s'.lost = s.lost ∧ Ready c' s'
      | .error e => c'.sock = none ∧ (Refusal e → Reported e s') ∧
          (c'.maxMessageSize = c.maxMessageSize ∧ s'.lost = s.lost ∨
            c'.maxMessageSize = defaultMaxMessageSize ∧ s'.lost = (s.lost || loses e) ∧
              (loses e = true → s'.failed = true))) c s := by
  refine wpm_reconnect_of (fun _ _ => ⟨trivial, fun s' h => ?_⟩) fun _ => wpm_connect p rfl hhello
  rw [show s' = s from h.1]
  exact wpm_connect p rfl hhello

end Attempt

section Call
variable {size : ℕ} {command : Command} {c : Connection} {s : Talk}

/-- No refusal so far, and none to come before a handshake is lost. -/
structure Fine (command : Command) (c : Connection) (s : Talk) : Prop where
  hello : ∃ hello, Commands.hello c.settings.token = .ok hello ∧
    hello.payload.length ≤ defaultMaxMessageSize
  fits : command.payload.length ≤ c.maxMessageSize
  lost : s.lost = true → command.payload.length ≤ defaultMaxMessageSize

/-- A handshake was lost and left the connection with a size that refuses the command. -/
structure Doomed (command : Command) (c : Connection) (s : Talk) : Prop where
  lost : s.lost = true
  failed : s.failed = true
  refuses : defaultMaxMessageSize < command.payload.length ∧ c.maxMessageSize = defaultMaxMessageSize

/-- How a call ends: refused exactly when it is large and a handshake was lost. -/
def Ends (command : Command) (r : Except Exc Bytes) (s : Talk) : Prop :=
  ¬ Refused r s ↔ command.payload.length ≤ defaultMaxMessageSize ∨ s.lost = false

theorem ends_of_reported {r : Except Exc Bytes}
    (hlost : s.lost = true → command.payload.length ≤ defaultMaxMessageSize)
    (hr : ∀ e, r = .error e → Refusal e → Reported e s) : Ends command r s := by
  refine iff_of_true ?_ ?_
  · intro ⟨e, he, href, hnot⟩
    exact hnot (hr e he href)
  · cases h : s.lost with
    | true => exact Or.inl (hlost h)
    | false => exact Or.inr rfl

theorem ends_of_not {e : Exc} (hlost : s.lost = true → command.payload.length ≤ defaultMaxMessageSize)
    (he : ¬ Refusal e) : Ends command (.error e) s := by
  refine ends_of_reported hlost fun e' he' href => ?_
  cases he'
  exact absurd href he

theorem Fine.kept {c' : Connection} {s' : Talk} (h : Fine command c s) (hkept : Kept c c')
    (hlost : s'.lost = s.lost) : Fine command c' s' := by
  refine ⟨?_, ?_, ?_⟩
  · rw [hkept.settings]
    exact h.hello
  · rw [hkept.maxMessageSize]
    exact h.fits
  · rw [hlost]
    exact h.lost

/-- A doomed attempt refuses the command. -/
theorem wpm_doomed {p : Package} {send : Command → Deadline → ConnM Bytes}
    (hsend : SentBy p.transport send) (d : Deadline) (hs : Doomed command c s) :
    wpm (talking size) (send command d) (fun r _ s' => ∃ e, r = .error e ∧ loses e = false ∧
      Ends command r s') c s := by
  obtain ⟨hlost, hfailed, hlarge, hmax⟩ := hs
  have hends : Ends command (.error (requestTooLarge command.payload.length c.maxMessageSize)) s := by
    refine iff_of_false ?_ ?_
    · intro h
      refine h ⟨_, rfl, ⟨_, _, rfl⟩, fun hreported => ?_⟩
      have hnot := hreported.1
      rw [hfailed] at hnot
      cases hnot
    · intro h
      rcases h with h | h
      · exact absurd h (not_le.mpr hlarge)
      · rw [hlost] at h
        cases h
  have hwrite : ∀ {Q : Except Exc Unit → Connection → Talk → Prop},
      Q (.error (requestTooLarge command.payload.length c.maxMessageSize)) c s →
      wpm (talking size) (p.transport.writeRequest command d) Q c s := by
    intro Q hQ
    apply wpm_writeRequest_of p
    · exact fun _ => hQ
    · exact fun h => absurd h (by rw [hmax]; exact not_le.mpr hlarge)
    · exact fun _ h => absurd h (by rw [hmax]; exact not_le.mpr hlarge)
  cases hsend with
  | send => exact wpm_send_of (hwrite ⟨_, rfl, rfl, hends⟩)
  | chunked rounds =>
    unfold Transport.sendChunked
    rw [wpm_bind]
    exact hwrite ⟨_, rfl, rfl, hends⟩

theorem retrying {p : Package} {send : Command → Deadline → ConnM Bytes}
    (hsend : SentBy p.transport send)
    (policy : ReconnectPolicy) (d : Deadline) (hsize : command.payload.length ≤ size) :
    Retrying (talking size) p.transport policy command d send
      (fun _ c s => Fine command c s ∧ Ready c s ∨ Doomed command c s)
      (fun _ _ c s => Fine command c s) (fun _ c s => Fine command c s)
        (fun r _ s => Ends command r s) := by
  refine ⟨?_, ?_, ?_, ?_⟩
  · intro n c s hs
    -- the request is sent, or it exceeds the limit that a failed handshake has left
    rcases hs with ⟨hfine, hready⟩ | hdoomed
    · refine wpm_mono (wpm_attempt_command hsend d hfine.fits hready) ?_
      intro r c' s' ⟨hkept, hlost, hr⟩
      have hfine' := hfine.kept hkept hlost
      split
      · exact hfine'
      · exact ends_of_reported hfine'.lost hr
    · refine wpm_mono (wpm_doomed hsend d hdoomed) ?_
      intro r c' s' ⟨e, he, hloses, hends⟩
      rw [he] at hends ⊢
      cases e with
      | connectionError fault => cases hloses
      | _ => exact hends
  · exact fun n fault c s hfine _ => ends_of_not hfine.lost (not_refusal fun _ => Exc.noConfusion)
  · intro n fault c s hfine _ _
    have hkeeps : Keeps (talking size) NetOp.Waiting (· = s) := by
      intro s₁ op hop hs₁
      refine ⟨trivial, fun a s₂ h => ?_⟩
      cases op <;> first | exact hop.elim | exact h.1.trans hs₁
    refine wpm_mono (wpm_of_leaves hkeeps (p.backoff_raises policy (n + 1) d) rfl) ?_
    intro r c' s' ⟨⟨hc', hraises⟩, hs'⟩
    rw [hc', hs']
    cases r with
    | ok _ => exact hfine
    | error e =>
      refine ends_of_not hfine.lost (not_refusal fun error he => ?_)
      have hwaiting := hraises e rfl
      rw [he] at hwaiting
      exact hwaiting
  · intro n c s hfine
    refine wpm_mono (wpm_reconnect p hfine.hello) ?_
    intro r c' s' ⟨hsettings, hr⟩
    have hhello : ∃ hello, Commands.hello c'.settings.token = .ok hello ∧
        hello.payload.length ≤ defaultMaxMessageSize := by
      rw [hsettings]
      exact hfine.hello
    cases r with
    | ok _ =>
      obtain ⟨hmax, hlost, hready⟩ := hr
      refine Or.inl ⟨⟨hhello, by rw [hmax]; exact hsize, ?_⟩, hready⟩
      rw [hlost]
      exact hfine.lost
    | error e =>
      obtain ⟨hsock, hreported, hcase⟩ := hr
      have hends : s'.lost = s.lost → Ends command (.error e) s' := by
        intro hlost
        refine ends_of_reported (by rw [hlost]; exact hfine.lost) fun e' he' href => ?_
        cases he'
        exact hreported href
      rcases hcase with ⟨hmax, hlost⟩ | ⟨hmax, hlost, hfailed⟩
      · have hfine' := hfine.kept ⟨hsettings, hmax⟩ hlost
        cases e with
        | connectionError fault => exact Or.inl ⟨hfine', Or.inl hsock⟩
        | _ => exact hends hlost
      · cases e with
        | connectionError fault =>
          replace hlost : s'.lost = true := hlost.trans (Bool.or_true _)
          -- the limit is the default one again: a larger request cannot be sent any more
          by_cases hlarge : command.payload.length ≤ defaultMaxMessageSize
          · exact Or.inl ⟨⟨hhello, by rw [hmax]; exact hlarge, fun _ => hlarge⟩, Or.inl hsock⟩
          · exact Or.inr ⟨hlost, hfailed rfl, not_le.mp hlarge, hmax⟩
        | _ => exact hends (hlost.trans (Bool.or_false _))

end Call

/-- A call on a connection that has negotiated a size for it is refused exactly when it exceeds the
default size and a reconnect lost its connection during the handshake. -/
theorem retry_never_refuses_iff {p : Package} {send : Command → Deadline → ConnM Bytes}
    (hsend : SentBy p.transport send) (policy : ReconnectPolicy) (command : Command) (d : Deadline)
    (rounds : ℕ) {size : ℕ} {c : Connection} (hc : Negotiated size c)
    (hfits : command.payload.length ≤ size) {r : Except Exc Bytes} {c' : Connection} {s' : Talk}
    (hrun : Reaches (talking size) (p.transport.withRetry policy command d send rounds 0 c, {})
      (.pure (r, c'), s')) :
    ¬ Refused r s' ↔ command.payload.length ≤ defaultMaxMessageSize ∨ s'.lost = false := by
  have hfine : Fine command c {} := ⟨hc.hello, by rw [hc.size]; exact hfits, fun h => by cases h⟩
  have hbegins : Begins {} := by
    refine ⟨rfl, ?_, ?_⟩
    · exact fun _ => rfl
    · exact fun h => by cases h
  have hready : Ready c {} := Or.inr ⟨hbegins, by decide⟩
  have hwp : wpm (talking size) (p.transport.withRetry policy command d send rounds 0)
      (fun r _ s => Ends command r s) c {} :=
    (retrying hsend policy d hfits).withRetry trivial rounds (n := 0) (Or.inl ⟨hfine, hready⟩)
  have hends := wp_result hwp hrun
  exact hends

/-! ### A reconnect that loses its connection before HELLO is sent -/

def negotiated : Connection := { Connection.pooled with maxMessageSize := 8192 }

theorem negotiated_size : Negotiated 8192 negotiated := ⟨rfl, _, rfl, by decide +kernel⟩

/-- Above the default, within what was negotiated. -/
def largeCommand : Command := ⟨List.replicate 5000 (ascii 'x'), true⟩

/-- The server takes the first request, closes the connection, and resets the next one. -/
def resetting (s : Talk) : (op : NetOp) → op.Answer × Talk
  | .sendall sock data =>
    if s.stage = .opened then (.error .other, s.note (.sendall sock data) (.error .other))
    else (.ok (), s.note (.sendall sock data) (.ok ()))
  | .writeDrain sock data => (.error .other, s.note (.writeDrain sock data) (.error .other))
  | op => (op.calm, s.note op op.calm)

theorem talking_resetting (s : Talk) (op : NetOp) :
    (talking 8192).step s op (resetting s op).1 (resetting s op).2 := by
  have hsame : ∀ {s' : Talk}, s'.received = s.received → s'.stage = .greeting →
      s'.received = s.received ∨ Greets 8192 s'.received := fun h _ => Or.inl h
  cases op with
  | sendall sock data =>
    unfold resetting
    split
    · exact ⟨rfl, fun _ => Or.inr (greets_nil 8192)⟩
    · exact ⟨rfl, fun _ => Or.inr (greets_nil 8192)⟩
  | writeDrain sock data => exact ⟨rfl, fun _ => Or.inr (greets_nil 8192)⟩
  | createConnection host port timeout => exact ⟨rfl, fun h => by cases h⟩
  | openConnection host port hostname => exact ⟨rfl, fun h => by cases h⟩
  | _ => exact ⟨rfl, hsame rfl⟩

def refusedTalk : Talk := ⟨.greeting, [], true, true⟩

theorem reaches_refused : Reaches (talking 8192) (Sync.transport.withRetry {} largeCommand
    Deadline.unlimited Sync.transport.send 2 0 negotiated, {})
    (.pure (.error (requestTooLarge 5000 4096), ({ negotiated with
      sock := none, maxMessageSize := 4096 } : Connection)), refusedTalk) :=
  reaches_run talking_resetting (by decide +kernel)

theorem large_command_refused_iff : ¬ Refused (.error (requestTooLarge 5000 4096)) refusedTalk ↔
    largeCommand.payload.length ≤ defaultMaxMessageSize ∨ refusedTalk.lost = false :=
  retry_never_refuses_iff (p := .sync) .send {} largeCommand Deadline.unlimited 2 negotiated_size
    (by decide +kernel) reaches_refused

/-- It is refused for a size that the server accepts. -/
theorem lost_handshake_refuses : Negotiated 8192 negotiated ∧ largeCommand.payload.length ≤ 8192 ∧
    ¬ ∀ r c' s', Reaches (talking 8192) (Sync.transport.withRetry {} largeCommand
      Deadline.unlimited Sync.transport.send 2 0 negotiated, {}) (.pure (r, c'), s') →
      ¬ Refused r s' := by
  refine ⟨negotiated_size, by decide +kernel, fun h => ?_⟩
  refine h _ _ _ reaches_refused ⟨_, rfl, ⟨5000, 4096, rfl⟩, fun hreported => ?_⟩
  exact absurd hreported.1 (by decide)

end FqClient.RetryRefusals
