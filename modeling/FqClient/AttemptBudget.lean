import FqClient.Calls
import FqClient.Exchanges
import FqClient.Retrying
import FqClient.UnlimitedRetry

namespace FqClient

open Effects

/-- The policy with so many attempts. -/
def ReconnectPolicy.budgeted (policy : ReconnectPolicy) (m : ℕ) : ReconnectPolicy :=
  { policy with maxAttempts := some m }

theorem exhausted_budgeted (policy : ReconnectPolicy) (m attempt : ℕ) :
    (policy.budgeted m).exhausted attempt = true ↔ m < attempt := decide_eq_true_iff

/-- It is for the connection only to fail: asking `should_stop`, parsing and waiting raise other
exceptions. -/
def CallOp.Allows : (op : CallOp) → op.Answer → Prop
  | .stop, r => Raises (fun e => e.isConnectionError = false) r
  | .yieldFrame _, r => Raises (fun e => e.isConnectionError = false) r
  | .pause _, r => Raises (fun e => e.isConnectionError = false) r
  | _, _ => True

namespace AttemptBudget

/-! ## Streams -/

/-- What happened since the start, or since the last event that was yielded. -/
structure Tally where
  failures : ℕ
  reconnects : ℕ
  deriving DecidableEq

namespace Tally

def failed (s : Tally) (e : Exc) : Tally :=
  if e.isConnectionError then { s with failures := s.failures + 1 } else s

/-- After a call: a lost or closed connection shows when the stream is opened and when it is read. -/
def after (s : Tally) : Event CallIO → Tally
  | ⟨.yieldFrame _, .ok _⟩ => ⟨0, 0⟩
  | ⟨.openStream, .error e⟩ => s.failed e
  | ⟨.nextFrame, .error e⟩ => s.failed e
  | ⟨.reconnect, _⟩ => { s with reconnects := s.reconnects + 1 }
  | _ => s

end Tally

def tally (calls : List (Event CallIO)) : Tally := calls.foldl Tally.after ⟨0, 0⟩

theorem tally_concat (calls : List (Event CallIO)) (event : Event CallIO) :
    tally (calls ++ [event]) = (tally calls).after event := by
  rw [tally, List.foldl_append]
  rfl

/-- Any outcomes of the calls, recorded. -/
def outcomes : World CallIO (List (Event CallIO)) where
  permits _ _ := True
  step calls op answer calls' := op.Allows answer ∧ calls' = calls ++ [⟨op, answer⟩]

/-- The outcomes, with calls only while the budget lasts. -/
def budgeted (m : ℕ) : World CallIO (List (Event CallIO)) where
  permits calls _ := (tally calls).failures ≤ m
  step := outcomes.step

/-- How a stream ends: with a lost connection after one failure more than the budget, and after as
many reconnects as the budget. -/
def StreamEnds (m : ℕ) (r : Except Exc Unit) (calls : List (Event CallIO)) : Prop :=
  ((∃ e, r = .error e ∧ e.isConnectionError = true) ↔ (tally calls).failures = m + 1) ∧
    ((tally calls).failures = m + 1 → (tally calls).reconnects = m)

section Stream
variable {policy : ReconnectPolicy} {m a : ℕ} {calls : List (Event CallIO)}

theorem streamEnds_of_le {r : Except Exc Unit} (hr : Raises (fun e => e.isConnectionError = false) r)
    (hle : (tally calls).failures ≤ m) : StreamEnds m r calls := by
  refine ⟨iff_of_false ?_ (by omega), fun h => by omega⟩
  intro ⟨e, he, hconnection⟩
  rw [hr e he] at hconnection
  cases hconnection

/-- A call within the budget. -/
theorem wp_call {β : Type} {op : CallOp} {f : op.Answer → Prog CallIO β}
    {Q : β → List (Event CallIO) → Prop} (hle : (tally calls).failures ≤ m)
    (h : ∀ answer, op.Allows answer → wp (budgeted m) (f answer) Q (calls ++ [⟨op, answer⟩])) :
    wp (budgeted m) (Calls.call op >>= f) Q calls := by
  refine ⟨hle, fun answer calls' ⟨hallows, hcalls⟩ => ?_⟩
  rw [hcalls]
  exact h answer hallows

/-- A failure is the last of the budget, or the loop goes on after one reconnect more. -/
theorem wp_streamFailed {e : Exc} {again : Prog CallIO (Except Exc Unit)}
    (htally : tally calls = (⟨a, a⟩ : Tally).failed e) (ha : a ≤ m)
    (hagain : ∀ calls', tally calls' = ⟨a + 1, a + 1⟩ → a + 1 ≤ m →
      wp (budgeted m) again (StreamEnds m) calls') :
    wp (budgeted m) (Calls.streamFailed (policy.budgeted m) e a again) (StreamEnds m) calls := by
  unfold Calls.streamFailed
  unfold Tally.failed at htally
  by_cases he : e.isConnectionError = true
  · rw [if_neg (not_not.mpr he)]
    rw [if_pos he] at htally
    -- the failure after the last attempt is raised, and it alone
    by_cases hlast : m < a + 1
    · rw [if_pos ((exhausted_budgeted policy m (a + 1)).mpr hlast)]
      have heq : a = m := by omega
      refine ⟨iff_of_true ⟨e, rfl, he⟩ ?_, fun _ => ?_⟩
      · rw [htally, heq]
      · rw [htally, heq]
    · rw [if_neg (fun h => hlast ((exhausted_budgeted policy m (a + 1)).mp h))]
      have hle : (tally calls).failures ≤ m := by
        rw [htally]
        dsimp only
        omega
      apply wp_call hle
      intro r hr
      have hpause : tally (calls ++ [⟨.pause (a + 1), r⟩]) = ⟨a + 1, a⟩ := by
        rw [tally_concat, htally]
        rfl
      have hle' : (tally (calls ++ [⟨.pause (a + 1), r⟩])).failures ≤ m := by
        rw [hpause]
        dsimp only
        omega
      cases r with
      | error e' => exact streamEnds_of_le (raises_error (hr e' rfl)) hle'
      | ok _ =>
        apply wp_call hle'
        intro r _
        have hreconnect : tally (calls ++ [⟨.pause (a + 1), .ok ()⟩] ++ [⟨.reconnect, r⟩]) =
            ⟨a + 1, a + 1⟩ := by
          rw [tally_concat, hpause]
          rfl
        cases r with
        | ok _ => exact hagain _ hreconnect (by omega)
        | error e' =>
          dsimp only
          by_cases he' : e'.isConnectionError = true
          · rw [if_pos he']
            exact hagain _ hreconnect (by omega)
          · rw [if_neg he']
            refine streamEnds_of_le (raises_error (eq_false_of_ne_true he')) ?_
            rw [hreconnect]
            dsimp only
            omega
  · rw [if_pos he]
    rw [if_neg he] at htally
    refine streamEnds_of_le (raises_error (eq_false_of_ne_true he)) ?_
    rw [htally]
    exact ha

/-- Asking `should_stop` counts for nothing. -/
theorem wp_stop (ha : a ≤ m) {next : Prog CallIO (Except Exc Unit)} (htally : tally calls = ⟨a, a⟩)
    (hnext : ∀ calls', tally calls' = ⟨a, a⟩ → wp (budgeted m) next (StreamEnds m) calls') :
    wp (budgeted m) (do
      match ← Calls.call .stop with
      | .error e => return .error e
      | .ok true => return .ok ()
      | .ok false => next) (StreamEnds m) calls := by
  have hle : ∀ {calls : List (Event CallIO)}, tally calls = ⟨a, a⟩ → (tally calls).failures ≤ m := by
    intro calls htally
    rwa [htally]
  apply wp_call (hle htally)
  intro r hr
  have hasked : tally (calls ++ [⟨.stop, r⟩]) = ⟨a, a⟩ := by
    rw [tally_concat, htally]
    rfl
  cases r with
  | error e => exact streamEnds_of_le (raises_error (hr e rfl)) (hle hasked)
  | ok stopped =>
    cases stopped with
    | true => exact streamEnds_of_le (raises_ok _) (hle hasked)
    | false => exact hnext _ hasked

/-- The loop, after as many failures as reconnects since the last event. -/
theorem wp_streamLoop (rounds : ℕ) (phase : Transport.StreamPhase) (htally : tally calls = ⟨a, a⟩)
    (ha : a ≤ m) : wp (budgeted m) (Calls.streamLoop (policy.budgeted m) rounds phase a)
      (StreamEnds m) calls := by
  have hle : ∀ {calls : List (Event CallIO)} {a : ℕ}, tally calls = ⟨a, a⟩ → a ≤ m →
      (tally calls).failures ≤ m := by
    intro calls a htally ha
    rwa [htally]
  -- the invariant of the loop: as many reconnects as failures since the last event
  induction rounds generalizing phase a calls with
  | zero => cases phase <;> exact trivial
  | succ rounds ih =>
    cases phase with
    | opening =>
      refine wp_stop ha htally fun calls' hcalls' => ?_
      apply wp_call (hle hcalls' ha)
      intro r _
      cases r with
      | ok _ =>
        refine ih .reading ?_ ha
        rw [tally_concat, hcalls']
        rfl
      | error e =>
        refine wp_streamFailed ?_ ha fun calls'' h ha' => ih .opening h ha'
        rw [tally_concat, hcalls']
        rfl
    | reading =>
      apply wp_call (hle htally ha)
      intro r _
      match r with
      | .ok (some frame) =>
        have hframe : tally (calls ++ [⟨.nextFrame, .ok (some frame)⟩]) = ⟨a, a⟩ := by
          rw [tally_concat, htally]
          rfl
        apply wp_call (hle hframe ha)
        intro r hr
        cases r with
        | ok resumption =>
          cases resumption with
          | next =>
            -- an event starts both counts again
            refine ih .reading ?_ (Nat.zero_le m)
            rw [tally_concat]
            rfl
          | close =>
            refine streamEnds_of_le (raises_error rfl) ?_
            rw [tally_concat]
            exact Nat.zero_le m
        | error e =>
          refine streamEnds_of_le (raises_error (hr e rfl)) ?_
          rw [tally_concat, hframe]
          exact ha
      | .ok none =>
        refine wp_stop ha ?_ fun calls' hcalls' => ih .reading hcalls' ha
        rw [tally_concat, htally]
        rfl
      | .error e =>
        refine wp_streamFailed ?_ ha fun calls'' h ha' => ih .opening h ha'
        rw [tally_concat, htally]
        rfl

end Stream

/-! ## What the calls do on a connection -/

section Calls
variable (p : Package) (x : Caller)

theorem notConnection_of_sleep {e : Exc} (h : e.OfSleep) : e.isConnectionError = false := by
  cases e with
  | connectionError fault => exact h.elim
  | timeoutError site => exact h.elim
  | _ => rfl

theorem notConnection_of_computed {e : Exc} (h : e.Computed) : e.isConnectionError = false := by
  cases e with
  | connectionError fault => exact h.elim
  | timeoutError site => exact h.elim
  | _ => rfl

theorem pause_allows (policy : ReconnectPolicy) (attempt : ℕ) :
    (p.transport.pause policy attempt).Leaves (fun _ => True)
      fun e => e.isConnectionError = false := by
  have hceiling : Raises (fun e => e.isConnectionError = false) (policy.ceiling attempt) := by
    refine Raises.bind ?_ fun _ => raises_ok _
    exact .ite (raises_error rfl) (raises_ok _)
  refine .bind ?_ fun delay => ?_
  · exact .bind (.ofExcept hceiling) fun _ => .bind (.perform (by exact trivial)) fun _ => .pure _
  · exact (p.sleep_sleepsFor delay).mono (fun _ _ => trivial) fun _ => notConnection_of_sleep

/-- The outcomes that the calls of a stream have on a connection are among those allowed. -/
theorem carryOut_allows (hparse : ∀ frame, Raises Exc.Computed (x.parse frame))
    (hsend : ∀ command d, (x.send command d).Only (fun _ => True) fun _ => True) (op : CallOp)
    (c : Connection) :
    wp (anything fun _ => True) (p.transport.carryOut x op c) (fun r _ => op.Allows r.1) () := by
  have honly : ∀ {α : Type} {m : ConnM α} {P : NetOp → Prop} {E : Exc → Prop}, m.Only P E →
      wp (anything fun _ => True) (m c) (fun _ _ => True) () := by
    intro α m P E h
    exact wp_mono (wp_anything_mono (fun _ _ => trivial) (h c)) fun _ _ _ => trivial
  cases op with
  | send => exact honly (hsend x.command x.deadline)
  | requestInFlight => exact trivial
  | backoff attempt => exact honly (.of_leaves (p.backoff_raises x.policy attempt x.deadline))
  | reconnect => exact honly (only_reconnect p)
  | openStream => exact honly (only_writeRequest p x.command Deadline.unlimited)
  | nextFrame => exact honly (only_nextFrame p _)
  | stop =>
    change wp _ (Transport.stopped x.polled c) _ ()
    unfold Transport.stopped
    split
    · exact ⟨trivial, fun _ _ _ => raises_ok _⟩
    · exact raises_ok _
  | yieldFrame frame =>
    change wp _ (Transport.yieldFrame x.parse frame c) _ ()
    unfold Transport.yieldFrame
    have hraises := hparse frame
    cases hevent : x.parse frame with
    | error e => exact raises_error (notConnection_of_computed (hraises e hevent))
    | ok event => exact ⟨trivial, fun _ _ _ => raises_ok _⟩
  | pause attempt => exact wp_mono (pause_allows p x.policy attempt c) fun _ _ h => h.2

/-- A reconnect that fails leaves the connection closed. -/
theorem closed_of_reconnect (c : Connection) :
    wpm (anything fun _ => True) p.transport.reconnect
      (fun r c' _ => ∀ e, r = .error e → c'.sock = none) c () := by
  have hdialer : Dialer (anything fun _ => True) (fun _ => True) fun _ _ => True :=
    ⟨fun _ _ _ => ⟨trivial, fun _ _ _ => trivial⟩,
      fun _ _ _ _ _ => ⟨trivial, fun a _ _ => by cases a <;> trivial⟩,
      fun _ _ _ _ _ => ⟨trivial, fun a _ _ => by cases a <;> trivial⟩,
      fun _ _ _ _ => ⟨trivial, fun _ _ _ => trivial⟩, fun _ _ _ => ⟨trivial, fun _ _ _ => trivial⟩⟩
  have hkeeps : Keeps (anything fun _ => True) NetOp.Exchanging fun _ => True :=
    fun _ _ _ _ => ⟨trivial, fun _ _ _ => trivial⟩
  have hconnect : wpm (anything fun _ => True) p.transport.connect
      (fun r c' _ => ∀ e, r = .error e → c'.sock = none) { c with sock := none } () := by
    refine wpm_connect_by p hdialer trivial (fun _ _ _ _ _ => rfl) fun sock _ _ => ?_
    refine wpm_mono (wpm_handshake_keeps p hkeeps trivial) ?_
    intro r c' _ _
    cases r with
    | ok _ => exact fun _ h => by cases h
    | error e => exact wpm_close_of (fun _ _ => ⟨trivial, fun _ _ _ _ => rfl⟩) fun _ _ _ => rfl
  exact wpm_reconnect_of (fun _ _ => ⟨trivial, fun _ _ => hconnect⟩) fun _ => hconnect

/-- A request on a closed connection fails at once. -/
theorem openStream_closed {command : Command} {c : Connection} (hsock : c.sock = none)
    (hfits : command.payload.length ≤ c.maxMessageSize) :
    p.transport.openStream command c = .pure (.error (.connectionError .closed), c) := by
  have hsize : checkRequestSize command.payload c.maxMessageSize = .ok () := if_neg (not_lt.mpr hfits)
  obtain ⟨settings, sock, maxMessageSize, role, authRequired, requestInFlight⟩ := c
  replace hsock : sock = none := hsock
  subst hsock
  cases p with
  | sync =>
    change Sync.writeRequest command Deadline.unlimited _ = _
    unfold Sync.writeRequest
    rw [method_bind_apply]
    change (Method.ofExcept (checkRequestSize command.payload maxMessageSize) >>= _ : ConnM Unit) _ = _
    rw [hsize]
    rfl
  | aio =>
    change Aio.writeRequest command Deadline.unlimited _ = _
    unfold Aio.writeRequest
    rw [method_bind_apply]
    change (Method.ofExcept (checkRequestSize command.payload maxMessageSize) >>= _ : ConnM Unit) _ = _
    rw [hsize]
    rfl

end Calls

/-! ## Requests -/

/-- How often a command was sent, and its connection reconnected. -/
structure Spent where
  sends : ℕ
  reconnects : ℕ

def Spent.after (s : Spent) : CallOp → Spent
  | .send => { s with sends := s.sends + 1 }
  | .reconnect => { s with reconnects := s.reconnects + 1 }
  | _ => s

/-- Any outcomes of the calls, counted. -/
def spending : World CallIO Spent := monitor fun s event => s.after event.1

/-- A call with the budget sends its command and reconnects only so often. -/
def spare (m : ℕ) : World CallIO Spent where
  permits s op := match op with
    | .send => s.sends ≤ m
    | .reconnect => s.reconnects < m
    | _ => True
  step := spending.step

section Retry
variable {policy : ReconnectPolicy} {m : ℕ}

/-- The loop of a request, after so many failures. -/
theorem wp_withRetry (readOnly : Bool) (rounds : ℕ) {a : ℕ} (ha : a ≤ m) :
    wp (spare m) (Calls.withRetry (policy.budgeted m) readOnly rounds a) (fun _ _ => True) ⟨a, a⟩ := by
  induction rounds generalizing a with
  | zero => exact trivial
  | succ rounds ih =>
    refine ⟨ha, fun r s₁ hs₁ => ?_⟩
    replace hs₁ : s₁ = ⟨a + 1, a⟩ := hs₁
    rw [hs₁]
    cases r with
    | ok response => exact trivial
    | error e =>
      cases e with
      | connectionError fault =>
        refine ⟨trivial, fun flag s₂ hs₂ => ?_⟩
        replace hs₂ : s₂ = ⟨a + 1, a⟩ := hs₂
        rw [hs₂]
        change wp _ (if flag = true ∧ ¬ readOnly = true then _ else _) _ _
        split
        · exact trivial
        · split
          · exact trivial
          next hexhausted =>
            have hspare : a + 1 ≤ m := by
              rw [exhausted_budgeted] at hexhausted
              omega
            refine ⟨trivial, fun r s₃ hs₃ => ?_⟩
            replace hs₃ : s₃ = ⟨a + 1, a⟩ := hs₃
            rw [hs₃]
            cases r with
            | error e => exact trivial
            | ok _ =>
              -- an attempt is left, so a reconnect is
              refine ⟨hspare, fun r s₄ hs₄ => ?_⟩
              replace hs₄ : s₄ = ⟨a + 1, a + 1⟩ := hs₄
              rw [hs₄]
              cases r with
              | ok _ => exact ih hspare
              | error e =>
                cases e with
                | connectionError _ => exact ih hspare
                | _ => exact trivial
      | _ => exact trivial

/-- With the budget the loop needs only so many rounds. -/
theorem total_withRetry (readOnly : Bool) (rounds a : ℕ) (hrounds : m < a + rounds) (ha : a ≤ m) :
    (Calls.withRetry (policy.budgeted m) readOnly rounds a).Total := by
  induction rounds generalizing a with
  | zero => omega
  | succ rounds ih =>
    intro r
    cases r with
    | ok response => exact trivial
    | error e =>
      cases e with
      | connectionError fault =>
        intro flag
        change Prog.Total (if flag = true ∧ ¬ readOnly = true then _ else _)
        split
        · exact trivial
        · split
          · exact trivial
          next hexhausted =>
            rw [exhausted_budgeted] at hexhausted
            have hagain := ih (a + 1) (by omega) (by omega)
            intro r
            cases r with
            | error e => exact trivial
            | ok _ =>
              intro r
              cases r with
              | ok _ => exact hagain
              | error e =>
                cases e with
                | connectionError _ => exact hagain
                | _ => exact trivial
      | _ => exact trivial

end Retry

/-! ### What is written -/

/-- How often a command was written, and whether the newest connection was greeted: the first thing
that is written to it is HELLO. -/
structure Written where
  greeted : Bool
  commands : ℕ

def Written.after (s : Written) : Event Net → Written
  | ⟨.createConnection _ _ _, .ok _⟩ => { s with greeted := false }
  | ⟨.openConnection _ _ _, .ok _⟩ => { s with greeted := false }
  | ⟨.sendall _ _, _⟩ => if s.greeted then { s with commands := s.commands + 1 }
      else { s with greeted := true }
  | ⟨.writeDrain _ _, _⟩ => if s.greeted then { s with commands := s.commands + 1 }
      else { s with greeted := true }
  | _ => s

/-- Any answers, with the writes counted. -/
def writing : World Net Written := monitor Written.after

/-- So many writes of commands, and no more. -/
def sparing (m : ℕ) : World Net Written where
  permits s op := match op with
    | .sendall _ _ => s.greeted = true → s.commands ≤ m
    | .writeDrain _ _ => s.greeted = true → s.commands ≤ m
    | _ => True
  step := writing.step

section Writes
variable {m n : ℕ} {c : Connection} {s : Written}

theorem keeps_reading (J : Written → Prop) : Keeps (sparing m) NetOp.Reading J := by
  intro s op hop hs
  cases op with
  | monotonic | settimeout | recv | enterTimeout | readexactly =>
    exact ⟨trivial, fun a s' h => by rwa [show s' = s from h]⟩
  | _ => exact hop.elim

theorem keeps_setting (J : Written → Prop) : Keeps (sparing m) NetOp.Setting J := by
  intro s op hop hs
  cases op with
  | monotonic | settimeout | enterTimeout =>
    exact ⟨trivial, fun a s' h => by rwa [show s' = s from h]⟩
  | _ => exact hop.elim

theorem written_writeOp (p : Package) {sock : SockId} {frame : Bytes} {s s' : Written}
    {a : (p.writeOp sock frame).Answer} (h : (sparing m).step s (p.writeOp sock frame) a s') :
    s' = if s.greeted then { s with commands := s.commands + 1 } else { s with greeted := true } := by
  cases p <;> exact h

theorem permits_writeOp (p : Package) {sock : SockId} {frame : Bytes}
    (h : s.greeted = true → s.commands ≤ m) : (sparing m).permits s (p.writeOp sock frame) := by
  cases p <;> exact h

/-- A connection is closed or was greeted, and so many commands were written. -/
def Ready (n : ℕ) (c : Connection) (s : Written) : Prop :=
  s.commands ≤ n ∧ (c.sock = none ∨ s.greeted = true)

/-- A request writes its command at most once. -/
theorem wpm_request (p : Package) (command : Command) (d : Deadline) (hs : Ready n c s) (hn : n ≤ m) :
    wpm (sparing m) (p.transport.writeRequest command d) (fun _ _ s' => s'.commands ≤ n + 1) c s := by
  apply wpm_writeRequest p (keeps_setting (Ready n c)) command d hs
  · exact fun e s₁ _ hs₁ => Nat.le_succ_of_le hs₁.1
  · intro sock frame s₁ ⟨hle, hready⟩ hsock _ _
    have hgreeted : s₁.greeted = true :=
      hready.resolve_left (by rw [hsock]; exact Option.some_ne_none _)
    refine ⟨permits_writeOp p fun _ => hle.trans hn, fun a s₂ h => ?_⟩
    rw [written_writeOp p h, if_pos hgreeted]
    exact Nat.add_le_add_right hle 1

theorem wpm_frames (p : Package) {send : Command → Deadline → ConnM Bytes}
    (hsend : SentBy p.transport send) (command : Command) (d : Deadline) (hs : Ready n c s)
    (hn : n ≤ m) :
    wpm (sparing m) (send command d) (fun _ _ s' => s'.commands ≤ n + 1) c s := by
  have hframe : ∀ (c : Connection) (s : Written), s.commands ≤ n + 1 →
      wpm (sparing m) (p.transport.readFrame d) (fun _ _ s' => s'.commands ≤ n + 1) c s := by
    intro c s hs
    exact wpm_mono (wpm_of_leaves (keeps_reading _) (p.reads_readFrame d) hs) fun _ _ _ h => h.2
  cases hsend with
  | send =>
    apply wpm_send_of
    refine wpm_mono (wpm_request p command d hs hn) ?_
    intro r c₁ s₁ hs₁
    cases r with
    | error e => exact hs₁
    | ok _ =>
      refine wpm_mono (hframe c₁ s₁ hs₁) ?_
      intro r c₂ s₂ hs₂
      cases r with
      | error e => exact hs₂
      | ok frame => exact hs₂
  | chunked rounds =>
    unfold Transport.sendChunked
    rw [wpm_bind]
    refine wpm_mono (wpm_request p command d hs hn) ?_
    intro r c₁ s₁ hs₁
    cases r with
    | error e => exact hs₁
    | ok _ => exact wpm_readChunks_keeps trivial hframe (fun _ _ => id) rounds [] hs₁

/-- The connection that was just opened, with so many commands written before. -/
def Opened (n : ℕ) (s : Written) : Prop := s.commands ≤ n ∧ s.greeted = false

theorem wpm_handshake (p : Package) (hs : Opened n s) :
    wpm (sparing m) p.transport.handshake
      (fun r _ s' => s'.commands ≤ n ∧ (r = .ok () → s'.greeted = true)) c s := by
  have hfailed : ∀ {e : Exc} {s' : Written}, s'.commands ≤ n → s'.commands ≤ n ∧
      ((.error e : Except Exc Unit) = .ok () → s'.greeted = true) := fun h => ⟨h, fun h => by cases h⟩
  apply wpm_handshake_of
  · exact fun e _ => hfailed hs.1
  · intro command _
    refine ⟨trivial, fun now s₁ hs₁ => ?_⟩
    rw [show s₁ = s from hs₁]
    apply wpm_send_of
    apply wpm_writeRequest p (keeps_setting (Opened n)) command _ hs
    · exact fun e s₂ _ hs₂ => hfailed hs₂.1
    · intro sock frame s₂ ⟨hle, hnew⟩ _ _ _
      have hpermits : (sparing m).permits s₂ (p.writeOp sock frame) := by
        apply permits_writeOp
        rw [hnew]
        exact Bool.noConfusion
      refine ⟨hpermits, fun a s₃ h => ?_⟩
      have hgreeted : s₃.commands ≤ n ∧ s₃.greeted = true := by
        rw [written_writeOp p h, if_neg (by rw [hnew]; exact Bool.false_ne_true)]
        exact ⟨hle, rfl⟩
      cases p.wrote a with
      | error e => exact hfailed hgreeted.1
      | ok _ =>
        refine wpm_mono (wpm_of_leaves (keeps_reading fun s => s.commands ≤ n ∧ s.greeted = true)
          (p.reads_readFrame _) hgreeted) ?_
        intro r c₄ s₄ ⟨_, hle₄, hgreeted₄⟩
        cases r with
        | error e => exact hfailed hle₄
        | ok response =>
          apply Greeted.response
          · exact fun e => hfailed hle₄
          · exact fun _ _ => ⟨hle₄, fun _ => hgreeted₄⟩

theorem dialer : Dialer (sparing m) (fun s => s.commands ≤ n) fun _ => Opened n where
  timeout s delay hs := ⟨trivial, fun _ s' h => by rwa [show s' = s from h]⟩
  create s host port timeout hs := by
    refine ⟨trivial, fun a s' h => ?_⟩
    cases a with
    | ok sock =>
      rw [show s' = ⟨false, s.commands⟩ from h]
      exact ⟨hs, rfl⟩
    | error fault => exact (show s' = s from h) ▸ hs
  openTo s host port hostname hs := by
    refine ⟨trivial, fun a s' h => ?_⟩
    cases a with
    | ok sock =>
      rw [show s' = ⟨false, s.commands⟩ from h]
      exact ⟨hs, rfl⟩
    | error fault => exact (show s' = s from h) ▸ hs
  wrap s sock hostname hs := ⟨trivial, fun _ s' h => by rwa [show s' = s from h]⟩
  close s sock hs := ⟨trivial, fun _ s' h => by rw [show s' = s from h]; exact hs.1⟩

/-- A reconnect writes no command. -/
theorem wpm_reconnect (p : Package) (hs : s.commands ≤ n) :
    wpm (sparing m) p.transport.reconnect (fun _ c' s' => Ready n c' s') c s := by
  have hconnect : wpm (sparing m) p.transport.connect (fun _ c' s' => Ready n c' s')
      { c with sock := none } s := by
    refine wpm_connect_by p dialer hs (fun e s' hs' => ⟨hs', Or.inl rfl⟩) fun sock s' hs' => ?_
    refine wpm_mono (wpm_handshake p hs') ?_
    intro r c₂ s₂ ⟨hs₂, hgreeted⟩
    cases r with
    | ok _ => exact ⟨hs₂, Or.inr (hgreeted rfl)⟩
    | error e =>
      refine wpm_close_of (fun _ _ => ⟨trivial, fun s₃ h => ?_⟩) fun _ => ⟨hs₂, Or.inl rfl⟩
      rw [show s₃ = s₂ from h]
      exact ⟨hs₂, Or.inl rfl⟩
  refine wpm_reconnect_of (fun _ _ => ⟨trivial, fun s' h => ?_⟩) fun _ => hconnect
  rwa [show s' = s from h]

/-- A request with the budget writes its command only so often. -/
theorem wpm_written (p : Package) (policy : ReconnectPolicy) {send : Command → Deadline → ConnM Bytes}
    (hsend : SentBy p.transport send) (command : Command) (d : Deadline) (rounds : ℕ)
    (hs : Ready 0 c s) :
    wpm (sparing m) (p.transport.withRetry (policy.budgeted m) command d send rounds 0)
      (fun _ _ _ => True) c s := by
  have hround : Retrying (sparing m) p.transport (policy.budgeted m) command d send
      (fun n c s => n ≤ m ∧ Ready n c s) (fun n _ _ s => s.commands ≤ n + 1)
      (fun n _ s => n ≤ m ∧ s.commands ≤ n) (fun _ _ _ => True) := by
    refine ⟨?_, ?_, ?_, ?_⟩
    · intro n c s ⟨hn, hs⟩
      refine wpm_mono (wpm_frames p hsend command d hs hn) ?_
      intro r c' s' h
      split
      · exact h
      · trivial
    · exact fun _ _ _ _ _ _ => trivial
    · intro n _ c s hs _ hspare
      have hn : n + 1 ≤ m := by
        by_contra hlast
        rw [(exhausted_budgeted policy m (n + 1)).mpr (by omega)] at hspare
        cases hspare
      have hkeeps : Keeps (sparing m) NetOp.Waiting fun s => s.commands ≤ n + 1 := by
        intro s op hop hs
        cases op with
        | monotonic | random | sleep | asyncSleep =>
          exact ⟨trivial, fun a s' h => by rwa [show s' = s from h]⟩
        | _ => exact hop.elim
      refine wpm_mono (wpm_of_leaves hkeeps (p.backoff_raises _ (n + 1) d) hs) ?_
      intro r c' s' ⟨_, h⟩
      split
      · exact ⟨hn, h⟩
      · trivial
    · intro n c s ⟨hn, hs⟩
      refine wpm_mono (wpm_reconnect p hs) ?_
      intro r c' s' h
      split
      · exact ⟨hn, h⟩
      · exact ⟨hn, h⟩
      · trivial
  exact hround.withRetry trivial rounds (n := 0) ⟨Nat.zero_le m, hs⟩

end Writes

/-! ## Both loops -/

/-- The loop of a request with the budget makes these calls and no others, never reconnects more
often than that, never sends or writes its command more than once more, and comes to its end. -/
structure RequestBudget (p : Package) (m : ℕ) (x : Caller) (c : Connection) : Prop where
  calls : ∀ rounds, p.transport.withRetry x.policy x.command x.deadline x.send rounds 0 c =
    (Calls.withRetry x.policy x.command.readOnly rounds 0).handled (p.transport.carryOut x) c
  spent : ∀ rounds q s, Reaches spending (Calls.withRetry x.policy x.command.readOnly rounds 0, ⟨0, 0⟩)
    (q, s) → s.sends ≤ m + 1 ∧ s.reconnects ≤ m
  written : ∀ rounds q s, Reaches writing
    (p.transport.withRetry x.policy x.command x.deadline x.send rounds 0 c, ⟨true, 0⟩) (q, s) →
      s.commands ≤ m + 1
  ends : ∀ rounds, m < rounds → (Calls.withRetry x.policy x.command.readOnly rounds 0).Total
  sendEnds : x.send = p.transport.send → ∀ rounds, m < rounds →
    (p.transport.withRetry x.policy x.command x.deadline x.send rounds 0 c).Total

/-- The loop of a stream with the budget makes these calls, whose outcomes are allowed. It ends with
a lost connection exactly when there was one failure more than the budget, after as many reconnects
as that, and makes no call afterwards. A reconnect that fails counts through the next request, which
fails on the closed connection. -/
structure StreamBudget (p : Package) (m : ℕ) (x : Caller) (c : Connection) : Prop where
  calls : ∀ rounds, p.transport.streamLoop x.policy x.command x.parse x.polled rounds .opening 0 c =
    (Calls.streamLoop x.policy rounds .opening 0).handled (p.transport.carryOut x) c
  allowed : ∀ op c', wp (anything fun _ => True) (p.transport.carryOut x op c')
    (fun r _ => op.Allows r.1) ()
  ends : ∀ rounds r calls, Reaches outcomes (Calls.streamLoop x.policy rounds .opening 0, [])
    (.pure r, calls) → StreamEnds m r calls
  goesOn : ∀ rounds op k calls, Reaches outcomes (Calls.streamLoop x.policy rounds .opening 0, [])
    (.call op k, calls) → (tally calls).failures ≤ m
  closed : ∀ c', wpm (anything fun _ => True) p.transport.reconnect (fun r c'' _ => ∀ e, r = .error e →
    x.command.payload.length ≤ c''.maxMessageSize →
      p.transport.openStream x.command c'' = .pure (.error (.connectionError .closed), c'')) c' ()

section Budgets
variable (p : Package) (policy : ReconnectPolicy) (m : ℕ) (x : Caller)

theorem requestBudget (hpolicy : x.policy = policy.budgeted m) (hsend : SentBy p.transport x.send)
    (hparse : ∀ frame, Raises Exc.Computed (x.parse frame)) (c : Connection) :
    RequestBudget p m x c where
  calls rounds := withRetry_handled rounds 0 c
  spent rounds q s hrun := by
    rw [hpolicy] at hrun
    refine reaches_invariant (fun s => s.sends ≤ m + 1 ∧ s.reconnects ≤ m) ?_
      (wp_withRetry x.command.readOnly rounds (Nat.zero_le m)) ⟨Nat.zero_le _, Nat.zero_le _⟩
      (reaches_of_step ?_ hrun)
    · intro s op answer s' hs hpermits h
      rw [show s' = s.after op from h]
      cases op with
      | send => exact ⟨Nat.succ_le_succ hpermits, hs.2⟩
      | reconnect => exact ⟨hs.1, hpermits⟩
      | _ => exact hs
    · exact fun _ _ _ _ h => h
  written rounds q s hrun := by
    rw [hpolicy] at hrun
    have hready : Ready 0 c ⟨true, 0⟩ := ⟨le_rfl, Or.inr rfl⟩
    refine reaches_invariant (fun s => s.commands ≤ m + 1) ?_
      (wpm_written p policy hsend x.command x.deadline rounds hready) (Nat.zero_le _)
      (reaches_of_step ?_ hrun)
    · intro s op answer s' hs hpermits h
      rw [show s' = s.after ⟨op, answer⟩ from h]
      -- the first write on a socket is HELLO, and counts for no command
      have hwrite : (s.greeted = true → s.commands ≤ m) → (if s.greeted then
          { s with commands := s.commands + 1 } else { s with greeted := true } : Written).commands ≤
            m + 1 := by
        intro hpermits
        split
        next hgreeted => exact Nat.succ_le_succ (hpermits hgreeted)
        next => exact hs
      cases op with
      | sendall sock frame => exact hwrite hpermits
      | writeDrain sock frame => exact hwrite hpermits
      | createConnection host port timeout => cases answer <;> exact hs
      | openConnection host port hostname => cases answer <;> exact hs
      | _ => exact hs
    · exact fun _ _ _ _ h => h
  ends rounds hrounds := by
    rw [hpolicy]
    exact total_withRetry x.command.readOnly rounds 0 (by omega) (Nat.zero_le m)
  sendEnds heq rounds hrounds := by
    rw [withRetry_handled, hpolicy]
    refine (total_withRetry x.command.readOnly rounds 0 (by omega) (Nat.zero_le m)).handled ?_ c
    intro op c'
    refine total_of_anything (carryOut_allows p x hparse ?_ op c')
    intro command d c
    rw [heq]
    exact wp_mono (wp_anything_mono (fun _ _ => trivial) (only_send p command d c))
      fun _ _ _ _ _ => trivial

theorem streamBudget (hpolicy : x.policy = policy.budgeted m)
    (hsend : ∀ command d, (x.send command d).Only (fun _ => True) fun _ => True)
    (hparse : ∀ frame, Raises Exc.Computed (x.parse frame)) (c : Connection) :
    StreamBudget p m x c where
  calls rounds := streamLoop_handled rounds .opening 0 c
  allowed op c' := carryOut_allows p x hparse hsend op c'
  ends rounds r calls hrun := by
    rw [hpolicy] at hrun
    refine wp_result (wp_streamLoop rounds .opening rfl (Nat.zero_le m)) (reaches_of_step ?_ hrun)
    exact fun _ _ _ _ h => h
  goesOn rounds op k calls hrun := by
    rw [hpolicy] at hrun
    refine wp_permits (wp_streamLoop rounds .opening rfl (Nat.zero_le m)) (reaches_of_step ?_ hrun)
    exact fun _ _ _ _ h => h
  closed c' := by
    refine wpm_mono (closed_of_reconnect p c') ?_
    exact fun _ _ _ h e he hfits => openStream_closed p (h e he) hfits

end Budgets

/-- The attempt budget is exact, for requests and for streams, whatever becomes of the connections. -/
theorem attempt_budget_exact (p : Package) (policy : ReconnectPolicy) (m : ℕ) (command : Command)
    (d : Deadline) (subscription : Subscription) (polled : Bool) (c : Connection) :
    (∀ send, SentBy p.transport send →
      RequestBudget p m ⟨policy.budgeted m, command, d, send, subscription.parse, polled⟩ c) ∧
    StreamBudget p m
      ⟨policy.budgeted m, command, d, p.transport.send, subscription.parse, polled⟩ c := by
  constructor
  · intro send hsend
    exact requestBudget p policy m _ rfl hsend subscription.raises_parse c
  · refine streamBudget p policy m _ rfl (fun command d c => ?_) subscription.raises_parse c
    exact wp_mono (wp_anything_mono (fun _ _ => trivial) (only_send p command d c))
      fun _ _ _ _ _ => trivial

/-- A server that is down: requests fail, and so do reconnects. -/
def serverGone (calls : ℕ) : (op : CallOp) → op.Answer × ℕ
  | .send | .openStream | .nextFrame | .reconnect => (.error (.connectionError .closed), calls + 1)
  | .requestInFlight => (false, calls + 1)
  | .stop => (.ok false, calls + 1)
  | .backoff _ | .pause _ => (.ok (), calls + 1)
  | .yieldFrame _ => (.ok .next, calls + 1)

/-- With one attempt the stream asks, fails, waits, reconnects, asks and fails. -/
example : (Calls.streamLoop (ReconnectPolicy.budgeted {} 1) 3 .opening 0).run serverGone 0 =
    (some (.error (.connectionError .closed)), 6) := rfl

end AttemptBudget

end FqClient
