import FqClient.CommandEncoding
import FqClient.Packages

namespace FqClient

open Effects

/-! ## Writes of one frame -/

/-- Hands the frame to a socket. -/
def NetOp.Sends (frame : Bytes) : NetOp → Prop
  | .sendall _ data | .writeDrain _ data => data = frame
  | _ => False

def NetOp.NotSends (frame : Bytes) (op : NetOp) : Prop := ¬ op.Sends frame

/-- A write of the frame after which the server may have all of it: any but one that failed with an
`OSError` other than a timeout. -/
def delivers (frame : Bytes) : Event Net → Bool
  | ⟨.sendall _ data, answer⟩ => data = frame ∧ answer ≠ .error .other
  | ⟨.writeDrain _ data, answer⟩ => data = frame ∧ answer ≠ .error .other
  | _ => false

def deliveries (frame : Bytes) (log : List (Event Net)) : ℕ := log.countP (delivers frame)

theorem deliveries_concat (frame : Bytes) (log : List (Event Net)) (e : Event Net) :
    deliveries frame (log ++ [e]) = deliveries frame log + if delivers frame e then 1 else 0 := by
  simp [deliveries, List.countP_append, List.countP_cons]

theorem not_sends_of_notWrite {frame : Bytes} (op : NetOp) (h : op.NotWrite) : op.NotSends frame := by
  cases op <;> first | exact h.elim | exact id

theorem deliveries_of_not_sends {frame : Bytes} {op : NetOp} (h : op.NotSends frame)
    (answer : op.Answer) (log : List (Event Net)) :
    deliveries frame (log ++ [⟨op, answer⟩]) = deliveries frame log := by
  have hno : delivers frame ⟨op, answer⟩ = false := by
    cases op <;> first | rfl | exact decide_eq_false fun hd => h hd.1
  rw [deliveries_concat, hno]
  rfl

/-- The frame may only be handed over while no delivery of it is possible yet. -/
def onceOnly (frame : Bytes) : World Net (List (Event Net)) :=
  guarded fun log (op : NetOp) => op.Sends frame → deliveries frame log = 0

section Once
variable {frame : Bytes}

/-- What never hands over the frame keeps the count. -/
theorem once_of_only {κ α : Type} {m : Method Net κ Exc α}
    {E : Exc → Prop}
    (hm : m.Only (NetOp.NotSends frame) E) (c : κ) (log : List (Event Net)) :
    wpm (onceOnly frame) m
      (fun _ _ log' => deliveries frame log' = deliveries frame log) c log := by
  refine wpm_mono (wpm_of_anything (Q := fun r _ => Raises E r)
    (J := fun log' => deliveries frame log' = deliveries frame log) ?_ ?_ (hm c) rfl)
    fun _ _ _ h => h.2
  · exact fun _ _ h _ hs => absurd hs h
  · rintro log' op answer _ h hInv rfl
    exact (deliveries_of_not_sends h answer log').trans hInv

theorem once_of_leaves {κ α : Type} {m : Method Net κ Exc α}
    (hm : m.Leaves NetOp.NotWrite fun _ => True) (c : κ)
    (log : List (Event Net)) :
    wpm (onceOnly frame) m
      (fun _ c' log' => c' = c ∧ deliveries frame log' = deliveries frame log) c log := by
  refine wpm_mono (wpm_of_anything (Q := fun r c' => c' = c ∧ Raises (fun _ => True) r)
    (J := fun log' => deliveries frame log' = deliveries frame log) ?_ ?_ (hm c) rfl)
    fun _ _ _ h => ⟨h.1.1, h.2⟩
  · exact fun _ op h _ hs => absurd hs (not_sends_of_notWrite op h)
  · rintro log' op answer _ h hInv rfl
    exact (deliveries_of_not_sends (not_sends_of_notWrite op h) answer log').trans hInv

/-! ## Writing the request -/

theorem backoff_notWrite (p : Package) (policy : ReconnectPolicy) (attempt : ℕ) (d : Deadline) :
    (p.transport.backoff policy attempt d).Leaves NetOp.NotWrite fun _ => True :=
  (p.backoff_waits policy attempt d).mono (fun _ => NetOp.Waiting.notWrite) fun _ _ => trivial

theorem notSends_of_plain (op : NetOp) (h : op.Plain) : op.NotSends frame :=
  not_sends_of_notWrite op h.notWrite

/-- A connect writes no frame but those of HELLO. -/
theorem only_connect (p : Package)
    (hhello : ∀ token m, Commands.hello token = .ok m → encodeFrame m.payload ≠ .ok frame) :
    p.transport.connect.Only (NetOp.NotSends frame) Exc.NotDelay := by
  refine p.only_connect notSends_of_plain fun token m sock data hm hdata => ?_
  have hne : data ≠ frame := fun he => hhello token m hm (hdata.trans (congrArg _ he))
  exact ⟨hne, hne⟩

/-- How writing the request ends: the flag is up after a write, and nothing was delivered when the
connection was lost. -/
def Wrote (frame : Bytes) (r : Except Exc Unit) (c : Connection) (log : List (Event Net)) : Prop :=
  (r = .ok () → c.requestInFlight = true) ∧
    ∀ fault, r = .error (.connectionError fault) → deliveries frame log = 0

theorem wrote_after_quiet {α : Type} {m : ConnM α} {f : α → ConnM Unit} (hm : Quiet m)
    {c : Connection} {log : List (Event Net)} (hlog : deliveries frame log = 0)
    (hf : ∀ a log', deliveries frame log' = 0 → wpm (onceOnly frame) (f a) (Wrote frame) c log') :
    wpm (onceOnly frame) (m >>= f) (Wrote frame) c log := by
  rw [wpm_bind]
  refine wpm_mono (once_of_leaves (notWrite_of_quiet hm) c log) ?_
  rintro (e | a) _ log' ⟨rfl, hlog'⟩
  · refine ⟨fun h => ?_, fun _ _ => hlog'.trans hlog⟩
    cases h
  · exact hf a log' (hlog'.trans hlog)

theorem wrote_not_lost {e : Exc} {c : Connection} {log : List (Event Net)}
    (h : ∀ fault, e ≠ .connectionError fault) : Wrote frame (.error e) c log := by
  refine ⟨fun h => ?_, fun fault he => absurd (Except.error.inj he) (h fault)⟩
  cases h

theorem wrote_ok {c : Connection} {log : List (Event Net)} (h : c.requestInFlight = true) :
    Wrote frame (.ok ()) c log := by
  refine ⟨fun _ => h, fun fault he => ?_⟩
  cases he

theorem once_writeRequest (p : Package) {command : Command} (d : Deadline)
    (hframe : encodeFrame command.payload = .ok frame) {c : Connection} {log : List (Event Net)}
    (hlog : deliveries frame log = 0) :
    wpm (onceOnly frame) (p.transport.writeRequest command d) (Wrote frame) c log := by
  -- a write that fails with another `OSError` delivers nothing
  have hfailed : ∀ {op : NetOp} (answer : op.Answer) (log' : List (Event Net)),
      deliveries frame log' = 0 → delivers frame ⟨op, answer⟩ = false →
      ∀ c, Wrote frame (.error (.connectionError .lostWhileSending)) c (log' ++ [⟨op, answer⟩]) := by
    intro op answer log' hlog' hno c
    refine ⟨fun h => ?_, fun _ _ => ?_⟩
    · cases h
    · rw [deliveries_concat, hlog', hno]
      rfl
  cases p with
  | sync =>
    refine wrote_after_quiet .self hlog fun c log hlog => ?_
    refine wrote_after_quiet
      (.ofExcept (notDelay_of_computed (raises_checkRequestSize _ _))) hlog fun _ log hlog => ?_
    refine wrote_after_quiet quiet_requireSocket hlog fun sock log hlog => ?_
    refine wrote_after_quiet (Sync.quiet_applyTimeout sock d) hlog fun _ log hlog => ?_
    rw [hframe]
    refine ⟨fun _ => hlog, ?_⟩
    rintro ((_ | _) | _) _ rfl
    · exact wrote_not_lost fun _ h => by cases h
    · exact hfailed _ log hlog (by simp [delivers]) _
    · exact wrote_ok rfl
  | aio =>
    refine wrote_after_quiet .self hlog fun c log hlog => ?_
    refine wrote_after_quiet
      (.ofExcept (notDelay_of_computed (raises_checkRequestSize _ _))) hlog fun _ log hlog => ?_
    refine wrote_after_quiet quiet_requireSocket hlog fun sock log hlog => ?_
    refine wrote_after_quiet (quiet_check d) hlog fun _ log hlog => ?_
    refine wrote_after_quiet (quiet_remaining d) hlog fun _ log hlog => ?_
    refine wrote_after_quiet (quiet_perform (by exact trivial)) hlog fun _ log hlog => ?_
    rw [hframe]
    refine ⟨fun _ => hlog, ?_⟩
    rintro ((_ | _ | _) | _) _ rfl
    · exact wrote_not_lost fun _ h => by cases h
    · exact hfailed _ log hlog (by simp [delivers]) _
    · exact wrote_not_lost fun _ h => by cases h
    · exact wrote_ok rfl

/-! ## One call -/

theorem once_send (p : Package) {command : Command}
    (hframe : encodeFrame command.payload = .ok frame) (d : Deadline) {c : Connection}
    {log : List (Event Net)}
    (hlog : deliveries frame log = 0) :
    wpm (onceOnly frame) (p.transport.send command d) (fun r c' log' =>
      ∀ fault, r = .error (.connectionError fault) →
        c'.requestInFlight = true ∨ deliveries frame log' = 0) c log := by
  unfold Transport.send
  rw [wpm_bind]
  refine wpm_mono (once_writeRequest p d hframe hlog) ?_
  rintro (e | _) c' log' ⟨hflag, hfault⟩
  · intro fault he
    exact Or.inr (hfault fault (congrArg Except.error (Except.error.inj he)))
  · rw [wpm_bind]
    refine wpm_mono (once_of_leaves (notWrite_of_quiet (p.quiet_readFrame d)) c' log') ?_
    rintro (e | response) _ _ ⟨rfl, -⟩
    · exact fun _ _ => Or.inl (hflag rfl)
    · intro fault he
      cases he

section Call
variable (p : Package) {command : Command} (hmutating : command.readOnly = false)
  (hframe : encodeFrame command.payload = .ok frame)
  (hhello : ∀ token m, Commands.hello token = .ok m → encodeFrame m.payload ≠ .ok frame)
include hmutating hframe hhello

theorem once_withRetry (policy : ReconnectPolicy) (d : Deadline) (rounds attempt : ℕ)
    {c : Connection} {log : List (Event Net)} (hlog : deliveries frame log = 0) :
    wpm (onceOnly frame)
      (p.transport.withRetry policy command d p.transport.send rounds attempt)
      (fun _ _ _ => True) c log := by
  induction rounds generalizing attempt c log with
  | zero => trivial
  | succ rounds ih =>
    unfold Transport.withRetry
    rw [wpm_bind, wpm_attempt]
    refine wpm_mono (once_send p hframe d hlog) ?_
    rintro (e | response) c' log' hsend
    · cases e with
      | connectionError fault =>
        simp only [Transport.retryFailed, wpm_bind, wpm_self, hmutating, Bool.false_eq_true,
          not_false_eq_true, and_true]
        by_cases hflag : c'.requestInFlight = true
        · rw [if_pos hflag]
          trivial
        -- the flag is down, so nothing of the request was delivered
        · have hlog' := (hsend fault rfl).resolve_left hflag
          rw [if_neg hflag]
          split
          · trivial
          rw [wpm_bind]
          refine wpm_mono (once_of_leaves (backoff_notWrite p policy _ d) c' log') ?_
          rintro (e | _) _ log₁ ⟨rfl, hlog₁⟩
          · trivial
          dsimp only [Transport.retryReconnect]
          rw [wpm_bind, wpm_attempt]
          have hreconnect : p.transport.reconnect.Only (NetOp.NotSends frame) Exc.NotDelay :=
            .bind (Package.only_closeConnection notSends_of_plain) fun _ => only_connect p hhello
          refine wpm_mono (once_of_only hreconnect _ log₁) ?_
          intro r c₂ log₂ hlog₂
          have hnone : deliveries frame log₂ = 0 := by omega
          rcases r with e | _
          · cases e with
            | connectionError fault => exact ih (attempt + 1) hnone
            | _ => trivial
          · exact ih (attempt + 1) hnone
      | _ => trivial
    · trivial

end Call

theorem once_execute {α : Type} (p : Package) (config : ClientConfig) (rounds : ℕ)
    {command : Command} (parse : Bytes → Except Exc α) (timeout : Timeout)
    (hmutating : command.readOnly = false) (hframe : encodeFrame command.payload = .ok frame)
    (hhello : ∀ token m, Commands.hello token = .ok m → encodeFrame m.payload ≠ .ok frame) :
    wpm (onceOnly frame) (p.transport.execute config rounds command parse timeout)
      (fun _ _ _ => True) () [] := by
  unfold Transport.execute Transport.request Transport.withConnection
  simp only [wpm_bind]
  refine wpm_mono (once_of_leaves (notWrite_of_quiet (quiet_start _)) () []) ?_
  rintro (e | d) _ log ⟨-, hlog⟩
  · trivial
  refine wpm_mono (once_of_only
    (p.only_acquire notSends_of_plain config.settings d (only_connect p hhello)) () log) ?_
  rintro (e | connection) _ log₁ hlog₁
  · trivial
  dsimp only
  rw [wpm_on]
  refine wpm_mono (once_withRetry p hmutating hframe hhello config.reconnect d rounds 0
    (hlog₁.trans hlog)) ?_
  intro r connection' log₂ _
  refine wpm_mono (once_of_only
    (Package.only_release notSends_of_plain connection') () log₂) ?_
  rintro (e | _) _ _ _
  · trivial
  · cases r <;> trivial

end Once

/-! ## Commands that are not HELLO -/

theorem readOnly_of_hello {token : Option Str} {m : Command} (h : Commands.hello token = .ok m) :
    m.readOnly = true := by
  rcases token with _ | _ | ⟨c, cs⟩ <;> exact (payload_of_readOnly h).2

theorem hello_frame_ne {call : Call} {command : Command} (hcall : call.encode = .ok command)
    (hmutating : command.readOnly = false) {frame : Bytes}
    (hframe : encodeFrame command.payload = .ok frame) (token : Option Str) (m : Command)
    (hm : Commands.hello token = .ok m) : encodeFrame m.payload ≠ .ok frame := by
  intro he
  obtain ⟨e, a⟩ := call
  have hpayload : m.payload = command.payload := encodeFrame_injective he hframe
  have hencoder : Encoder.hello = e :=
    @Encoder.eq_of_payload_eq .hello e token a m command hm hcall hpayload
  subst hencoder
  rw [readOnly_of_hello hcall] at hmutating
  cases hmutating

/-- In every run of one call of a mutating command, whatever connection the pool holds and whatever
the answers, at most one write can have handed the server its whole frame. -/
theorem mutating_command_delivered_at_most_once {α : Type} (p : Package) (config : ClientConfig)
    (rounds : ℕ) (call : Call) (command : Command) (parse : Bytes → Except Exc α)
    (timeout : Timeout) (frame : Bytes) (hcall : call.encode = .ok command)
    (hmutating : command.readOnly = false) (hframe : encodeFrame command.payload = .ok frame)
    {program : Prog Net (Except Exc α × Unit)} {log : List (Event Net)}
    (hrun : Reaches (record Net)
      (p.transport.execute config rounds command parse timeout (), []) (program, log)) :
    deliveries frame log ≤ 1 := by
  have hstep : ∀ (log : List (Event Net)) (op : NetOp) (answer : op.Answer)
      (log' : List (Event Net)), deliveries frame log ≤ 1 → (onceOnly frame).permits log op →
      (onceOnly frame).step log op answer log' → deliveries frame log' ≤ 1 := by
    rintro log op answer _ hle hpermits rfl
    by_cases hs : op.Sends frame
    · rw [deliveries_concat, hpermits hs]
      split <;> omega
    · rw [deliveries_of_not_sends hs]
      exact hle
  have hcontract := once_execute p config rounds parse timeout hmutating hframe
    (hello_frame_ne hcall hmutating hframe)
  exact reaches_invariant (fun log => deliveries frame log ≤ 1) hstep hcontract (Nat.zero_le 1)
    (reaches_guarded hrun)

/-- An INCR on a pooled connection that is lost after the write. -/
def lostIncr : List ((op : Net.Op) → Net.Ans op) :=
  [NetOp.calm, fun
    | .getSlot _ => some (some { Connection.pooled with requestInFlight := true })
    | op => NetOp.calm op] ++ List.replicate 6 NetOp.calm

theorem lost_incr_delivered_at_most_once :
    deliveries (beBytes 11 ++ Command.incrHit.payload)
      ((Sync.transport.execute ⟨Connection.pooled.settings, none, {}⟩ 3 .incrHit (fun _ => .ok ())
        .default ()).play lostIncr []).2 ≤ 1 :=
  mutating_command_delivered_at_most_once .sync _ 3 ⟨.incr, ⟨"hit".toList, 60⟩⟩ _ _ .default _
    (by decide) rfl (by decide) (reaches_play lostIncr _ [])

end FqClient
