import FqClient.CallDeadline

namespace FqClient.ExpiredDeadlines

open Effects CallDeadline

/-! ## The clock, and what times out -/

/-- The moment, the deadline of the call once it is set, and the moment at which the timeout in force
has passed; where the newest connection stands, how often its handshake read the clock and when that is
due; how many reconnects there were and whether the newest one stalled; and whether anything timed out
too early for the call, whose deadline had not expired. -/
structure Timed where
  now : ℚ
  due : Option ℚ := none
  limit : Option ℚ := none
  stage : Stage := .settled
  looks : ℕ := 0
  helloDue : ℚ := 0
  dials : ℕ := 0
  stalled : Bool := false
  overrun : Bool := false
  deriving DecidableEq

namespace Timed

variable (s : Timed)

/-- The deadline of the call has expired. -/
def late : Bool := s.due.any (· ≤ s.now)

/-- A connect or a handshake timed out. -/
def timedOut : Timed := { s with stalled := true, overrun := s.overrun || !s.late }

/-- An operation of the call timed out: before its timeout has passed, as `ETIMEDOUT` does, or then. -/
def overdue : Timed := { s with overrun := s.overrun || !(s.late || s.limit.any (· ≤ s.now)) }

def wrote : Timed := { s with stage := if s.stage = .opened then .greeting else .settled }

def opened : Timed :=
  { s with stage := .opened, looks := 0, dials := s.dials + 1, stalled := false }

/-- The first reading of a call with a timeout sets its deadline. -/
def dated (timeout : Option ℚ) : Timed := { s with due := s.due.or (timeout.map (s.now + ·)) }

/-- The first reading of a handshake sets its deadline, the second and the fourth check it. -/
def looked (settings : Settings) : Timed :=
  if s.stage = .settled then s
  else if s.looks = 0 then { s with looks := 1, helloDue := s.now + settings.connectTimeout }
  else if (s.looks = 1 ∨ s.looks = 3) ∧ s.helloDue ≤ s.now then
    ({ s with looks := s.looks + 1 }).timedOut
  else { s with looks := s.looks + 1 }

/-- After an operation that ended now. -/
def note (settings : Settings) (timeout : Option ℚ) : (op : NetOp) → op.Answer → Timed
  | .monotonic, _ => (s.dated timeout).looked settings
  | .enterTimeout delay, _ | .settimeout _ delay, .ok _ => { s with limit := delay.map (s.now + ·) }
  | .createConnection _ _ _, .ok _ | .openConnection _ _ _, .ok _ => s.opened
  | .createConnection _ _ _, .error fault =>
    { s with dials := s.dials + 1, stalled := fault = .timeout }
  | .openConnection _ _ _, .error fault =>
    if fault = .timeout then ({ s with dials := s.dials + 1 }).timedOut
    else { s with dials := s.dials + 1, stalled := false }
  | .wrapSocket _ _, .error fault => { s with stalled := fault = .timeout }
  | .sendall _ _, .error .timeout | .writeDrain _ _, .error .timeout =>
    if s.stage = .opened then s.wrote.timedOut else s.wrote.overdue
  | .sendall _ _, _ | .writeDrain _ _, _ => s.wrote
  | .recv _ _, .error .timeout | .readexactly _ _, .error .timeout =>
    if s.stage = .greeting then s.timedOut else s.overdue
  | .closeSocket _, _ => { s with stage := .settled }
  | _, _ => s

end Timed

/-- An operation that waits for nothing. -/
def Instant : NetOp → Prop
  | .random | .settimeout _ _ | .enterTimeout _ | .closeSocket _ | .poolClosed | .putSlot _ => True
  | _ => False

/-- The clock reads the moment, and the pool gives open connections. -/
def Fits (settings : Settings) (now : ℚ) : (op : NetOp) → op.Answer → Prop
  | .monotonic, answer => answer = now
  | .getSlot _, answer =>
    ∃ c : Connection, answer = some (some c) ∧ c.settings = settings ∧ c.sock.isSome
  | .awaitSlot, answer =>
    ∃ c : Connection, answer = .ok (some c) ∧ c.settings = settings ∧ c.sock.isSome
  | _, _ => True

/-- A clock that never goes back, and any outcomes. -/
def timing (settings : Settings) (timeout : Option ℚ) : World Net Timed where
  permits _ _ := True
  step s op answer s' := ∃ now, s.now ≤ now ∧ (Instant op → now = s.now) ∧ Fits settings now op answer ∧
    s' = ({ s with now := now } : Timed).note settings timeout op answer

/-- The deadline of the call has expired. -/
def Expired (s : Timed) : Prop := ∃ due, s.due = some due ∧ due ≤ s.now

theorem late_iff (s : Timed) : s.late = true ↔ Expired s := by
  unfold Timed.late Expired
  rw [Option.any_eq_true]
  constructor
  · intro ⟨due, hdue, hle⟩
    exact ⟨due, hdue, of_decide_eq_true hle⟩
  · intro ⟨due, hdue, hle⟩
    exact ⟨due, hdue, decide_eq_true hle⟩

/-- An `FQTimeoutError` means that the deadline of the call has expired; and when the newest reconnect
stalled, the call does not end with a lost connection while the deadline and the budget allow another
attempt. -/
def MeansExpired {α : Type} (policy : ReconnectPolicy) (r : Except Exc α) (s : Timed) : Prop :=
  (∀ e, r = .error e → e.isTimeout = true → Expired s) ∧
    (s.stalled = true → ¬ Expired s → policy.exhausted (s.dials + 1) = false →
      ∀ e, r = .error e → e.isConnectionError = false)

section Ending
variable {α : Type} {policy : ReconnectPolicy} {r : Except Exc α} {s : Timed}

/-- How an `FQTimeoutError` leaves the clock. -/
def TimedOut (s : Timed) : Prop := s.overrun = false ↔ Expired s

theorem timedOut_timedOut (hs : s.overrun = false) : TimedOut s.timedOut := by
  have hexpired : Expired s.timedOut ↔ Expired s := Iff.rfl
  unfold TimedOut
  rw [hexpired, ← late_iff]
  change (s.overrun || !s.late) = false ↔ _
  rw [hs, Bool.false_or, Bool.not_eq_false']

/-- A timeout of the call's own that has passed means that its deadline has expired. -/
theorem timedOut_overdue (hs : s.overrun = false) (hlimit : s.limit = s.due) : TimedOut s.overdue := by
  have hexpired : Expired s.overdue ↔ Expired s := Iff.rfl
  unfold TimedOut
  rw [hexpired, ← late_iff]
  change (s.overrun || !(s.late || s.limit.any (· ≤ s.now))) = false ↔ _
  have hlate : s.limit.any (· ≤ s.now) = s.late := by
    rw [hlimit]
    rfl
  rw [hs, hlate, Bool.or_self, Bool.false_or, Bool.not_eq_false']

theorem means_of_timedOut {site : TimeoutSite} (hs : TimedOut s) :
    MeansExpired policy (.error (.timeoutError site) : Except Exc α) s ↔ s.overrun = false := by
  constructor
  · intro h
    exact hs.mpr (h.1 _ rfl rfl)
  · intro h
    have hexpired : Expired s := hs.mp h
    exact ⟨fun _ _ _ => hexpired, fun _ hnot => absurd hexpired hnot⟩

theorem means_of_other (hs : s.overrun = false) (hr : ∀ e, r = .error e → e.isTimeout = false)
    (hstalled : s.stalled = true → policy.exhausted (s.dials + 1) = false →
      ∀ e, r = .error e → e.isConnectionError = false) :
        MeansExpired policy r s ↔ s.overrun = false := by
  refine iff_of_true ⟨fun e he htimeout => ?_, fun h _ => hstalled h⟩ hs
  rw [hr e he] at htimeout
  cases htimeout

end Ending

/-! ## What the parts of a call do -/

/-- A call with deadline `d` after so many reconnects, none of which timed out too early. -/
structure Goes (timeout : Option ℚ) (d : Deadline) (n : ℕ) (s : Timed) : Prop where
  due : s.due = d.deadline
  dated : s.due = none → timeout = none
  overrun : s.overrun = false
  dials : s.dials = n

/-- The newest connection is in use, unless there is none. -/
def Usable (s : Timed) : Prop := s.stage = .settled ∨ s.stage = .greeting ∧ 5 ≤ s.looks

section Parts
variable {settings : Settings} {timeout : Option ℚ} {d : Deadline} {n : ℕ}
  {c : Connection} {s s' : Timed}
  {now : ℚ} {sock : SockId}

theorem Goes.later (hs : Goes timeout d n s) (now : ℚ) : Goes timeout d n { s with now := now } :=
  ⟨hs.due, hs.dated, hs.overrun, hs.dials⟩

theorem Goes.dated_eq (hs : Goes timeout d n s) : s.dated timeout = s := by
  unfold Timed.dated
  cases hdue : s.due with
  | some due =>
    rw [Option.some_or, ← hdue]
  | none =>
    rw [hs.dated hdue, Option.map_none, Option.none_or, ← hdue]

theorem Usable.looked (hs : Usable s) (settings : Settings) :
    ∃ looks, s.looked settings = { s with looks := looks } ∧
    Usable { s with looks := looks } := by
  unfold Timed.looked
  rcases hs with hstage | ⟨hstage, hlooks⟩
  · exact ⟨s.looks, if_pos hstage, Or.inl hstage⟩
  · refine ⟨s.looks + 1, ?_, Or.inr ⟨hstage, Nat.le_succ_of_le hlooks⟩⟩
    rw [if_neg (by rw [hstage]; decide), if_neg (by omega), if_neg (by omega)]

/-- A reading of the clock by the call, on a connection in use. -/
structure Read (timeout : Option ℚ) (d : Deadline) (n : ℕ) (s : Timed) (now : ℚ)
    (s' : Timed) : Prop where
  goes : Goes timeout d n s'
  usable : Usable s'
  now : s'.now = now
  stage : s'.stage = s.stage
  stalled : s'.stalled = s.stalled

theorem read_monotonic (hs : Goes timeout d n s) (husable : Usable s) {now : ℚ}
    (h : (timing settings timeout).step s .monotonic now s') : Read timeout d n s now s' := by
  obtain ⟨_, -, -, hfits, hs'⟩ := h
  subst hfits
  replace hs' : s' = (({ s with now := now } : Timed).dated timeout).looked settings := hs'
  rw [(hs.later now).dated_eq] at hs'
  have hlater : Usable { s with now := now } := husable
  obtain ⟨looks, hlooked, husable'⟩ := hlater.looked settings
  rw [hs', hlooked]
  exact ⟨⟨hs.due, hs.dated, hs.overrun, hs.dials⟩, husable', rfl, rfl, rfl⟩

/-- The deadline of the call is checked. -/
theorem wpm_check {κ : Type} {k : κ} (hs : Goes timeout d n s) (husable : Usable s) :
    wpm (timing settings timeout) (d.check : Method Net κ Exc Unit) (fun r k' s' => k' = k ∧
      Goes timeout d n s' ∧ Usable s' ∧ s'.stalled = s.stalled ∧ ∀ e, r = .error e →
        e = .timeoutError .deadlineExceeded ∧ Expired s') k s := by
  obtain ⟨_ | due⟩ := d
  · exact ⟨rfl, hs, husable, rfl, fun _ h => by cases h⟩
  · apply wpm_check_due
    refine ⟨trivial, fun now s₁ h => ?_⟩
    have hread := read_monotonic hs husable h
    split
    next hdue =>
      refine ⟨rfl, hread.goes, hread.usable, hread.stalled, fun e he => ?_⟩
      cases he
      exact ⟨rfl, due, hread.goes.due, by rw [hread.now]; exact hdue⟩
    next => exact ⟨rfl, hread.goes, hread.usable, hread.stalled, fun _ h => by cases h⟩

/-- Setting a limit waits for nothing. -/
theorem wpm_setLimit (p : Package) (remaining : Option ℚ) :
    wpm (timing settings timeout) (p.setLimit sock remaining) (fun r c' s' => c' = c ∧ match r with
      | .ok _ => s' = { s with limit := remaining.map (s.now + ·) }
      | .error e => e.isTimeout = false ∧ s' = s) c s := by
  cases p with
  | aio =>
    refine ⟨trivial, fun a s' ⟨now, _, hnow, _, hs'⟩ => ⟨rfl, ?_⟩⟩
    rw [hs', hnow trivial]
    rfl
  | sync =>
    change wpm _ (if remaining.any (· < 0) = true then throw Exc.valueError else _) _ c s
    rw [wpm_ite]
    split
    · exact ⟨rfl, rfl, rfl⟩
    · rw [wpm_bind, wpm_perform_op]
      refine ⟨trivial, fun a s' ⟨now, _, hnow, _, hs'⟩ => ?_⟩
      rw [hnow trivial] at hs'
      cases a with
      | ok _ => exact ⟨rfl, hs'⟩
      | error fault => cases fault <;> exact ⟨rfl, rfl, hs'⟩

/-- How setting the limit of the call ends: it is the deadline, or that has expired when it times out. -/
structure Armed (timeout : Option ℚ) (d : Deadline) (n : ℕ) (s : Timed)
    (r : Except Exc Unit) (s' : Timed) :
    Prop where
  goes : Goes timeout d n s'
  usable : Usable s'
  stage : s'.stage = s.stage
  stalled : s'.stalled = s.stalled
  limit : r = .ok () → s'.limit = s'.due
  expired : ∀ e, r = .error e → e.isTimeout = true → Expired s'

theorem wpm_arm (p : Package) (hs : Goes timeout d n s) (husable : Usable s) :
    wpm (timing settings timeout) (p.arm sock d)
      (fun r c' s' => c' = c ∧ Armed timeout d n s r s') c s := by
  have hset : ∀ {remaining : Option ℚ} {s₁ : Timed}, Goes timeout d n s₁ → Usable s₁ →
    s₁.stage = s.stage →
      s₁.stalled = s.stalled → remaining.map (s₁.now + ·) = s₁.due →
      wpm (timing settings timeout) (p.setLimit sock remaining)
        (fun r c' s' => c' = c ∧ Armed timeout d n s r s') c s₁ := by
    intro remaining s₁ hs₁ husable₁ hstage₁ hstalled₁ hlimit
    refine wpm_mono (wpm_setLimit p remaining) ?_
    intro r c' s' ⟨hc', hr⟩
    refine ⟨hc', ?_⟩
    cases r with
    | ok _ =>
      rw [show s' = _ from hr, hlimit]
      exact ⟨⟨hs₁.due, hs₁.dated, hs₁.overrun, hs₁.dials⟩, husable₁, hstage₁, hstalled₁, fun _ => rfl,
        fun _ h => by cases h⟩
    | error e =>
      rw [hr.2]
      refine ⟨hs₁, husable₁, hstage₁, hstalled₁, fun h => (by cases h), fun e' he' htimeout => ?_⟩
      cases he'
      rw [hr.1] at htimeout
      cases htimeout
  obtain ⟨_ | due⟩ := d
  · exact wpm_arm_unlimited p (hset hs husable rfl rfl hs.due.symm)
  · apply wpm_arm_due p due
    refine ⟨trivial, fun now s₁ h₁ => ?_⟩
    have hread₁ := read_monotonic hs husable h₁
    split
    next hdue =>
      refine ⟨rfl, hread₁.goes, hread₁.usable, hread₁.stage, hread₁.stalled, fun h => (by cases h),
        fun _ _ _ => ⟨due, hread₁.goes.due, ?_⟩⟩
      rw [hread₁.now]
      exact hdue
    next =>
      refine ⟨trivial, fun now₁ s₂ h₂ => ?_⟩
      have hread₂ := read_monotonic hread₁.goes hread₁.usable h₂
      apply hset hread₂.goes hread₂.usable (hread₂.stage.trans hread₁.stage)
        (hread₂.stalled.trans hread₁.stalled)
      rw [hread₂.now, hread₂.goes.due, Option.map_some, add_sub_cancel]

/-- How a part of a call ends: with an `FQTimeoutError`, or going on. -/
def Ran {α : Type} (timeout : Option ℚ) (d : Deadline) (n : ℕ) (stalled : Bool) :
    Except Exc α → Timed → Prop
  | .error (.timeoutError _), s' => TimedOut s'
  | _, s' => Goes timeout d n s' ∧ Usable s' ∧ s'.stalled = stalled

theorem ran_of {α : Type} {r : Except Exc α} (hs : Goes timeout d n s') (husable : Usable s')
    (hstalled : s'.stalled = s.stalled) (hr : ∀ e, r = .error e → e.isTimeout = true → Expired s') :
    Ran timeout d n s.stalled r s' := by
  cases r with
  | ok a => exact ⟨hs, husable, hstalled⟩
  | error e =>
    cases e with
    | timeoutError site => exact iff_of_true hs.overrun (hr _ rfl rfl)
    | _ => exact ⟨hs, husable, hstalled⟩

theorem ran_error {α β : Type} {e : Exc} (h : Ran timeout d n s.stalled (.error e : Except Exc α) s') :
    Ran timeout d n s.stalled (.error e : Except Exc β) s' := by
  cases e <;> exact h

theorem Armed.ran {e : Exc} {α : Type} (h : Armed timeout d n s (.error e) s') :
    Ran timeout d n s.stalled (.error e : Except Exc α) s' :=
  ran_error (ran_of h.goes h.usable h.stalled h.expired)

/-- A write that fails by its timeout, or is only noted. -/
theorem step_writeOp (p : Package) {frame : Bytes} {a : (p.writeOp sock frame).Answer}
    (h : (timing settings timeout).step s (p.writeOp sock frame) a s') : ∃ now, match p.wrote a with
      | .error (.timeoutError _) =>
        s' = if s.stage = .opened then ({ s with now := now } : Timed).wrote.timedOut
          else ({ s with now := now } : Timed).wrote.overdue
      | _ => s' = ({ s with now := now } : Timed).wrote := by
  obtain ⟨now, -, -, -, hs'⟩ := h
  refine ⟨now, ?_⟩
  cases p with
  | sync =>
    match a, hs' with
    | .ok _, hs' => exact hs'
    | .error .timeout, hs' => exact hs'
    | .error .other, hs' => exact hs'
  | aio =>
    match a, hs' with
    | .ok _, hs' => exact hs'
    | .error .timeout, hs' => exact hs'
    | .error .other, hs' => exact hs'
    | .error .cancelled, hs' => exact hs'

/-- The frame of the request. -/
theorem ran_write (p : Package) (hs : Goes timeout d n s) (husable : Usable s)
    (hlimit : s.limit = s.due)
    {frame : Bytes} {a : (p.writeOp sock frame).Answer}
    (h : (timing settings timeout).step s (p.writeOp sock frame) a s') :
    Ran timeout d n s.stalled (p.wrote a) s' ∧ (p.wrote a = .ok () → s'.stage = .settled) := by
  have hstage : s.stage ≠ .opened := by
    rcases husable with h | h
    · rw [h]
      decide
    · rw [h.1]
      decide
  obtain ⟨now, hwrite⟩ := step_writeOp p h
  have hwrote : ({ s with now := now } : Timed).wrote.stage = .settled := if_neg hstage
  have hgoes : Goes timeout d n ({ s with now := now } : Timed).wrote :=
    ⟨hs.due, hs.dated, hs.overrun, hs.dials⟩
  cases hr : p.wrote a with
  | ok _ =>
    rw [hr] at hwrite
    rw [show s' = _ from hwrite]
    exact ⟨⟨hgoes, Or.inl hwrote, rfl⟩, fun _ => hwrote⟩
  | error e =>
    rw [hr] at hwrite
    refine ⟨?_, fun h => by cases h⟩
    cases e with
    | timeoutError site =>
      replace hwrite : s' = ({ s with now := now } : Timed).wrote.overdue :=
        hwrite.trans (if_neg hstage)
      rw [hwrite]
      exact timedOut_overdue hs.overrun hlimit
    | _ =>
      rw [show s' = _ from hwrite]
      exact ⟨hgoes, Or.inl hwrote, rfl⟩

/-- A read that fails by its timeout, or leaves all but the moment alone. -/
theorem step_readOp (p : Package) {asked : ℕ} {a : (p.readOp sock asked).Answer}
    (h : (timing settings timeout).step s (p.readOp sock asked) a s') : ∃ now, match p.readFault a with
      | some (.timeoutError _) =>
        s' = if s.stage = .greeting then ({ s with now := now } : Timed).timedOut
          else ({ s with now := now } : Timed).overdue
      | _ => s' = { s with now := now } := by
  obtain ⟨now, -, -, -, hs'⟩ := h
  refine ⟨now, ?_⟩
  cases p with
  | sync =>
    match a, hs' with
    | .error .timeout, hs' => exact hs'
    | .error .other, hs' => exact hs'
    | .ok chunk, hs' =>
      change match (if chunk.1 = [] then some (Exc.connectionError .closedByServer) else none) with
        | some (.timeoutError _) => _
        | _ => _
      split
      next site heq =>
        split at heq
        · cases heq
        · cases heq
      next => exact hs'
  | aio =>
    match a, hs' with
    | .ok data, hs' => exact hs'
    | .error .timeout, hs' => exact hs'
    | .error .incomplete, hs' => exact hs'
    | .error .other, hs' => exact hs'
    | .error .cancelled, hs' => exact hs'

theorem wpm_readFrame (p : Package) (hs : Goes timeout d n s) (hstage : s.stage = .settled) :
    wpm (timing settings timeout) (p.transport.readFrame d) (fun r c' s' => c' = c ∧
      Ran timeout d n s.stalled r s') c s := by
  apply wpm_readFrame_of p
  · exact fun _ => ⟨rfl, hs, Or.inl hstage, rfl⟩
  · intro sock _
    refine wpm_mono (wpm_arm p hs (Or.inl hstage)) ?_
    intro r c₁ s₁ ⟨hc₁, harmed⟩
    rw [hc₁]
    cases r with
    | error e => exact ⟨rfl, harmed.ran⟩
    | ok _ =>
      refine wpm_mono (wpm_receive_of (J := fun s' => Goes timeout d n s' ∧ s'.stage = .settled ∧
        s'.stalled = s.stalled ∧ s'.limit = s'.due) (K := fun e s' => Ran timeout d n s.stalled
          (.error e : Except Exc Bytes) s') p ?_ ?_ ?_) ?_
      · intro asked s₂ ⟨hs₂, hstage₂, hstalled₂, hlimit₂⟩
        refine ⟨trivial, fun a s₃ h => ?_⟩
        obtain ⟨now, hread⟩ := step_readOp p h
        have hgoes : Goes timeout d n { s₂ with now := now } := hs₂.later now
        cases hfault : p.readFault a with
        | none =>
          rw [hfault] at hread
          rw [show s₃ = _ from hread]
          exact ⟨hgoes, hstage₂, hstalled₂, hlimit₂⟩
        | some e =>
          rw [hfault] at hread
          cases e with
          | timeoutError site =>
            replace hread : s₃ = ({ s₂ with now := now } : Timed).overdue :=
              hread.trans (if_neg (by rw [hstage₂]; decide))
            rw [hread]
            exact timedOut_overdue hs₂.overrun hlimit₂
          | _ =>
            rw [show s₃ = _ from hread]
            exact ⟨hgoes, Or.inl hstage₂, hstalled₂⟩
      · exact fun what s₂ ⟨hs₂, hstage₂, hstalled₂, _⟩ => ⟨hs₂, Or.inl hstage₂, hstalled₂⟩
      · exact ⟨harmed.goes, harmed.stage.trans hstage, harmed.stalled, harmed.limit rfl⟩
      · intro r c₂ s₂ ⟨hc₂, hr⟩
        refine ⟨hc₂, ?_⟩
        cases r with
        | ok frame => exact ⟨hr.1, Or.inl hr.2.1, hr.2.2.1⟩
        | error e => exact hr

/-- An attempt of the call; on a closed connection nothing happens. -/
theorem wpm_send (p : Package) (command : Command) (hs : Goes timeout d n s) (husable : Usable s) :
    wpm (timing settings timeout) (p.transport.send command d)
      (fun r c' s' => Ran timeout d n s.stalled r s' ∧
      c'.settings = c.settings ∧ (c.sock = none → c' = c)) c s := by
  apply wpm_send_of
  apply wpm_writeRequest_of p
  · exact fun _ => ⟨⟨hs, husable, rfl⟩, rfl, fun _ => rfl⟩
  · exact fun _ _ => ⟨⟨hs, husable, rfl⟩, rfl, fun _ => rfl⟩
  · intro sock _ hsock
    have hopen : ∀ {c' : Connection}, c.sock = none → c' = c := fun h => by
      rw [h] at hsock
      cases hsock
    refine wpm_mono (wpm_arm p hs husable) ?_
    intro r c₁ s₁ ⟨hc₁, harmed⟩
    rw [hc₁]
    cases r with
    | error e => exact ⟨harmed.ran, rfl, hopen⟩
    | ok _ =>
      refine ⟨⟨⟨harmed.goes, harmed.usable, harmed.stalled⟩, rfl, hopen⟩, fun frame => ⟨trivial, ?_⟩⟩
      intro a s₂ h
      obtain ⟨hwrote, hsettled⟩ := ran_write p harmed.goes harmed.usable (harmed.limit rfl) h
      rw [harmed.stalled] at hwrote
      cases hr : p.wrote a with
      | error e =>
        rw [hr] at hwrote
        exact ⟨ran_error hwrote, c.settings_noteWrite _, hopen⟩
      | ok _ =>
        rw [hr] at hwrote
        obtain ⟨hs₂, _, hstalled₂⟩ := hwrote
        refine wpm_mono (wpm_readFrame p hs₂ (hsettled hr)) ?_
        intro r c₃ s₃ ⟨hc₃, hr₃⟩
        rw [hc₃]
        rw [hstalled₂] at hr₃
        cases r with
        | error e => exact ⟨hr₃, c.settings_noteWrite _, hopen⟩
        | ok frame => exact ⟨hr₃, c.settings_noteWrite _, hopen⟩

end Parts

/-! ## Reconnects -/

/-- A handshake that has read the clock so often, and is due at some moment. -/
structure Greets (timeout : Option ℚ) (d : Deadline) (n : ℕ) (looks : ℕ) (stage : Stage) (due : ℚ)
    (s : Timed) : Prop where
  goes : Goes timeout d n s
  looks : s.looks = looks
  stage : s.stage = stage
  helloDue : s.helloDue = due
  stalled : s.stalled = false

/-- How a part of a handshake ends. -/
def Shook {α : Type} (timeout : Option ℚ) (d : Deadline) (n : ℕ) : Except Exc α → Timed → Prop
  | .error (.timeoutError _), s => TimedOut s
  | _, s => Goes timeout d n s ∧ s.stalled = false

/-- An `FQTimeoutError` or another error ends the call, unless the connection was lost. -/
def Ended : Exc → Timed → Prop
  | .timeoutError _, s => TimedOut s
  | _, s => s.overrun = false

section Reconnect
variable {settings : Settings} {timeout : Option ℚ} {d : Deadline} {n : ℕ}
  {c : Connection} {s s' : Timed}
  {now due : ℚ} {sock : SockId} {stage : Stage} {looks : ℕ}

theorem shook_of_computed {α : Type} {e : Exc} (he : e.Computed) (hs : Goes timeout d n s)
    (hstalled : s.stalled = false) : Shook timeout d n (.error e : Except Exc α) s := by
  cases e with
  | timeoutError site => exact he.elim
  | _ => exact ⟨hs, hstalled⟩

theorem shook_error {α β : Type} {e : Exc} (h : Shook timeout d n (.error e : Except Exc α) s) :
    Shook timeout d n (.error e : Except Exc β) s := by
  cases e <;> exact h

theorem ended_of_computed {e : Exc} (he : e.Computed) (hs : s.overrun = false) : Ended e s := by
  cases e with
  | timeoutError site => exact he.elim
  | _ => exact hs

/-- The first reading of a handshake sets its deadline. -/
theorem Greets.dated (hs : Greets timeout d n 0 .opened due s)
    (h : (timing settings timeout).step s .monotonic now s') :
    Greets timeout d n 1 .opened (now + settings.connectTimeout) s' := by
  obtain ⟨_, -, -, hfits, hs'⟩ := h
  subst hfits
  replace hs' : s' = (({ s with now := now } : Timed).dated timeout).looked settings := hs'
  rw [(hs.goes.later now).dated_eq] at hs'
  unfold Timed.looked at hs'
  rw [if_neg (by rw [hs.stage]; decide), if_pos hs.looks] at hs'
  rw [hs']
  exact ⟨⟨hs.goes.due, hs.goes.dated, hs.goes.overrun, hs.goes.dials⟩, rfl, hs.stage, rfl, hs.stalled⟩

/-- Its second and its fourth check that. -/
theorem Greets.look (hs : Greets timeout d n looks stage due s) (hstage : stage ≠ .settled)
    (hlooks : looks ≠ 0) (h : (timing settings timeout).step s .monotonic now s') :
    if (looks = 1 ∨ looks = 3) ∧ due ≤ now then TimedOut s'
    else Greets timeout d n (looks + 1) stage due s' := by
  obtain ⟨_, -, -, hfits, hs'⟩ := h
  subst hfits
  replace hs' : s' = (({ s with now := now } : Timed).dated timeout).looked settings := hs'
  rw [(hs.goes.later now).dated_eq] at hs'
  unfold Timed.looked at hs'
  rw [if_neg (by rw [hs.stage]; exact hstage), if_neg (by rw [hs.looks]; exact hlooks)] at hs'
  dsimp only at hs'
  rw [hs.looks, hs.helloDue] at hs'
  split
  next hlate =>
    rw [if_pos hlate] at hs'
    rw [hs']
    exact timedOut_timedOut hs.goes.overrun
  next hearly =>
    rw [if_neg hearly] at hs'
    rw [hs']
    exact ⟨⟨hs.goes.due, hs.goes.dated, hs.goes.overrun, hs.goes.dials⟩, rfl, hs.stage, rfl,
      hs.stalled⟩

theorem Greets.shook {α : Type} {r : Except Exc α} (hs : Greets timeout d n looks stage due s)
    (hr : ∀ e, r = .error e → e.isTimeout = false) : Shook timeout d n r s := by
  cases r with
  | ok a => exact ⟨hs.goes, hs.stalled⟩
  | error e =>
    cases e with
    | timeoutError site => cases hr _ rfl
    | _ => exact ⟨hs.goes, hs.stalled⟩

/-- The limit of a part of a handshake. -/
theorem wpm_greet (p : Package) (hs : Greets timeout d n looks stage due s) (hstage : stage ≠ .settled)
    (hlooks : looks = 1 ∨ looks = 3) :
    wpm (timing settings timeout) (p.arm sock ⟨some due⟩) (fun r c' s' => c' = c ∧ match r with
      | .ok _ => Greets timeout d n (looks + 2) stage due s'
      | .error e => Shook timeout d n (.error e : Except Exc Unit) s') c s := by
  apply wpm_arm_due p due
  refine ⟨trivial, fun now s₁ h₁ => ?_⟩
  have hlook₁ := hs.look hstage (by omega) h₁
  split
  next hdue =>
    rw [if_pos ⟨hlooks, hdue⟩] at hlook₁
    exact ⟨rfl, hlook₁⟩
  next hdue =>
    rw [if_neg fun h => hdue h.2] at hlook₁
    refine ⟨trivial, fun now₁ s₂ h₂ => ?_⟩
    have hlook₂ := hlook₁.look hstage (Nat.succ_ne_zero _) h₂
    rw [if_neg (by omega)] at hlook₂
    refine wpm_mono (wpm_setLimit p _) ?_
    intro r c' s' ⟨hc', hr⟩
    refine ⟨hc', ?_⟩
    cases r with
    | ok _ =>
      rw [show s' = _ from hr]
      exact ⟨⟨hlook₂.goes.due, hlook₂.goes.dated, hlook₂.goes.overrun, hlook₂.goes.dials⟩, hlook₂.looks,
        hlook₂.stage, hlook₂.helloDue, hlook₂.stalled⟩
    | error e =>
      rw [hr.2]
      exact hlook₂.shook fun e' he' => by rw [← hr.1]; cases he'; rfl

/-- HELLO, and its answer. -/
theorem wpm_hello (p : Package) (command : Command) (hs : Greets timeout d n 1 .opened due s) :
    wpm (timing settings timeout) (p.transport.send command ⟨some due⟩) (fun r c' s' =>
      (c'.settings = c.settings ∧ c'.sock = c.sock) ∧ Shook timeout d n r s' ∧
        (∀ frame, r = .ok frame → Usable s')) c s := by
  have hfailed : ∀ {e : Exc} {c' : Connection} {s' : Timed}, c'.settings = c.settings ∧
    c'.sock = c.sock →
      Shook timeout d n (.error e : Except Exc Bytes) s' →
        (c'.settings = c.settings ∧ c'.sock = c.sock) ∧
        Shook timeout d n (.error e : Except Exc Bytes) s' ∧
        ∀ frame, (.error e : Except Exc Bytes) = .ok frame → Usable s' :=
    fun hc hs => ⟨hc, hs, fun _ h => by cases h⟩
  apply wpm_send_of
  apply wpm_writeRequest_of p
  · exact fun _ => hfailed ⟨rfl, rfl⟩ (hs.shook fun e he => by cases he; rfl)
  · exact fun _ _ => hfailed ⟨rfl, rfl⟩ (hs.shook fun e he => by cases he; rfl)
  · intro sock _ _
    refine wpm_mono (wpm_greet p hs (by decide) (Or.inl rfl)) ?_
    intro r c₁ s₁ ⟨hc₁, hr₁⟩
    rw [hc₁]
    cases r with
    | error e => exact hfailed ⟨rfl, rfl⟩ (shook_error hr₁)
    | ok _ =>
      refine ⟨hfailed ⟨rfl, rfl⟩ (hr₁.shook fun e he => by cases he; rfl), fun frame => ⟨trivial, ?_⟩⟩
      intro a s₂ h₂
      obtain ⟨now, hwrite⟩ := step_writeOp p h₂
      -- the write may block, so the clock has moved when it ends
      have hwrote : Greets timeout d n 3 .greeting due ({ s₁ with now := now } : Timed).wrote :=
        ⟨⟨hr₁.goes.due, hr₁.goes.dated, hr₁.goes.overrun, hr₁.goes.dials⟩, hr₁.looks, if_pos hr₁.stage,
          hr₁.helloDue, hr₁.stalled⟩
      cases hr : p.wrote a with
      | error e =>
        rw [hr] at hwrite
        refine hfailed ⟨c.settings_noteWrite _, c.sock_noteWrite _⟩ ?_
        cases e with
        | timeoutError site =>
          replace hwrite : s₂ = ({ s₁ with now := now } : Timed).wrote.timedOut :=
            hwrite.trans (if_pos hr₁.stage)
          rw [hwrite]
          exact timedOut_timedOut hr₁.goes.overrun
        | _ =>
          rw [show s₂ = _ from hwrite]
          exact ⟨hwrote.goes, hwrote.stalled⟩
      | ok _ =>
        rw [hr] at hwrite
        rw [show s₂ = _ from hwrite]
        apply wpm_readFrame_of p
        · exact fun _ => hfailed ⟨c.settings_noteWrite _, c.sock_noteWrite _⟩
            (hwrote.shook fun e he => by cases he; rfl)
        · intro sock' _
          refine wpm_mono (wpm_greet p hwrote (by decide) (Or.inr rfl)) ?_
          intro r c₃ s₃ ⟨hc₃, hr₃⟩
          rw [hc₃]
          cases r with
          | error e => exact hfailed ⟨c.settings_noteWrite _, c.sock_noteWrite _⟩ (shook_error hr₃)
          | ok _ =>
            refine wpm_mono (wpm_receive_of (J := Greets timeout d n 5 .greeting due)
              (K := fun e s' => Shook timeout d n (.error e : Except Exc Bytes) s') p ?_ ?_ hr₃) ?_
            · intro asked s₄ hs₄
              refine ⟨trivial, fun a s₅ h₅ => ?_⟩
              obtain ⟨now₅, hread⟩ := step_readOp p h₅
              have hlater : Greets timeout d n 5 .greeting due { s₄ with now := now₅ } :=
                ⟨hs₄.goes.later now₅, hs₄.looks, hs₄.stage, hs₄.helloDue, hs₄.stalled⟩
              cases hfault : p.readFault a with
              | none =>
                rw [hfault] at hread
                rw [show s₅ = _ from hread]
                exact hlater
              | some e =>
                rw [hfault] at hread
                cases e with
                | timeoutError site =>
                  replace hread : s₅ = ({ s₄ with now := now₅ } : Timed).timedOut :=
                    hread.trans (if_pos hs₄.stage)
                  rw [hread]
                  exact timedOut_timedOut hs₄.goes.overrun
                | _ =>
                  rw [show s₅ = _ from hread]
                  exact ⟨hlater.goes, hlater.stalled⟩
            · exact fun _ s₄ hs₄ => ⟨hs₄.goes, hs₄.stalled⟩
            · intro r c₄ s₄ ⟨hc₄, hr₄⟩
              rw [hc₄]
              cases r with
              | error e => exact hfailed ⟨c.settings_noteWrite _, c.sock_noteWrite _⟩ hr₄
              | ok frame =>
                refine ⟨⟨c.settings_noteWrite _, c.sock_noteWrite _⟩,
                  ⟨hr₄.goes, hr₄.stalled⟩, fun _ _ => ?_⟩
                exact Or.inr ⟨hr₄.stage, le_of_eq hr₄.looks.symm⟩

theorem wpm_handshake (p : Package) (hsettings : c.settings = settings)
    (hs : Greets timeout d n 0 .opened due s) :
    wpm (timing settings timeout) p.transport.handshake (fun r c' s' => c'.settings = settings ∧
      c'.sock = c.sock ∧ Shook timeout d n r s' ∧ (r = .ok () → Usable s')) c s := by
  apply wpm_handshake_of
  · intro e he
    exact ⟨hsettings, rfl, shook_of_computed (raises_hello _ e he) hs.goes hs.stalled,
      fun h => by cases h⟩
  · intro command _
    refine ⟨trivial, fun now s₁ h₁ => ?_⟩
    rw [hsettings]
    refine wpm_mono (wpm_hello p command (hs.dated h₁)) ?_
    intro r c₂ s₂ hpost
    obtain ⟨⟨hc₂, hsock₂⟩, hshook, husable⟩ := hpost
    rw [hsettings] at hc₂
    cases r with
    | error e =>
      exact ⟨hc₂, hsock₂, shook_error hshook, fun h => by cases h⟩
    | ok response =>
      obtain ⟨hgoes, hstalled⟩ := hshook
      unfold Greeted
      dsimp only
      cases hinfo : parseHello response with
      | error e =>
        exact ⟨hc₂, hsock₂, shook_of_computed (raises_parseHello _ e hinfo) hgoes hstalled,
          fun h => by cases h⟩
      | ok info =>
        dsimp only
        split
        · exact ⟨hc₂, hsock₂, ⟨hgoes, hstalled⟩, fun h => by cases h⟩
        · exact ⟨hc₂, hsock₂, ⟨hgoes, hstalled⟩, fun _ => husable response rfl⟩

/-- Opening a socket; only asyncio raises `FQTimeoutError` when that stalls. -/
theorem wpm_dial (p : Package) (host : Str) (port : ℕ) (hs : Goes timeout d n s) (husable : Usable s) :
    wpm (timing settings timeout) (p.transport.dial host port) (fun r c' s' => c' = c ∧ match r with
      | .ok _ => Greets timeout d (n + 1) 0 .opened s'.helloDue s'
      | .error (.timeoutError _) => TimedOut s'
      | .error (.connectionError _) => Goes timeout d (n + 1) s' ∧ Usable s'
      | .error _ => s'.overrun = false) c s := by
  have hdials : s.dials + 1 = n + 1 := congrArg Nat.succ hs.dials
  cases p with
  | sync =>
    change wpm _ (Sync.dial host port) _ c s
    unfold Sync.dial
    rw [wpm_bind, wpm_self]
    dsimp only
    rw [wpm_bind, wpm_perform_op]
    refine ⟨trivial, fun answer s₁ ⟨now, _, _, _, hs₁⟩ => ?_⟩
    cases answer with
    | error fault =>
      rw [show s₁ = _ from hs₁]
      exact ⟨rfl, ⟨hs.due, hs.dated, hs.overrun, hdials⟩, husable⟩
    | ok sock =>
      replace hs₁ : s₁ = ({ s with now := now } : Timed).opened := hs₁
      -- a socket is open before TLS: its handshake can still fail
      have hopened : Greets timeout d (n + 1) 0 .opened s₁.helloDue s₁ := by
        rw [hs₁]
        exact ⟨⟨hs.due, hs.dated, hs.overrun, hdials⟩, rfl, rfl, rfl, rfl⟩
      dsimp only
      rw [wpm_ite]
      split
      · rw [wpm_bind, wpm_perform_op]
        refine ⟨trivial, fun answer s₂ ⟨now₂, _, _, _, hs₂⟩ => ?_⟩
        cases answer with
        | ok _ =>
          rw [show s₂ = _ from hs₂]
          exact ⟨rfl, hopened.goes.later now₂, hopened.looks, hopened.stage, rfl, hopened.stalled⟩
        | error fault =>
          dsimp only
          rw [wpm_bind, wpm_perform_op]
          refine ⟨trivial, fun _ s₃ ⟨now₃, _, _, _, hs₃⟩ => ?_⟩
          rw [show s₃ = _ from hs₃, show s₂ = _ from hs₂]
          have hgoes := hopened.goes
          exact ⟨rfl, ⟨hgoes.due, hgoes.dated, hgoes.overrun, hgoes.dials⟩, Or.inl rfl⟩
      · exact ⟨rfl, hopened⟩
  | aio =>
    change wpm _ (Aio.dial host port) _ c s
    unfold Aio.dial
    rw [wpm_bind, wpm_self]
    dsimp only
    rw [wpm_bind, wpm_perform_op]
    refine ⟨trivial, fun _ s₁ ⟨now₁, _, _, _, hs₁⟩ => ?_⟩
    rw [show s₁ = _ from hs₁]
    dsimp only
    rw [wpm_bind, wpm_perform_op]
    refine ⟨trivial, fun answer s₂ ⟨now₂, _, _, _, hs₂⟩ => ?_⟩
    match answer with
    | .ok sock =>
      rw [show s₂ = _ from hs₂]
      exact ⟨rfl, ⟨hs.due, hs.dated, hs.overrun, hdials⟩, rfl, rfl, rfl, rfl⟩
    | .error .timeout =>
      rw [show s₂ = _ from hs₂]
      exact ⟨rfl, timedOut_timedOut hs.overrun⟩
    | .error .other =>
      rw [show s₂ = _ from hs₂]
      exact ⟨rfl, ⟨hs.due, hs.dated, hs.overrun, hdials⟩, husable⟩
    | .error .cancelled =>
      rw [show s₂ = _ from hs₂]
      exact ⟨rfl, hs.overrun⟩

/-- Closing waits for nothing, and what comes next is on no connection or a new one. -/
theorem wpm_close : wpm (timing settings timeout) closeConnection (fun r c' s' => r = .ok () ∧
    c' = { c with sock := none } ∧
      (s' = s ∧ c.sock = none ∨ s' = { s with stage := .settled })) c s := by
  apply wpm_close_of
  · intro sock _
    refine ⟨trivial, fun s' ⟨now, _, hnow, _, hs'⟩ => ⟨rfl, rfl, Or.inr ?_⟩⟩
    rw [hs', hnow trivial]
    rfl
  · exact fun hsock => ⟨rfl, rfl, Or.inl ⟨rfl, hsock⟩⟩

/-- A connect goes on when it succeeds or is lost, and then leaves no connection when it stalled. -/
theorem wpm_connect (p : Package) (hsettings : c.settings = settings) (hclosed : c.sock = none)
    (hs : Goes timeout d n s) (husable : Usable s) :
    wpm (timing settings timeout) p.transport.connect (fun r c' s' => match r with
      | .ok _ | .error (.connectionError _) => c'.settings = settings ∧ Goes timeout d (n + 1) s' ∧
          Usable s' ∧ (s'.stalled = true → c'.sock = none ∧ c'.requestInFlight = c.requestInFlight)
      | .error e => Ended e s') c s := by
  apply wpm_connect_of
  · intro e he
    have hcomputed : e.Computed := raises_splitAddress _ e he
    cases e with
    | connectionError fault => exact hcomputed.elim
    | _ => exact ended_of_computed hcomputed hs.overrun
  · intro host port
    refine wpm_mono (wpm_dial p host port hs husable) ?_
    intro r c₂ s₂ ⟨hc₂, hr₂⟩
    rw [hc₂]
    cases r with
    | error e =>
      cases e with
      | connectionError fault => exact ⟨hsettings, hr₂.1, hr₂.2, fun _ => ⟨hclosed, rfl⟩⟩
      | _ => exact hr₂
    | ok sock =>
      refine wpm_mono (wpm_handshake p hsettings hr₂) ?_
      intro r c₃ s₃ ⟨hsettings₃, hsock₃, hshook, husable₃⟩
      cases r with
      | ok _ =>
        refine ⟨hsettings₃, hshook.1, husable₃ rfl, fun h => ?_⟩
        rw [hshook.2] at h
        cases h
      | error e =>
        refine wpm_mono wpm_close ?_
        intro r c₄ s₄ ⟨hr₄, hc₄, hs₄⟩
        rw [hr₄, hc₄]
        -- the handshake has left a socket, so closing settles what was outstanding
        replace hs₄ : s₄ = { s₃ with stage := .settled } := by
          rcases hs₄ with ⟨_, hnone⟩ | hs₄
          · rw [hsock₃] at hnone
            cases hnone
          · exact hs₄
        rw [hs₄]
        cases e with
        | timeoutError site => exact hshook
        | connectionError fault =>
          obtain ⟨hgoes, hstalled⟩ := hshook
          refine ⟨hsettings₃, ⟨hgoes.due, hgoes.dated, hgoes.overrun, hgoes.dials⟩,
            Or.inl rfl, fun h => ?_⟩
          rw [show s₃.stalled = true from h] at hstalled
          cases hstalled
        | _ => exact hshook.1.overrun

theorem wpm_reconnect (p : Package) (hsettings : c.settings = settings) (hs : Goes timeout d n s)
    (husable : Usable s) :
    wpm (timing settings timeout) p.transport.reconnect (fun r c' s' => match r with
      | .ok _ | .error (.connectionError _) => c'.settings = settings ∧ Goes timeout d (n + 1) s' ∧
          Usable s' ∧ (s'.stalled = true → c'.sock = none ∧ c'.requestInFlight = c.requestInFlight)
      | .error e => Ended e s') c s := by
  apply wpm_reconnect_of
  · intro sock _
    refine ⟨trivial, fun s' ⟨now, _, hnow, _, hs'⟩ => ?_⟩
    rw [hs', hnow trivial]
    exact wpm_connect p hsettings rfl ⟨hs.due, hs.dated, hs.overrun, hs.dials⟩ (Or.inl rfl)
  · exact fun _ => wpm_connect p hsettings rfl hs husable

end Reconnect

/-! ## Rounds -/

section Rounds
variable {settings : Settings} {timeout : Option ℚ} {d : Deadline} {n : ℕ}
  {c : Connection} {s s' : Timed}

/-- How a call ends other than with a lost connection. -/
def Over (e : Exc) (s : Timed) : Prop := Ended e s ∧ ∀ fault, e ≠ .connectionError fault

theorem wpm_check_over (hs : Goes timeout d n s) (husable : Usable s) :
    wpm (timing settings timeout) (d.check : ConnM Unit) (fun r c' s' => c' = c ∧ match r with
      | .ok _ => Goes timeout d n s' ∧ Usable s' ∧ s'.stalled = s.stalled
      | .error e => Over e s') c s := by
  refine wpm_mono (wpm_check hs husable) ?_
  intro r c' s' ⟨hc', hgoes, husable', hstalled, hexpired⟩
  refine ⟨hc', ?_⟩
  cases r with
  | ok _ => exact ⟨hgoes, husable', hstalled⟩
  | error e =>
    obtain ⟨he, hdue⟩ := hexpired e rfl
    rw [he]
    exact ⟨iff_of_true hgoes.overrun hdue, fun _ => Exc.noConfusion⟩

theorem wpm_sleep (p : Package) (delay : ℚ) (hs : Goes timeout d n s) (husable : Usable s) :
    wpm (timing settings timeout) (p.transport.sleep delay) (fun r c' s' => c' = c ∧ match r with
      | .ok _ => Goes timeout d n s' ∧ Usable s'
      | .error e => Over e s') c s := by
  cases p with
  | sync =>
    change wpm _ (Sync.sleep delay) _ c s
    unfold Sync.sleep
    rw [wpm_ite]
    split
    · exact ⟨rfl, hs.overrun, fun _ => Exc.noConfusion⟩
    · rw [wpm_bind, wpm_perform_op]
      refine ⟨trivial, fun answer s₁ ⟨now, _, _, _, hs₁⟩ => ?_⟩
      rw [show s₁ = _ from hs₁]
      rcases answer with _ | _
      · exact ⟨rfl, hs.overrun, fun _ => Exc.noConfusion⟩
      · exact ⟨rfl, hs.later now, husable⟩
  | aio =>
    change wpm _ (Aio.sleep delay) _ c s
    unfold Aio.sleep
    rw [wpm_bind, wpm_perform_op]
    refine ⟨trivial, fun answer s₁ ⟨now, _, _, _, hs₁⟩ => ?_⟩
    rw [show s₁ = _ from hs₁]
    cases answer with
    | ok _ => exact ⟨rfl, hs.later now, husable⟩
    | error _ => exact ⟨rfl, hs.overrun, fun _ => Exc.noConfusion⟩

theorem wpm_clamp (delay : ℚ) (hs : Goes timeout d n s) (husable : Usable s) :
    wpm (timing settings timeout) (d.clamp delay : ConnM ℚ) (fun r c' s' => c' = c ∧
      (∃ delay, r = .ok delay) ∧
      Goes timeout d n s' ∧ Usable s') c s := by
  unfold Deadline.clamp Deadline.remaining
  obtain ⟨_ | due⟩ := d
  · exact ⟨rfl, ⟨delay, rfl⟩, hs, husable⟩
  · dsimp only
    rw [wpm_bind, wpm_bind, wpm_perform_op]
    refine ⟨trivial, fun now s₁ h => ?_⟩
    have hread := read_monotonic hs husable h
    exact ⟨rfl, ⟨_, rfl⟩, hread.goes, hread.usable⟩

theorem ceiling_error {policy : ReconnectPolicy} {attempt : ℕ} {e : Exc}
    (h : policy.ceiling attempt = .error e) : e = .overflowError .delay := by
  have hraises : Raises (· = .overflowError .delay) (policy.ceiling attempt) := by
    refine Raises.bind ?_ fun _ => raises_ok _
    exact .ite (raises_error rfl) (raises_ok _)
  exact hraises e h

theorem wpm_backoff (p : Package) (policy : ReconnectPolicy) (attempt : ℕ) (hs : Goes timeout d n s)
    (husable : Usable s) :
    wpm (timing settings timeout) (p.transport.backoff policy attempt d)
      (fun r c' s' => c' = c ∧ match r with
      | .ok _ => Goes timeout d n s' ∧ Usable s'
      | .error e => Over e s') c s := by
  have hcheck : ∀ {s : Timed}, Goes timeout d n s → Usable s → wpm (timing settings timeout)
      (d.check : ConnM Unit) (fun r c' s' => c' = c ∧ match r with
        | .ok _ => Goes timeout d n s' ∧ Usable s'
        | .error e => Over e s') c s := by
    intro s hs husable
    refine wpm_mono (wpm_check_over hs husable) ?_
    intro r c' s' ⟨hc', hr⟩
    cases r with
    | ok _ => exact ⟨hc', hr.1, hr.2.1⟩
    | error e => exact ⟨hc', hr⟩
  unfold Transport.backoff
  rw [wpm_bind]
  refine wpm_mono (hcheck hs husable) ?_
  intro r c₁ s₁ ⟨hc₁, hr₁⟩
  rw [hc₁]
  cases r with
  | error e => exact ⟨rfl, hr₁⟩
  | ok _ =>
    obtain ⟨hgoes₁, husable₁⟩ := hr₁
    dsimp only
    rw [wpm_bind]
    unfold ReconnectPolicy.delay
    rw [wpm_bind, wpm_ofExcept]
    cases hceiling : policy.ceiling attempt with
    | error e =>
      rw [ceiling_error hceiling]
      exact ⟨rfl, hgoes₁.overrun, fun _ => Exc.noConfusion⟩
    | ok ceiling =>
      dsimp only
      rw [wpm_bind, wpm_perform_op]
      refine ⟨trivial, fun rand s₂ ⟨now, _, _, _, hs₂⟩ => ?_⟩
      rw [show s₂ = _ from hs₂]
      dsimp only
      rw [wpm_pure]
      dsimp only
      rw [wpm_bind]
      refine wpm_mono (wpm_clamp _ (hgoes₁.later now) husable₁) ?_
      intro r c₃ s₃ ⟨hc₃, ⟨delay, hr₃⟩, hgoes₃, husable₃⟩
      rw [hc₃, hr₃]
      dsimp only
      -- what is left of the deadline cuts the delay, and no time at all is no sleep
      by_cases hpos : 0 < delay
      · rw [if_pos hpos, wpm_bind]
        refine wpm_mono (wpm_sleep p delay hgoes₃ husable₃) ?_
        intro r c₄ s₄ ⟨hc₄, hr₄⟩
        rw [hc₄]
        cases r with
        | error e => exact ⟨rfl, hr₄⟩
        | ok _ => exact hcheck hr₄.1 hr₄.2
      · rw [if_neg hpos]
        exact hcheck hgoes₃ husable₃

/-- How a call ends: its timeout error means an expired deadline exactly when nothing timed out too
early. -/
def Ends {α : Type} (policy : ReconnectPolicy) (r : Except Exc α) (s : Timed) : Prop :=
  MeansExpired policy r s ↔ s.overrun = false

theorem ends_error {α β : Type} {policy : ReconnectPolicy} {e : Exc}
    (h : Ends policy (.error e : Except Exc α) s) : Ends policy (.error e : Except Exc β) s := by
  have heq : ∀ {γ δ : Type}, MeansExpired policy (.error e : Except Exc γ) s →
      MeansExpired policy (.error e : Except Exc δ) s := by
    intro γ δ ⟨htimeout, hstalled⟩
    refine ⟨fun e' he' => ?_, fun hs hnot hbudget e' he' => ?_⟩
    · cases he'
      exact htimeout e rfl
    · cases he'
      exact hstalled hs hnot hbudget e rfl
  exact ⟨fun hmeans => h.mp (heq hmeans), fun hs => heq (h.mpr hs)⟩

theorem ends_over {α : Type} {policy : ReconnectPolicy} {e : Exc} (h : Over e s) :
    Ends policy (.error e : Except Exc α) s := by
  obtain ⟨hended, hnot⟩ := h
  cases e with
  | timeoutError site => exact means_of_timedOut hended
  | connectionError fault => exact absurd rfl (hnot fault)
  | _ =>
    apply means_of_other hended
    · intro e he
      cases he
      rfl
    · intro _ _ e he
      cases he
      rfl

theorem ends_ok {α : Type} {policy : ReconnectPolicy} {a : α} (h : s.overrun = false) :
    Ends policy (.ok a : Except Exc α) s :=
  means_of_other h (fun _ he => by cases he) fun _ _ _ he => by cases he

/-- A call between two rounds, whose newest reconnect left no connection when it stalled. -/
structure Round (settings : Settings) (timeout : Option ℚ) (d : Deadline) (command : Command) (n : ℕ)
    (c : Connection) (s : Timed) : Prop where
  goes : Goes timeout d n s
  usable : Usable s
  settings : c.settings = settings
  stalled : s.stalled = true → ¬ (c.requestInFlight = true ∧ ¬ command.readOnly = true)

theorem wpm_withRetry (p : Package) (policy : ReconnectPolicy) (command : Command) (rounds : ℕ)
    (hs : Round settings timeout d command 0 c s) (hstalled : s.stalled = true → c.sock = none) :
    wpm (timing settings timeout) (p.transport.withRetry policy command d p.transport.send rounds 0)
      (fun r _ s' => Ends policy r s') c s := by
  -- `n` counts the reconnects so far, and a connection that stalled is closed
  have hround : Retrying (timing settings timeout) p.transport policy command d p.transport.send
      (fun n c s => Round settings timeout d command n c s ∧ (s.stalled = true → c.sock = none))
      (fun n _ => Round settings timeout d command n)
      (fun m c s => ∃ n, m = n + 1 ∧ Goes timeout d n s ∧ Usable s ∧ c.settings = settings ∧
        ¬ (c.requestInFlight = true ∧ ¬ command.readOnly = true))
      (fun r _ s => Ends policy r s) := by
    refine ⟨?_, ?_, ?_, ?_⟩
    · intro n c s ⟨hs, hclosed⟩
      refine wpm_mono (wpm_send p command hs.goes hs.usable) ?_
      intro r c' s' ⟨hr, hsettings, hsame⟩
      cases r with
      | ok response => exact ends_ok hr.1.overrun
      | error e =>
        cases e with
        | timeoutError site => exact means_of_timedOut hr
        | connectionError fault =>
          obtain ⟨hgoes, husable, hstalled'⟩ := hr
          refine ⟨hgoes, husable, hsettings.trans hs.settings, fun h => ?_⟩
          rw [hstalled'] at h
          rw [hsame (hclosed h)]
          exact hs.stalled h
        | _ => exact ends_over ⟨hr.1.overrun, fun _ => Exc.noConfusion⟩
    -- the loss is raised: the request was in flight, or the attempts are used up
    · intro n fault c s hs hstop
      apply means_of_other hs.goes.overrun
      · intro e he
        cases he
        rfl
      · intro hstalled hbudget
        rw [hs.goes.dials] at hbudget
        rcases hstop with hflight | hexhausted
        · exact absurd hflight (hs.stalled hstalled)
        · rw [hexhausted] at hbudget
          cases hbudget
    · intro n fault c s hs hflight _
      refine wpm_mono (wpm_backoff p policy (n + 1) hs.goes hs.usable) ?_
      intro r c' s' ⟨hc', hr⟩
      rw [hc']
      cases r with
      | ok _ => exact ⟨n, rfl, hr.1, hr.2, hs.settings, hflight⟩
      | error e => exact ends_over hr
    · intro m c s ⟨n, hm, hgoes, husable, hsettings, hflight⟩
      rw [hm]
      refine wpm_mono (wpm_reconnect p hsettings hgoes husable) ?_
      intro r c' s' hr
      have hready : (c'.settings = settings ∧ Goes timeout d (n + 1) s' ∧ Usable s' ∧
          (s'.stalled = true → c'.sock = none ∧ c'.requestInFlight = c.requestInFlight)) →
          Round settings timeout d command (n + 1) c' s' ∧ (s'.stalled = true → c'.sock = none) := by
        intro ⟨hsettings', hgoes', husable', hclosed⟩
        refine ⟨⟨hgoes', husable', hsettings', fun h => ?_⟩, fun h => (hclosed h).1⟩
        rw [(hclosed h).2]
        exact hflight
      cases r with
      | ok _ => exact hready hr
      | error e =>
        cases e with
        | connectionError fault => exact hready hr
        | _ => exact ends_over ⟨hr, fun _ => Exc.noConfusion⟩
  exact hround.withRetry trivial rounds ⟨hs, hstalled⟩

end Rounds

/-! ## Calls -/

section Calls
variable {settings : Settings} {timeout : Option ℚ} {d : Deadline} {n : ℕ} {s : Timed}

/-- The pool gives an open connection. -/
theorem wpm_take (p : Package) (hs : Goes timeout d n s) (husable : Usable s) :
    wpm (timing settings timeout) (p.transport.take d) (fun r _ s' =>
      (∃ c, r = .ok (some c) ∧ c.settings = settings) ∧ Goes timeout d n s' ∧ Usable s' ∧
        s'.stalled = s.stalled) () s := by
  have hremaining : wpm (timing settings timeout) (d.remaining : Method Net Unit Exc (Option ℚ))
      (fun r _ s' => (∃ remaining, r = .ok remaining) ∧ Goes timeout d n s' ∧ Usable s' ∧
        s'.stalled = s.stalled) () s := by
    obtain ⟨_ | due⟩ := d
    · exact ⟨⟨none, rfl⟩, hs, husable, rfl⟩
    · unfold Deadline.remaining
      dsimp only
      rw [wpm_bind, wpm_perform_op]
      refine ⟨trivial, fun now s₁ h => ?_⟩
      have hread := read_monotonic hs husable h
      exact ⟨⟨_, rfl⟩, hread.goes, hread.usable, hread.stalled⟩
  apply wpm_take_of (J := fun s' => Goes timeout d n s' ∧ Usable s' ∧ s'.stalled = s.stalled) p
  · refine wpm_mono hremaining ?_
    intro r _ s₁ ⟨⟨remaining, hr⟩, hkept⟩
    rw [hr]
    exact hkept
  · intro remaining s₁ ⟨hgoes, husable₁, hstalled⟩
    refine ⟨trivial, fun answer s₂ ⟨now, _, _, ⟨c, hanswer, hc, _⟩, hs₂⟩ => ?_⟩
    rw [show s₂ = _ from hs₂, hanswer]
    exact ⟨⟨c, rfl, hc⟩, hgoes.later now, husable₁, hstalled⟩
  · intro delay s₁ ⟨hgoes, husable₁, hstalled⟩
    refine ⟨trivial, fun _ s₂ ⟨_, _, _, _, hs₂⟩ => ?_⟩
    rw [show s₂ = _ from hs₂]
    refine ⟨trivial, fun answer s₃ ⟨_, _, _, ⟨c, hanswer, hc, _⟩, hs₃⟩ => ?_⟩
    rw [show s₃ = _ from hs₃, hanswer]
    exact ⟨⟨c, rfl, hc⟩, ⟨hgoes.due, hgoes.dated, hgoes.overrun, hgoes.dials⟩, husable₁, hstalled⟩

theorem wpm_acquire (p : Package) (hs : Goes timeout d n s) (husable : Usable s) :
    wpm (timing settings timeout) (p.transport.acquire settings d) (fun r _ s' => match r with
      | .ok c => c.settings = settings ∧ Goes timeout d n s' ∧ Usable s' ∧ s'.stalled = s.stalled
      | .error e => e = .poolClosed ∧ s'.overrun = false) () s := by
  apply wpm_acquire_of (J := fun s' => Goes timeout d n s' ∧ Usable s' ∧ s'.stalled = s.stalled)
  · rw [wpm_perform_op]
    refine ⟨trivial, fun flag s₁ ⟨now, _, _, _, hs₁⟩ => ?_⟩
    rw [show s₁ = _ from hs₁]
    dsimp only
    split
    · exact ⟨rfl, hs.overrun⟩
    · exact ⟨hs.later now, husable, rfl⟩
  · intro s₁ ⟨hgoes₁, husable₁, hstalled₁⟩
    refine wpm_mono (wpm_take p hgoes₁ husable₁) ?_
    intro r _ s₂ ⟨⟨c, hr, hc⟩, hgoes, husable₂, hstalled⟩
    rw [hr]
    exact ⟨hc, hgoes, husable₂, hstalled.trans hstalled₁⟩

/-- Releasing a connection waits for nothing. -/
theorem wpm_release (c : Connection) : wpm (timing settings timeout) (Transport.release c)
    (fun r _ s' => r = .ok () ∧ (s' = s ∨ s' = { s with stage := .settled })) () s := by
  apply wpm_release_of (J := fun s' => s' = s)
  · refine ⟨trivial, fun flag s₁ ⟨_, _, hnow, _, hs₁⟩ => ?_⟩
    rw [hnow trivial] at hs₁
    exact hs₁
  · intro s₁ hs₁
    rw [hs₁]
    refine wpm_mono wpm_close ?_
    intro r _ s₂ ⟨_, _, hs₂⟩
    exact ⟨rfl, hs₂.imp_left And.left⟩
  · intro s₁ hs₁
    rw [hs₁]
    refine ⟨trivial, fun _ s₂ ⟨_, _, hnow, _, hs₂⟩ => ⟨rfl, Or.inl ?_⟩⟩
    rw [hnow trivial] at hs₂
    exact hs₂

/-- The request of a call whose deadline is set. -/
theorem wpm_withConnection (p : Package) (policy : ReconnectPolicy) (command : Command) (rounds : ℕ)
    (hs : Goes timeout d 0 s) (husable : Usable s) (hstalled : s.stalled = false) :
    wpm (timing settings timeout) (Transport.withConnection p.transport settings d
      (p.transport.withRetry policy command d p.transport.send rounds 0))
      (fun r _ s' => Ends policy r s') () s := by
  apply wpm_withConnection_of
  refine wpm_mono (wpm_acquire p hs husable) ?_
  intro r _ s₁ hr₁
  cases r with
  | error e =>
    obtain ⟨he, hoverrun⟩ := hr₁
    rw [he]
    exact ends_over ⟨hoverrun, fun _ => Exc.noConfusion⟩
  | ok c =>
    obtain ⟨hsettings, hgoes, husable₁, hstalled₁⟩ := hr₁
    have hnot : s₁.stalled ≠ true := by
      rw [hstalled₁, hstalled]
      decide
    refine wpm_mono (wpm_withRetry p policy command rounds ⟨hgoes, husable₁, hsettings, fun h =>
      absurd h hnot⟩ fun h => absurd h hnot) ?_
    intro outcome c₂ s₂ hends
    refine wpm_mono (wpm_release c₂) ?_
    intro r _ s₃ ⟨hr₃, hs₃⟩
    rw [hr₃]
    rcases hs₃ with hs₃ | hs₃
    · rw [hs₃]
      exact hends
    · rw [hs₃]
      exact hends

theorem wpm_execute {α : Type} (p : Package) (config : ClientConfig) (rounds : ℕ) (command : Command)
    {parse : Bytes → Except Exc α} (hparse : ∀ payload, Raises Exc.Computed (parse payload))
    (timeout : Timeout) (start : ℚ) :
    wpm (timing config.settings (callTimeout config timeout))
      (p.transport.execute config rounds command parse timeout)
      (fun r _ s' => Ends config.reconnect r s') () { now := start } := by
  have hdeadline : (config.deadline timeout : ClientM Deadline) =
      Deadline.start (callTimeout config timeout) := by
    cases timeout <;> rfl
  have hstart : wpm (timing config.settings (callTimeout config timeout))
      (config.deadline timeout : ClientM Deadline) (fun r _ s' => ∃ d, r = .ok d ∧
        Goes (callTimeout config timeout) d 0 s' ∧ Usable s' ∧
          s'.stalled = false) () { now := start } := by
    rw [hdeadline]
    unfold Deadline.start
    cases htimeout : callTimeout config timeout with
    | none => exact ⟨⟨none⟩, rfl, ⟨rfl, fun _ => rfl, rfl, rfl⟩, Or.inl rfl, rfl⟩
    | some T =>
      dsimp only
      rw [wpm_bind, wpm_perform_op]
      refine ⟨trivial, fun now s₁ ⟨_, _, _, hfits, hs₁⟩ => ?_⟩
      subst hfits
      replace hs₁ : s₁ = { now := now, due := some (now + T) } := hs₁
      rw [hs₁]
      exact ⟨⟨some (now + T)⟩, rfl, ⟨rfl, fun h => (by cases h), rfl, rfl⟩, Or.inl rfl, rfl⟩
  unfold Transport.execute Transport.request
  rw [wpm_bind, wpm_bind]
  refine wpm_mono hstart ?_
  intro r _ s₁ ⟨d, hr, hgoes, husable, hstalled⟩
  rw [hr]
  refine wpm_mono (wpm_withConnection p config.reconnect command rounds hgoes husable hstalled) ?_
  intro r _ s₂ hends
  cases r with
  | error e => exact ends_error hends
  | ok payload =>
    have hoverrun : s₂.overrun = false :=
      hends.mp ⟨fun _ he => (by cases he), fun _ _ _ _ he => by cases he⟩
    dsimp only
    rw [wpm_ofExcept]
    cases hresult : parse payload with
    | ok a => exact ends_ok hoverrun
    | error e =>
      have hcomputed : e.Computed := hparse payload e hresult
      refine ends_over ⟨ended_of_computed hcomputed hoverrun, fun fault he => ?_⟩
      rw [he] at hcomputed
      exact hcomputed

end Calls

/-- A call that gets an open connection raises `FQTimeoutError` only when its deadline has expired, and
tries again after a reconnect that stalled, exactly when no handshake and no asyncio connect times out
before that deadline, and no operation of the call before its own timeout has passed. -/
theorem timeout_means_expired_iff {α : Type} (p : Package) (config : ClientConfig) (rounds : ℕ)
    (command : Command) (parse : Bytes → Except Exc α)
    (hparse : ∀ payload, Raises Exc.Computed (parse payload)) (timeout : Timeout) (start : ℚ)
    {r : Except Exc α × Unit} {s' : Timed}
    (hrun : Reaches (timing config.settings (callTimeout config timeout))
      (p.transport.execute config rounds command parse timeout (), { now := start }) (.pure r, s')) :
    MeansExpired config.reconnect r.1 s' ↔ s'.overrun = false := by
  have h := wp_result (wpm_execute p config rounds command hparse timeout start) hrun
  exact h

/-- A server that drops a connection, and then neither takes a connection of asyncio nor answers HELLO. -/
def mute (s : Timed) : (op : NetOp) → op.Answer
  | .monotonic => s.now
  | .getSlot _ => some (some .pooled)
  | .awaitSlot => .ok (some .pooled)
  | .openConnection _ _ _ => .error .timeout
  | .recv _ _ => if s.stage = .greeting then .error .timeout else .ok ⟨[], Nat.zero_le _⟩
  | op => op.calm

def unresponsive (s : Timed) (op : NetOp) : op.Answer × Timed :=
  (mute s op, s.note Connection.pooled.settings none op (mute s op))

theorem timing_unresponsive (s : Timed) (op : NetOp) :
    (timing Connection.pooled.settings none).step s op (unresponsive s op).1 (unresponsive s op).2 := by
  refine ⟨s.now, le_rfl, fun _ => rfl, ?_, rfl⟩
  cases op with
  | monotonic => rfl
  | getSlot timeout => exact ⟨.pooled, rfl, rfl, rfl⟩
  | awaitSlot => exact ⟨.pooled, rfl, rfl, rfl⟩
  | _ => trivial

/-- A call without a timeout whose reconnect stalls: in its handshake, or in an asyncio connect. -/
def unanswered : Package → Timed
  | .sync =>
    { now := 0, limit := some 5, looks := 5, helloDue := 5, dials := 1, stalled := true, overrun := true }
  | .aio => { now := 0, limit := some 5, dials := 1, stalled := true, overrun := true }

theorem reaches_unanswered (p : Package) : Reaches (timing Connection.pooled.settings none)
    (p.transport.execute ⟨Connection.pooled.settings, some 5, {}⟩ 2 .getHit Except.ok .unlimited (),
      { now := 0 })
    (.pure (.error (.timeoutError (match p with
      | .sync => .whileReading
      | .aio => .connectTimedOut "db:7".toList)), ()), unanswered p) := by
  apply reaches_run timing_unresponsive
  cases p
  · decide +kernel
  · decide +kernel

theorem unanswered_means_expired_iff :
    MeansExpired {} (.error (.timeoutError (.connectTimedOut "db:7".toList)) : Except Exc Bytes)
      (unanswered .aio) ↔ (unanswered .aio).overrun = false :=
  timeout_means_expired_iff .aio ⟨Connection.pooled.settings, some 5, {}⟩ 2 .getHit Except.ok
    (fun _ => raises_ok _) .unlimited 0 (reaches_unanswered .aio)

/-- A HELLO that is not answered ends a call that has no deadline with `FQTimeoutError`. -/
theorem stalled_handshake_times_out : ¬ ∀ r s', Reaches (timing Connection.pooled.settings none)
    (Sync.transport.execute ⟨Connection.pooled.settings, some 5, {}⟩ 2 .getHit Except.ok .unlimited (),
      { now := 0 }) (.pure r, s') → MeansExpired {} r.1 s' := by
  intro h
  obtain ⟨due, hdue, _⟩ := (h _ _ (reaches_unanswered .sync)).1 _ rfl rfl
  cases hdue

end FqClient.ExpiredDeadlines
