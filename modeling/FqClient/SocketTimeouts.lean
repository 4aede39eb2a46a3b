import FqClient.ChunkedAnswers
import FqClient.Executions
import FqClient.Sync.Reading

namespace FqClient.SocketTimeouts

open Effects

/-- How often the clock was read. -/
def readings (log : List (Event Net)) : ℕ := log.countP fun ev => ev.1 = .monotonic

/-- A clock with these readings; everything else may happen. -/
def ticking (clock : ℕ → ℚ) : World Net (List (Event Net)) where
  permits _ _ := True
  step log op answer log' := log' = log ++ [⟨op, answer⟩] ∧ match op, answer with
    | .monotonic, now => now = clock (readings log)
    | _, _ => True

/-- The values that `settimeout` was called with. The negative ones that it refuses show only in the
`ValueError` that ends the call, right after a look at the clock. -/
inductive Called {α : Type} (d : Deadline) (q : Prog Net (Except Exc α × Connection))
    (log : List (Event Net)) : Option ℚ → Prop
  | set {sock : SockId} {timeout : Option ℚ} {answer : Except SetFault Unit}
      (h : ⟨NetOp.settimeout sock timeout, answer⟩ ∈ log) : Called d q log timeout
  | refused {c : Connection} {due now : ℚ} (hdue : d.deadline = some due)
      (hraised : q = .pure (.error .valueError, c))
      (hlast : log.getLast? = some ⟨NetOp.monotonic, now⟩) : Called d q log (some (due - now))

/-- In every run, finished or not, `settimeout` is only called with `None` or a positive value. -/
def Positive (clock : ℕ → ℚ) (rounds : ℕ) (sender : Sender) (command : Command) (d : Deadline)
    (c : Connection) : Prop :=
  ∀ q log, Reaches (ticking clock) (Sync.transport.sender rounds sender command d c, []) (q, log) →
    ∀ timeout, Called d q log (some timeout) → 0 < timeout

/-- Whether the call can come to set the timeout once more after it did so `count` times: for the
request, for the first frame of the answer, and for those after it, which follow a part of the
answer. -/
def CanSet (rounds : ℕ) (sender : Sender) (command : Command) (c : Connection) (count : ℕ) : Prop :=
  (c.sock.isSome ∧ command.payload.length ≤ c.maxMessageSize) ∧
  (0 < count → command.payload.length < 2 ^ 32) ∧
  match sender with
  | .send => count < 2
  | .sendChunked => count ≤ rounds ∧ (1 < count → 4 ≤ c.maxMessageSize)

/-! ## What the clock shows -/

section Readings
variable {log : List (Event Net)}

theorem readings_monotonic (now : ℚ) : readings (log ++ [⟨.monotonic, now⟩]) = readings log + 1 := by
  simp [readings]

theorem readings_other {op : NetOp} (answer : op.Answer) (hop : op ≠ .monotonic) :
    readings (log ++ [⟨op, answer⟩]) = readings log := by
  simp [readings, hop]

end Readings

/-- The timeout was set so many times, and that is not the last thing that the clock was read for. -/
structure Settled (d : Deadline) (count : ℕ) (log : List (Event Net)) : Prop where
  readings : ∀ due, d.deadline = some due → readings log = 2 * count
  last : ∀ now, log.getLast? ≠ some ⟨NetOp.monotonic, now⟩

/-- The clock with the socket timeouts that are positive. -/
def careful (clock : ℕ → ℚ) : World Net (List (Event Net)) where
  permits _ op := match op with
    | .settimeout _ (some timeout) => 0 < timeout
    | _ => True
  step := (ticking clock).step

/-- What `_apply_timeout` does with what is left until the deadline. -/
def setTimeout (sock : SockId) (remaining : Option ℚ) : ConnM Unit :=
  if remaining.any (· < 0) then throw .valueError
  else do
    match ← perform (.settimeout sock remaining) with
    | .ok _ => return ()
    | .error .osError => throw (.connectionError .unusable)
    | .error .overflow => throw (.overflowError .timeout)

theorem applyTimeout_eq (sock : SockId) (d : Deadline) : Sync.applyTimeout sock d = (do
    d.check
    let remaining ← d.remaining
    setTimeout sock remaining) := rfl

section Careful
variable {clock : ℕ → ℚ} {d : Deadline} {count : ℕ} {c : Connection} {log : List (Event Net)}

theorem Settled.append (h : Settled d count log) {op : NetOp} (answer : op.Answer)
    (hop : op ≠ .monotonic) : Settled d count (log ++ [⟨op, answer⟩]) where
  readings due hdue := (readings_other answer hop).trans (h.readings due hdue)
  last now hlast := by
    rw [List.getLast?_concat] at hlast
    exact hop (congrArg Sigma.fst (Option.some.inj hlast))

/-- The deadline does not fall between the two looks at the clock. -/
def InTimeTwice (clock : ℕ → ℚ) (d : Deadline) (count : ℕ) : Prop :=
  ∀ due, d.deadline = some due → clock (2 * count) < due → clock (2 * count + 1) < due

theorem wpm_remaining_some {κ : Type} {k : κ} {due : ℚ}
    {Q : Except Exc (Option ℚ) → κ → List (Event Net) → Prop}
    (h : Q (.ok (some (due - clock (readings log)))) k
      (log ++ [⟨.monotonic, clock (readings log)⟩])) :
    wpm (careful clock) (Deadline.remaining ⟨some due⟩) Q k log := by
  unfold Deadline.remaining
  dsimp only
  rw [wpm_bind, wpm_perform_op]
  refine ⟨trivial, fun now log' ⟨hlog', hnow⟩ => ?_⟩
  rw [hlog', show now = _ from hnow]
  exact h

/-- The timeout is set once more, to a positive value. -/
theorem wpm_applyTimeout (hmeets : InTimeTwice clock d count) (hlog : Settled d count log)
    (sock : SockId) :
    wpm (careful clock) (Sync.applyTimeout sock d) (fun r c' log' => c' = c ∧ match r with
      | .ok _ => Settled d (count + 1) log'
      | .error e => e ≠ .valueError) c log := by
  -- what follows the looks at the clock
  have hset : ∀ {remaining : Option ℚ} {log : List (Event Net)},
      (∀ due, d.deadline = some due → readings log = 2 * (count + 1)) →
      (∀ timeout, remaining = some timeout → 0 < timeout) →
      wpm (careful clock) (setTimeout sock remaining) (fun r c' log' => c' = c ∧ match r with
          | .ok _ => Settled d (count + 1) log'
          | .error e => e ≠ .valueError) c log := by
    intro remaining log hreadings hpositive
    have hany : ¬ (remaining.any (· < 0)) = true := by
      cases remaining with
      | none => exact Bool.false_ne_true
      | some timeout =>
        have hpos := hpositive timeout rfl
        simpa using hpos.le
    unfold setTimeout
    rw [if_neg hany, wpm_bind, wpm_perform_op]
    refine ⟨?_, fun answer log' ⟨hlog', _⟩ => ?_⟩
    · cases remaining with
      | none => exact trivial
      | some timeout => exact hpositive timeout rfl
    · cases answer with
      | error fault => cases fault <;> exact ⟨rfl, Exc.noConfusion⟩
      | ok _ =>
        refine ⟨rfl, fun due hdue => ?_, fun now hlast => ?_⟩
        · rw [hlog', readings_other _ (by exact NetOp.noConfusion)]
          exact hreadings due hdue
        · rw [hlog', List.getLast?_concat] at hlast
          exact NetOp.noConfusion (congrArg Sigma.fst (Option.some.inj hlast))
  rw [applyTimeout_eq]
  unfold Deadline.check Deadline.expired
  obtain ⟨_ | due⟩ := d
  · exact @hset none log (fun due hdue => by cases hdue) fun timeout h => by cases h
  · have hcount := hlog.readings due rfl
    rw [wpm_bind, wpm_bind, wpm_bind]
    apply wpm_remaining_some
    dsimp only
    -- the check is the first look at the clock, and `remaining` the second
    by_cases hlate : due - clock (readings log) ≤ 0
    · rw [decide_eq_true hlate]
      exact ⟨rfl, Exc.noConfusion⟩
    · rw [decide_eq_false hlate]
      rw [wpm_pure]
      dsimp only
      rw [if_neg Bool.false_ne_true, wpm_pure]
      dsimp only
      rw [wpm_bind]
      apply wpm_remaining_some
      rw [readings_monotonic, hcount]
      rw [hcount] at hlate
      apply hset
      · intro _ _
        rw [readings_monotonic, readings_monotonic, hcount]
        ring
      · intro timeout h
        have hlt := hmeets due rfl (by linarith)
        have htimeout : due - clock (2 * count + 1) = timeout := Option.some.inj h
        linarith

/-- A method that only receives, and does not raise a `ValueError`. -/
abbrev Receives {α : Type} (sock : SockId) (m : ConnM α) : Prop :=
  m.Leaves (fun op => ∃ size, op = NetOp.recv sock size) (· ≠ .valueError)

theorem receives_readLoop (sock : SockId) (size rounds : ℕ) (buffer : Bytes) :
    Receives sock (Sync.readLoop sock size rounds buffer) := by
  induction rounds generalizing buffer with
  | zero => exact .pure _
  | succ rounds ih =>
    refine .ite (.bind (.perform (by exact ⟨_, rfl⟩)) fun answer => ?_) (.pure _)
    match answer with
    | .error .timeout => exact .throw Exc.noConfusion
    | .error .other => exact .throw Exc.noConfusion
    | .ok chunk => exact .ite (.throw Exc.noConfusion) (ih _)

theorem receives_receiveFrame (sock : SockId) : Receives sock (Sync.receiveFrame sock) := by
  refine .bind (receives_readLoop _ _ _ _) fun header => .bind .self fun c => .bind ?_ fun size => ?_
  · refine .ofExcept fun e he heq => ?_
    unfold decodeFrameSize at he
    rw [heq] at he
    split at he
    · cases he
    · dsimp only at he
      split at he <;> cases he
  · exact .ite (.pure _) (receives_readLoop _ _ _ _)

theorem Settled.recv (h : Settled d count log) {sock : SockId} {size : ℕ} {log' : List (Event Net)}
    {answer : (NetOp.recv sock size).Answer}
    (hstep : (careful clock).step log (.recv sock size) answer log') : Settled d count log' := by
  rw [hstep.1]
  exact h.append answer (by exact NetOp.noConfusion)

/-- Receiving neither reads the clock nor sets the timeout. -/
theorem wpm_receiveFrame (hlog : Settled d count log) (sock : SockId) :
    wpm (careful clock) (Sync.receiveFrame sock) (fun r c' log' => (c' = c ∧ Settled d count log') ∧
      match r with
      | .ok frame => frame.length ≤ c.maxMessageSize
      | .error e => e ≠ .valueError) c log := by
  have hkeeps : Keeps (careful clock) (fun op => ∃ size, op = .recv sock size) (Settled d count) := by
    intro s op ⟨size, hop⟩ hs
    subst hop
    exact ⟨trivial, fun a s' h => hs.recv h⟩
  have hread : ∀ size b s, Settled d count s → wpm (careful clock) (Sync.readExactly sock size)
      (fun r c' s' => c' = c ∧ Exactly (fun _ => Settled d count) size b r s') c s := by
    intro size b s hs
    refine wpm_readLoop (fun _ s size hs => ⟨trivial, fun a s' h => ?_⟩) size hs
      (Nat.zero_le _) (by simp)
    cases a <;> exact hs.recv h
  have hraises := wpm_of_leaves hkeeps (receives_receiveFrame sock) hlog (c := c)
  have hlength := wpm_receive hread hlog (b := [])
  refine wp_mono (wp_and hraises hlength) ?_
  intro ⟨r, c'⟩ log' ⟨⟨⟨hc, hr⟩, hlog'⟩, _, hframe⟩
  refine ⟨⟨hc, hlog'⟩, ?_⟩
  cases r with
  | error e => exact hr e rfl
  | ok frame =>
    obtain ⟨header, hsize, _⟩ := hframe
    exact (decodeFrameSize_ok hsize).2

theorem wpm_readFrame (hmeets : InTimeTwice clock d count) (hlog : Settled d count log) :
    wpm (careful clock) (Sync.readFrame d) (fun r c' log' => c' = c ∧ match r with
      | .ok frame => frame.length ≤ c.maxMessageSize ∧ Settled d (count + 1) log'
      | .error e => e ≠ .valueError) c log := by
  rw [Sync.readFrame_eq, wpm_bind, wpm_requireSocket]
  cases c.sock with
  | none => exact ⟨rfl, Exc.noConfusion⟩
  | some sock =>
    dsimp only
    rw [wpm_bind]
    refine wpm_mono (wpm_applyTimeout hmeets hlog sock) ?_
    intro r c' log' ⟨hc, hr⟩
    rw [hc]
    cases r with
    | error e => exact ⟨rfl, hr⟩
    | ok _ =>
      refine wpm_mono (wpm_receiveFrame hr sock) ?_
      intro r c' log' ⟨⟨hc, hlog'⟩, hr⟩
      refine ⟨hc, ?_⟩
      cases r with
      | error e => exact hr
      | ok frame => exact ⟨hr, hlog'⟩

/-- How a call ends: a `ValueError` is not one of `settimeout`. -/
def Ending (r : Except Exc Bytes) (log : List (Event Net)) : Prop :=
  r = .error .valueError → ∀ now, log.getLast? ≠ some ⟨NetOp.monotonic, now⟩

/-- The request comes to set the timeout. -/
def Begins (command : Command) (c : Connection) : Prop :=
  c.sock.isSome ∧ command.payload.length ≤ c.maxMessageSize

theorem wpm_writeRequest {command : Command} (hmeets : Begins command c → InTimeTwice clock d 0)
    (hlog : Settled d 0 log) :
    wpm (careful clock) (Sync.writeRequest command d) (fun r c' log' => match r with
      | .ok _ => (Begins command c ∧ command.payload.length < 2 ^ 32) ∧
          c'.maxMessageSize = c.maxMessageSize ∧ Settled d 1 log'
      | .error e => e ≠ .valueError) c log := by
  unfold Sync.writeRequest
  rw [wpm_bind, wpm_self]
  dsimp only
  rw [wpm_bind, wpm_ofExcept]
  cases hsize : checkRequestSize command.payload c.maxMessageSize with
  | error e =>
    unfold checkRequestSize at hsize
    split at hsize <;> cases hsize
    exact Exc.noConfusion
  | ok _ =>
    have hfits : command.payload.length ≤ c.maxMessageSize := by
      unfold checkRequestSize at hsize
      split at hsize
      · cases hsize
      next hle => exact not_lt.mp hle
    dsimp only
    rw [wpm_bind, wpm_requireSocket]
    cases hsock : c.sock with
    | none => exact Exc.noConfusion
    | some sock =>
      have hbegins : Begins command c := ⟨by rw [hsock]; rfl, hfits⟩
      dsimp only
      rw [wpm_bind]
      refine wpm_mono (wpm_applyTimeout (hmeets hbegins) hlog sock) ?_
      intro r c' log₁ ⟨hc, hr⟩
      rw [hc]
      cases r with
      | error e => exact hr
      | ok _ =>
        dsimp only
        rw [wpm_bind, wpm_ofExcept]
        cases hframe : encodeFrame command.payload with
        | error e =>
          unfold encodeFrame at hframe
          split at hframe <;> cases hframe
          exact Exc.noConfusion
        | ok frame =>
          dsimp only
          rw [wpm_bind, wpm_perform_op]
          refine ⟨trivial, fun answer log₂ ⟨hlog₂, _⟩ => ?_⟩
          match answer with
          | .error .timeout => exact Exc.noConfusion
          | .error .other => exact Exc.noConfusion
          | .ok _ =>
            refine ⟨⟨hbegins, lt_of_encodeFrame hframe⟩, rfl, ?_⟩
            rw [hlog₂]
            exact hr.append _ (by exact NetOp.noConfusion)

theorem wpm_readChunks {rounds : ℕ} (body : ChunkAssembler)
    (hmeets : ∀ n, count ≤ n → n < count + rounds → (count < n → 4 ≤ c.maxMessageSize) →
      InTimeTwice clock d n) (hlog : Settled d count log) :
    wpm (careful clock) (Sync.transport.readChunks d rounds body) (fun r _ log' => Ending r log') c
      log := by
  induction rounds generalizing count body log with
  | zero => exact trivial
  | succ rounds ih =>
    unfold Transport.readChunks
    rw [wpm_bind]
    have hfirst : InTimeTwice clock d count := hmeets count le_rfl (by omega) fun h =>
      absurd h (lt_irrefl _)
    refine wpm_mono (wpm_readFrame hfirst hlog) ?_
    intro r c' log' ⟨hc, hr⟩
    rw [hc]
    cases r with
    | error e => exact fun h => absurd (Except.error.inj h) hr
    | ok frame =>
      obtain ⟨hframe, hlog'⟩ := hr
      dsimp only
      rw [wpm_bind, wpm_ofExcept]
      cases hfeed : body.feed frame with
      | error e => exact fun _ => hlog'.last
      | ok fed =>
        obtain ⟨_ | response, body'⟩ := fed
        · -- the frame is a part of the answer
          have hfour : 4 ≤ frame.length := by
            rcases frame_cases body frame with ⟨part, h⟩ | ⟨data, h⟩ | ⟨data, h⟩ | ⟨what, h⟩
            · rw [h]
              exact Nat.le_add_left 4 part.length
            · rw [h, feed_ok] at hfeed
              cases hfeed
            · rw [h, feed_err] at hfeed
              cases hfeed
            · rw [h] at hfeed
              cases hfeed
          refine ih body' (fun n hn hlt _ => hmeets n (by omega) (by omega) fun _ => ?_) hlog'
          exact hfour.trans hframe
        · exact fun h => by cases h

theorem settled_nil : Settled d 0 [] := ⟨fun _ _ => rfl, fun _ h => by cases h⟩

/-- When the deadline never falls between two looks at the clock, no call sets the timeout to a
value that is not positive. -/
theorem wpm_sender {rounds : ℕ} {sender : Sender} {command : Command}
    (hmeets : ∀ count, CanSet rounds sender command c count → InTimeTwice clock d count) :
    wpm (careful clock) (Sync.transport.sender rounds sender command d)
      (fun r _ log' => Ending r log') c [] := by
  have hbegin : Begins command c → InTimeTwice clock d 0 := by
    intro h
    apply hmeets
    refine ⟨h, fun h => absurd h (lt_irrefl _), ?_⟩
    cases sender with
    | send => exact Nat.zero_lt_two
    | sendChunked => exact ⟨Nat.zero_le _, fun h => absurd h (Nat.not_lt_zero _)⟩
  cases sender with
  | send =>
    unfold Transport.sender Transport.send
    dsimp only
    rw [wpm_bind]
    refine wpm_mono (wpm_writeRequest hbegin settled_nil) ?_
    intro r c' log' hr
    cases r with
    | error e => exact fun h => absurd (Except.error.inj h) hr
    | ok _ =>
      obtain ⟨⟨hbegins, hlt⟩, hsize, hlog'⟩ := hr
      dsimp only
      rw [wpm_bind]
      refine wpm_mono (wpm_readFrame (hmeets 1 ⟨hbegins, fun _ => hlt, Nat.one_lt_two⟩) hlog') ?_
      intro r c'' log'' ⟨_, hr⟩
      cases r with
      | error e => exact fun h => absurd (Except.error.inj h) hr
      | ok frame => exact fun h => by cases h
  | sendChunked =>
    unfold Transport.sender Transport.sendChunked
    dsimp only
    rw [wpm_bind]
    refine wpm_mono (wpm_writeRequest hbegin settled_nil) ?_
    intro r c' log' hr
    cases r with
    | error e => exact fun h => absurd (Except.error.inj h) hr
    | ok _ =>
      obtain ⟨⟨hbegins, hlt⟩, hsize, hlog'⟩ := hr
      refine wpm_readChunks [] (fun n hn hle hfour => hmeets n ⟨hbegins, fun _ => hlt, ?_⟩) hlog'
      rw [hsize] at hfour
      exact ⟨by omega, hfour⟩

end Careful

/-- The timeouts of a careful run. -/
theorem timeouts_positive {clock : ℕ → ℚ} {m : ConnM Bytes} {c : Connection}
    {Q : Except Exc Bytes → Connection → List (Event Net) → Prop} (hm : wpm (careful clock) m Q c [])
    {q : Prog Net (Except Exc Bytes × Connection)} {log : List (Event Net)}
    (hrun : Reaches (careful clock) (m c, []) (q, log)) {sock : SockId} {timeout : ℚ}
    {answer : Except SetFault Unit} (hmem : ⟨NetOp.settimeout sock (some timeout), answer⟩ ∈ log) :
    0 < timeout := by
  refine reaches_invariant (fun log => ∀ sock timeout (answer : Except SetFault Unit),
    ⟨NetOp.settimeout sock (some timeout), answer⟩ ∈ log → 0 < timeout) ?_ hm ?_ hrun _ _ _ hmem
  · intro s op a s' hs hpermits hstep sock timeout answer hmem
    rw [hstep.1] at hmem
    rcases List.mem_append.mp hmem with hmem | hmem
    · exact hs _ _ _ hmem
    · have hop : op = .settimeout sock (some timeout) :=
        (congrArg Sigma.fst (List.mem_singleton.mp hmem)).symm
      subst hop
      exact hpermits
  · exact fun _ _ _ h => absurd h List.not_mem_nil

/-! ## The deadline between two looks -/

section Breaks
variable {clock : ℕ → ℚ} {due : ℚ} {c c₁ : Connection} {log log₁ : List (Event Net)} {α β : Type}

/-- Some run calls `settimeout` with a value that is not positive. -/
def Breaks (clock : ℕ → ℚ) (due : ℚ) (m : ConnM α) (c : Connection) (log : List (Event Net)) : Prop :=
  ∃ q log' timeout, Reaches (ticking clock) (m c, log) (q, log') ∧
    Called ⟨some due⟩ q log' (some timeout) ∧ ¬ 0 < timeout

theorem Breaks.bind {m : ConnM β} {f : β → ConnM α} (h : Breaks clock due m c log) :
    Breaks clock due (m >>= f) c log := by
  obtain ⟨q, log', timeout, hreaches, hcalled, htimeout⟩ := h
  refine ⟨_, log', timeout, reaches_bind hreaches _, ?_, htimeout⟩
  cases hcalled with
  | set hmem => exact .set hmem
  | refused hdue hraised hlast =>
    subst hraised
    exact .refused hdue rfl hlast

theorem Breaks.bind_after {m : ConnM β} {f : β → ConnM α} {b : β}
    (hm : m.Can (ticking clock) c log (.ok b) c₁ log₁) (hf : Breaks clock due (f b) c₁ log₁) :
    Breaks clock due (m >>= f) c log := by
  obtain ⟨q, log', timeout, hreaches, hcalled, htimeout⟩ := hf
  exact ⟨q, log', timeout, (reaches_bind hm _).trans hreaches, hcalled, htimeout⟩

theorem can_remaining :
    Method.Can (ticking clock) (Deadline.remaining ⟨some due⟩) c log
      (.ok (some (due - clock (readings log)))) c (log ++ [⟨.monotonic, clock (readings log)⟩]) := by
  have hread : (ticking clock).step log .monotonic (clock (readings log))
      (log ++ [⟨.monotonic, clock (readings log)⟩]) := ⟨rfl, rfl⟩
  exact (can_perform_op hread).bind (can_pure _ _ _)

theorem can_check (hearly : clock (readings log) < due) :
    Method.Can (ticking clock) (Deadline.check ⟨some due⟩) c log (.ok ()) c
      (log ++ [⟨.monotonic, clock (readings log)⟩]) := by
  have hleft : ¬ due - clock (readings log) ≤ 0 := by linarith
  unfold Deadline.check Deadline.expired
  refine Method.Can.bind (b := false) (can_remaining.bind ?_) (can_pure _ _ _)
  dsimp only
  rw [decide_eq_false hleft]
  exact can_pure _ _ _

/-- The two looks at the clock, the first of them in time. -/
theorem can_looks (hearly : clock (readings log) < due) {sock : SockId} {r : Except Exc Unit}
    {log' : List (Event Net)}
    (h : (setTimeout sock (some (due - clock (readings log + 1)))).Can (ticking clock) c
      (log ++ [⟨.monotonic, clock (readings log)⟩] ++ [⟨.monotonic, clock (readings log + 1)⟩]) r c
      log') : (Sync.applyTimeout sock ⟨some due⟩).Can (ticking clock) c log r c log' := by
  rw [applyTimeout_eq]
  refine (can_check hearly).bind (can_remaining.bind ?_)
  rw [readings_monotonic]
  exact h

/-- A timeout that is not negative. -/
theorem can_setTimeout {sock : SockId} {timeout : ℚ} (h : 0 ≤ timeout) :
    (setTimeout sock (some timeout)).Can (ticking clock) c log (.ok ()) c
      (log ++ [⟨.settimeout sock (some timeout), .ok ()⟩]) := by
  have hany : ¬ ((some timeout).any (· < 0)) = true := by simpa using h
  have hset : (ticking clock).step log (.settimeout sock (some timeout)) (.ok ())
      (log ++ [⟨.settimeout sock (some timeout), .ok ()⟩]) := ⟨rfl, trivial⟩
  unfold setTimeout
  rw [if_neg hany]
  exact (can_perform_op hset).bind (can_pure _ _ _)

theorem can_refuse {sock : SockId} {timeout : ℚ} (h : timeout < 0) :
    (setTimeout sock (some timeout)).Can (ticking clock) c log (.error .valueError) c log := by
  unfold setTimeout
  rw [if_pos (by simpa using h)]
  exact can_throw _ _ _

/-- The timeout is set when both looks are in time. -/
theorem can_applyTimeout (hearly : clock (readings log) < due) (hmeets : clock (readings log + 1) < due)
    (sock : SockId) : ∃ log', (Sync.applyTimeout sock ⟨some due⟩).Can (ticking clock) c log (.ok ()) c
      log' ∧ readings log' = readings log + 2 := by
  have hleft : 0 ≤ due - clock (readings log + 1) := by linarith
  refine ⟨_, can_looks hearly (can_setTimeout hleft), ?_⟩
  rw [readings_other _ (by exact NetOp.noConfusion), readings_monotonic, readings_monotonic]

theorem breaks_applyTimeout (hearly : clock (readings log) < due)
    (hlate : due ≤ clock (readings log + 1)) (sock : SockId) :
    Breaks clock due (Sync.applyTimeout sock ⟨some due⟩) c log := by
  have hleft : ¬ 0 < due - clock (readings log + 1) := by linarith
  by_cases hnegative : due - clock (readings log + 1) < 0
  · exact ⟨_, _, _, can_looks hearly (can_refuse hnegative),
      .refused rfl rfl List.getLast?_concat, hleft⟩
  · exact ⟨_, _, _, can_looks hearly (can_setTimeout (not_lt.mp hnegative)),
      .set (List.mem_append_right _ List.mem_cons_self), hleft⟩

theorem can_writeRequest {command : Command} (hbegins : Begins command c)
    (hframe : command.payload.length < 2 ^ 32) (hearly : clock (readings log) < due)
    (hmeets : clock (readings log + 1) < due) :
    ∃ log', (Sync.writeRequest command ⟨some due⟩).Can (ticking clock) c log (.ok ())
      { c with requestInFlight := true } log' ∧ readings log' = readings log + 2 := by
  obtain ⟨hopen, hfits⟩ := hbegins
  obtain ⟨sock, hsock⟩ := Option.isSome_iff_exists.mp hopen
  obtain ⟨log₁, hset, hreadings⟩ := can_applyTimeout (c := c) hearly hmeets sock
  have hsize : checkRequestSize command.payload c.maxMessageSize = .ok () := if_neg (not_lt.mpr hfits)
  have hwrite : (ticking clock).step log₁
      (.sendall sock (beBytes command.payload.length ++ command.payload)) (.ok ())
      (log₁ ++ [⟨.sendall sock (beBytes command.payload.length ++ command.payload), .ok ()⟩]) :=
    ⟨rfl, trivial⟩
  refine ⟨log₁ ++ [⟨.sendall sock (beBytes command.payload.length ++ command.payload), .ok ()⟩], ?_, ?_⟩
  · unfold Sync.writeRequest
    rw [encodeFrame_ok hframe]
    refine (can_self c log).bind ?_
    rw [hsize]
    refine Method.Can.bind (b := ()) (can_ofExcept _ _ _) ?_
    refine (can_requireSocket hsock).bind (hset.bind ?_)
    exact Method.Can.bind (can_ofExcept _ _ _) ((can_perform_op hwrite).bind (can_update _ _ _))
  · rw [readings_other _ (by exact NetOp.noConfusion)]
    exact hreadings

/-- A part of the answer, with nothing in it. -/
theorem can_readFrame (hopen : c.sock.isSome) (hfour : 4 ≤ c.maxMessageSize)
    (hearly : clock (readings log) < due) (hmeets : clock (readings log + 1) < due) :
    ∃ log', (Sync.readFrame ⟨some due⟩).Can (ticking clock) c log (.ok (nxtFrame [])) c log' ∧
      readings log' = readings log + 2 := by
  obtain ⟨sock, hsock⟩ := Option.isSome_iff_exists.mp hopen
  obtain ⟨log₁, hset, hreadings⟩ := can_applyTimeout (c := c) hearly hmeets sock
  have hrecv : ∀ (s : List (Event Net)) (size : ℕ) (answer : (NetOp.recv sock size).Answer),
      (ticking clock).step s (.recv sock size) answer (s ++ [⟨.recv sock size, answer⟩]) :=
    fun _ _ _ => ⟨rfl, trivial⟩
  have hreceive : (Package.sync.receive sock).Can (ticking clock) c log₁ (.ok (nxtFrame [])) c _ :=
    can_receive .sync (length_beBytes 4) (hrecv log₁ _ _) (decodeFrameSize_beBytes (by decide) hfour)
      (fun _ => hrecv _ _ _) fun h => by cases h
  refine ⟨_, (can_requireSocket hsock).bind (hset.bind hreceive), ?_⟩
  exact (readings_other _ NetOp.noConfusion).trans
    ((readings_other _ (by exact NetOp.noConfusion)).trans hreadings)

theorem breaks_readFrame (hopen : c.sock.isSome) (hearly : clock (readings log) < due)
    (hlate : due ≤ clock (readings log + 1)) : Breaks clock due (Sync.readFrame ⟨some due⟩) c log := by
  obtain ⟨sock, hsock⟩ := Option.isSome_iff_exists.mp hopen
  exact .bind_after (can_requireSocket hsock) (breaks_applyTimeout hearly hlate sock).bind

theorem breaks_writeRequest {command : Command} (hbegins : Begins command c)
    (hearly : clock (readings log) < due) (hlate : due ≤ clock (readings log + 1)) :
    Breaks clock due (Sync.writeRequest command ⟨some due⟩) c log := by
  obtain ⟨hopen, hfits⟩ := hbegins
  obtain ⟨sock, hsock⟩ := Option.isSome_iff_exists.mp hopen
  have hsize : checkRequestSize command.payload c.maxMessageSize = .ok () := if_neg (not_lt.mpr hfits)
  refine .bind_after (can_self c log) ?_
  rw [hsize]
  refine .bind_after (b := ()) (can_ofExcept _ _ _) ?_
  exact .bind_after (can_requireSocket hsock) (breaks_applyTimeout hearly hlate sock).bind

/-- Parts of the answer arrive until the deadline falls between the two looks. -/
theorem breaks_readChunks (hclock : Monotone clock) {k count rounds : ℕ} (hopen : c.sock.isSome)
    (hfour : count < k → 4 ≤ c.maxMessageSize) (hcount : count ≤ k) (hrounds : k < count + rounds)
    (hearly : clock (2 * k) < due) (hlate : due ≤ clock (2 * k + 1)) (body : ChunkAssembler)
    (hlog : readings log = 2 * count) :
    Breaks clock due (Sync.transport.readChunks ⟨some due⟩ rounds body) c log := by
  induction rounds generalizing count body log with
  | zero => omega
  | succ rounds ih =>
    unfold Transport.readChunks
    by_cases hlast : count = k
    · subst hlast
      rw [← hlog] at hearly hlate
      exact (breaks_readFrame hopen hearly hlate).bind
    · have hsooner : clock (readings log) < due := lt_of_le_of_lt (hclock (by omega)) hearly
      have hsooner' : clock (readings log + 1) < due := lt_of_le_of_lt (hclock (by omega)) hearly
      obtain ⟨log', hread, hreadings⟩ := can_readFrame hopen (hfour (by omega)) hsooner hsooner'
      refine .bind_after hread ?_
      rw [feed_nxt]
      refine .bind_after (can_ofExcept _ _ _) ?_
      have hnext : count + 1 ≤ k := by omega
      exact ih (fun _ => hfour (by omega)) hnext (by omega) _ (by omega)

theorem breaks_sender (hclock : Monotone clock) {rounds : ℕ} {sender : Sender} {command : Command}
    {k : ℕ}
    (hsets : CanSet rounds sender command c k) (hearly : clock (2 * k) < due)
    (hlate : due ≤ clock (2 * k + 1)) :
    Breaks clock due (Sync.transport.sender rounds sender command ⟨some due⟩) c [] := by
  obtain ⟨hbegins, hlength, hcount⟩ := hsets
  rcases Nat.eq_zero_or_pos k with hzero | hpos
  · subst hzero
    have hwrite : Breaks clock due (Sync.writeRequest command ⟨some due⟩) c [] :=
      breaks_writeRequest hbegins hearly hlate
    cases sender with
    | send => exact hwrite.bind
    | sendChunked => exact hwrite.bind
  · -- the request is written in time
    have hsooner : clock (readings []) < due := lt_of_le_of_lt (hclock (Nat.zero_le _)) hearly
    have hsooner' : clock (readings [] + 1) < due := by
      refine lt_of_le_of_lt (hclock ?_) hearly
      change 1 ≤ 2 * k
      omega
    obtain ⟨log', hwrite, hreadings⟩ := can_writeRequest hbegins (hlength hpos) hsooner hsooner'
    replace hreadings : readings log' = 2 * 1 := hreadings
    cases sender with
    | send =>
      obtain rfl : k = 1 := by
        have hlt : k < 2 := hcount
        omega
      rw [← hreadings] at hearly hlate
      refine .bind_after hwrite (.bind ?_)
      exact breaks_readFrame hbegins.1 hearly hlate
    | sendChunked =>
      obtain ⟨hrounds, hfour⟩ := hcount
      have hlast : k < 1 + rounds := by omega
      refine .bind_after hwrite ?_
      exact breaks_readChunks (c := { c with requestInFlight := true }) hclock hbegins.1 hfour hpos
        hlast hearly hlate [] hreadings

end Breaks

/-- No call sets a timeout that is not positive, exactly when the deadline never falls between the
two looks at the clock of a call of `_apply_timeout`: whatever the clock, the deadline, the command
and the connection, and whatever arrives. -/
theorem settimeout_positive_iff {clock : ℕ → ℚ} (hclock : Monotone clock) (rounds : ℕ)
    (sender : Sender) (command : Command) (d : Deadline) (c : Connection) :
    Positive clock rounds sender command d c ↔ ∀ due, d.deadline = some due → ∀ count,
      CanSet rounds sender command c count → clock (2 * count) < due → clock (2 * count + 1) < due := by
  constructor
  · intro hpositive due hdue count hsets hearly
    by_contra hlate
    obtain ⟨d⟩ := d
    replace hdue : d = some due := hdue
    subst hdue
    obtain ⟨q, log, timeout, hreaches, hcalled, htimeout⟩ :=
      breaks_sender hclock hsets hearly (not_lt.mp hlate)
    exact htimeout (hpositive q log hreaches timeout hcalled)
  · intro hmeets q log hreaches timeout hcalled
    have hcareful : wpm (careful clock) (Sync.transport.sender rounds sender command d)
        (fun r _ log' => Ending r log') c [] :=
      wpm_sender fun count hsets due hdue => hmeets due hdue count hsets
    have hrun : Reaches (careful clock) (Sync.transport.sender rounds sender command d c, [])
      (q, log) := by
      refine reaches_of_step ?_ hreaches
      exact fun _ _ _ _ hs => hs
    cases hcalled with
    | set hmem => exact timeouts_positive hcareful hrun hmem
    | refused hdue hraised hlast =>
      rw [hraised] at hrun
      exact absurd hlast (wp_result hcareful hrun rfl _)

theorem sudden_positive_iff :
    Positive (fun n => n) 0 .send .getHit ⟨some (1 / 2)⟩ .pooled ↔ ∀ due, some (1 / 2) = some due →
      ∀ count, CanSet 0 .send .getHit .pooled count →
        ((2 * count : ℕ) : ℚ) < due → ((2 * count + 1 : ℕ) : ℚ) < due :=
  settimeout_positive_iff (fun _ _ h => Nat.cast_le.mpr h) 0 .send .getHit ⟨some (1 / 2)⟩ .pooled

/-- The clock passes the deadline between the first look and the second. -/
theorem late_look_refused : ¬ Positive (fun n => n) 0 .send .getHit ⟨some (1 / 2)⟩ .pooled := by
  intro hpositive
  have hclock : Monotone fun n : ℕ => (n : ℚ) := fun _ _ h => Nat.cast_le.mpr h
  have hsets : CanSet 0 .send .getHit .pooled 0 :=
    ⟨⟨rfl, by decide⟩, fun h => absurd h (lt_irrefl _), Nat.zero_lt_two⟩
  have hearly : ((2 * 0 : ℕ) : ℚ) < 1 / 2 := by norm_num
  have hlate : (1 / 2 : ℚ) ≤ ((2 * 0 + 1 : ℕ) : ℚ) := by norm_num
  obtain ⟨q, log, timeout, hreaches, hcalled, htimeout⟩ := breaks_sender hclock hsets hearly hlate
  exact htimeout (hpositive q log hreaches timeout hcalled)

end FqClient.SocketTimeouts
