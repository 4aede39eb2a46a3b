import FqClient.SocketTimeouts

namespace FqClient.ReadDeadline

open Effects SocketTimeouts

/-- A transfer between two moments. -/
structure Transfer where
  began : ℚ
  ended : ℚ
  deriving DecidableEq

/-- The moment, the timeout of the socket, whether nothing was transferred since it was set, and the
transfers that were not the first after it was. -/
structure Clocked where
  now : ℚ
  timeout : Option ℚ := none
  fresh : Bool := false
  later : List Transfer := []
  deriving DecidableEq

/-- After a transfer that took so long. -/
def Clocked.spend (s : Clocked) (lasted : ℚ) : Clocked where
  now := s.now + lasted
  timeout := s.timeout
  fresh := false
  later := if s.fresh then s.later else s.later ++ [⟨s.now, s.now + lasted⟩]

/-- A transfer lasts as long as it likes within the timeout of the socket. -/
def Clocked.Spends (s s' : Clocked) : Prop :=
  ∃ lasted, 0 ≤ lasted ∧ (∀ timeout, s.timeout = some timeout → lasted ≤ max timeout 0) ∧
    s' = s.spend lasted

/-- An explicit clock that only runs while bytes are transferred. What is sent and received, and
when, is up to the peer. -/
def arriving : World Net Clocked where
  permits _ _ := True
  step s op answer s' := match op, answer with
    | .monotonic, now => now = s.now ∧ s' = s
    | .settimeout _ timeout, _ => s' = { s with timeout := timeout, fresh := true }
    | .sendall _ _, _ | .recv _ _, _ => s.Spends s'
    | _, _ => s' = s

/-- Every later transfer ends by then. -/
def Punctual (later : List Transfer) (due : ℚ) : Prop := ∀ x ∈ later, x.ended - x.began ≤ due - x.began

/-- What every run keeps: the clock is past the deadline exactly when the start was, or a later
transfer; and a timeout that was just set ends with the deadline. -/
structure Inv (start due : ℚ) (s : Clocked) : Prop where
  inTime : s.now ≤ due ↔ start ≤ due ∧ Punctual s.later due
  fresh : s.fresh = true → s.timeout = some (due - s.now) ∧ s.now < due

section Inv
variable {start due : ℚ} {s s' : Clocked}

theorem punctual_append (later : List Transfer) (x : Transfer) :
    Punctual (later ++ [x]) due ↔ Punctual later due ∧ x.ended ≤ due := by
  unfold Punctual
  rw [List.forall_mem_append, List.forall_mem_singleton, sub_le_sub_iff_right]

theorem Inv.spends (hs : Inv start due s) (h : s.Spends s') : Inv start due s' := by
  obtain ⟨lasted, hnonneg, hwithin, rfl⟩ := h
  refine ⟨?_, fun h => absurd h Bool.false_ne_true⟩
  unfold Clocked.spend
  dsimp only
  cases hfresh : s.fresh with
  | true =>
    -- the first transfer after the timeout was set ends by the deadline
    obtain ⟨htimeout, hearly⟩ := hs.fresh hfresh
    have hlasted := hwithin _ htimeout
    rw [max_eq_left (by linarith)] at hlasted
    have hinTime := hs.inTime.mp hearly.le
    exact ⟨fun _ => hinTime, fun _ => by linarith⟩
  | false =>
    rw [if_neg Bool.false_ne_true, punctual_append]
    constructor
    · intro h
      obtain ⟨hstart, hlater⟩ := hs.inTime.mp (by linarith)
      exact ⟨hstart, hlater, h⟩
    · intro ⟨_, _, h⟩
      exact h

theorem keeps_receiving (sock : SockId) :
    Keeps arriving (fun op => ∃ size, op = .recv sock size) (Inv start due) := by
  intro s op ⟨size, hop⟩ hs
  subst hop
  exact ⟨trivial, fun _ s' h => hs.spends h⟩

end Inv

section Calls
variable {start due : ℚ}

/-- The method keeps the invariant. -/
abbrev Keeping {α : Type} (start due : ℚ) (m : ConnM α) : Prop :=
  m.Preserves arriving fun _ => Inv start due

theorem keeping_remaining {κ : Type} {Q : Except Exc (Option ℚ) → κ → Clocked → Prop}
    {k : κ} {s : Clocked}
    (h : Q (.ok (some (due - s.now))) k s) : wpm arriving (Deadline.remaining ⟨some due⟩) Q k s := by
  unfold Deadline.remaining
  dsimp only
  rw [wpm_bind, wpm_perform_op]
  refine ⟨trivial, fun now s' ⟨hnow, hs'⟩ => ?_⟩
  rw [hnow, hs']
  exact h

/-- The timeout is set when the deadline is ahead, and ends with it. -/
theorem keeping_applyTimeout (sock : SockId) :
    Keeping start due (Sync.applyTimeout sock ⟨some due⟩) := by
  intro c s hs
  rw [applyTimeout_eq]
  unfold Deadline.check Deadline.expired
  rw [wpm_bind, wpm_bind, wpm_bind]
  apply keeping_remaining
  dsimp only
  rw [wpm_pure]
  dsimp only
  by_cases hlate : due - s.now ≤ 0
  · rw [decide_eq_true hlate]
    exact hs
  · rw [decide_eq_false hlate, if_neg Bool.false_ne_true, wpm_pure]
    dsimp only
    rw [wpm_bind]
    apply keeping_remaining
    dsimp only
    unfold setTimeout
    rw [wpm_ite]
    split
    · exact hs
    · rw [wpm_bind, wpm_perform_op]
      refine ⟨trivial, fun answer s' hset => ?_⟩
      rw [show s' = _ from hset]
      have hinv : Inv start due { s with timeout := some (due - s.now), fresh := true } :=
        ⟨hs.inTime, fun _ => ⟨rfl, by linarith⟩⟩
      cases answer with
      | ok _ => exact hinv
      | error fault => cases fault <;> exact hinv

theorem keeping_requireSocket : Keeping start due requireSocket := by
  intro c s hs
  rw [wpm_requireSocket]
  cases c.sock with
  | none => exact hs
  | some sock => exact hs

theorem keeping_readFrame : Keeping start due (Sync.readFrame ⟨some due⟩) := by
  rw [Sync.readFrame_eq]
  refine keeping_requireSocket.bind fun sock => (keeping_applyTimeout sock).bind fun _ => ?_
  intro c s hs
  refine wpm_mono (wpm_of_leaves (keeps_receiving sock) (receives_receiveFrame sock) hs) ?_
  exact fun _ _ _ h => h.2

theorem keeping_writeRequest (command : Command) :
    Keeping start due (Sync.writeRequest command ⟨some due⟩) := by
  unfold Sync.writeRequest
  refine .bind .self fun c => .bind (.ofExcept _) fun _ => keeping_requireSocket.bind fun sock => ?_
  refine (keeping_applyTimeout sock).bind fun _ => .bind (.ofExcept _) fun frame => ?_
  refine .bind (fun c s hs => ⟨trivial, fun _ s' h => hs.spends h⟩) fun answer => ?_
  match answer with
  | .ok _ => exact .update fun _ _ => id
  | .error .timeout => exact .bind (.update fun _ _ => id) fun _ => .throw _
  | .error .other => exact .throw _

theorem keeping_readChunks (rounds : ℕ) (body : ChunkAssembler) :
    Keeping start due (Sync.transport.readChunks ⟨some due⟩ rounds body) := by
  induction rounds generalizing body with
  | zero => exact .halt trivial
  | succ rounds ih =>
    refine .bind keeping_readFrame fun frame => .bind (.ofExcept _) fun fed => ?_
    obtain ⟨_ | response, body'⟩ := fed
    · exact ih body'
    · exact .bind (.update fun _ _ => id) fun _ => .pure _

theorem keeping_sender (rounds : ℕ) (sender : Sender) (command : Command) :
    Keeping start due (Sync.transport.sender rounds sender command ⟨some due⟩) := by
  cases sender with
  | send =>
    refine .bind (keeping_writeRequest command) fun _ => .bind keeping_readFrame fun _ => ?_
    exact .bind (.update fun _ _ => id) fun _ => .pure _
  | sendChunked =>
    exact .bind (keeping_writeRequest command) fun _ => keeping_readChunks rounds []

end Calls

/-- A call ends by its deadline exactly when it begins by then and every transfer but the first
after each setting of the timeout lasts no longer than what is left until the deadline when it
begins. -/
theorem ends_by_deadline_iff (rounds : ℕ) (sender : Sender) (command : Command) (d : Deadline)
    (c : Connection) (start : ℚ) {r : Except Exc Bytes} {c' : Connection} {s' : Clocked}
    (hrun : Reaches arriving (Sync.transport.sender rounds sender command d c, { now := start })
      (.pure (r, c'), s')) :
    (∀ due, d.deadline = some due → s'.now ≤ due) ↔
      ∀ due, d.deadline = some due → start ≤ due ∧ Punctual s'.later due := by
  refine forall₂_congr fun due hdue => ?_
  obtain ⟨d⟩ := d
  replace hdue : d = some due := hdue
  subst hdue
  have hstart : Inv start due { now := start } := by
    refine ⟨⟨fun h => ⟨h, fun _ hx => absurd hx List.not_mem_nil⟩, fun h => h.1⟩, ?_⟩
    exact fun h => absurd h Bool.false_ne_true
  have hend : Inv start due s' :=
    wp_result (Q := fun _ => Inv start due) (keeping_sender rounds sender command c _ hstart) hrun
  exact hend.inTime

/-- A server that sends the header of its answer at once and then the answer byte for byte, one
every half second. -/
def dripping (s : Clocked) : (op : NetOp) → op.Answer × Clocked
  | .monotonic => (s.now, s)
  | .settimeout _ timeout => (.ok (), { s with timeout := timeout, fresh := true })
  | .sendall _ _ => (.ok (), s.spend 0)
  | .recv _ size =>
    let chunk := if s.fresh then beBytes 4 else
      ((encodeUtf8 "ok|7".toList).drop s.later.length).take 1
    (if h : chunk.length ≤ size then .ok ⟨chunk, h⟩ else .error .other,
      s.spend (if s.fresh then 0 else match s.timeout with
        | some timeout => min (max timeout 0) (1 / 2)
        | none => 1 / 2))
  | op => (op.calm, s)

theorem arriving_dripping (s : Clocked) (op : NetOp) :
    arriving.step s op (dripping s op).1 (dripping s op).2 := by
  cases op with
  | monotonic => exact ⟨rfl, rfl⟩
  | sendall sock data => exact ⟨0, le_rfl, fun timeout _ => le_max_right _ _, rfl⟩
  | recv sock size =>
    refine ⟨_, ?_, ?_, rfl⟩
    · split
      · exact le_rfl
      · split
        · exact le_min (le_max_right _ _) (by norm_num)
        · norm_num
    · intro timeout htimeout
      rw [htimeout]
      split
      · exact le_max_right _ _
      · exact min_le_left _ _
  | _ => rfl

/-- The answer to a call with a deadline of one second. -/
def dripped : Clocked :=
  ⟨2, some 1, false, [⟨0, 1 / 2⟩, ⟨1 / 2, 1⟩, ⟨1, 3 / 2⟩, ⟨3 / 2, 2⟩]⟩

theorem reaches_dripped : Reaches arriving
    (Sync.transport.sender 0 .send .getHit ⟨some 1⟩ .pooled, { now := 0 })
    (.pure (.ok (encodeUtf8 "ok|7".toList), .pooled), dripped) :=
  reaches_run arriving_dripping (by decide +kernel)

theorem dripped_ends_by_deadline_iff :
    (∀ due, (⟨some 1⟩ : Deadline).deadline = some due → dripped.now ≤ due) ↔
      ∀ due, (⟨some 1⟩ : Deadline).deadline = some due → 0 ≤ due ∧ Punctual dripped.later due :=
  ends_by_deadline_iff 0 .send .getHit ⟨some 1⟩ .pooled 0 reaches_dripped

/-- The answer takes two seconds, each byte of it less than the timeout of the socket. -/
theorem dripping_answer_overruns : ¬ ∀ r c' s',
    Reaches arriving (Sync.transport.sender 0 .send .getHit ⟨some 1⟩ .pooled, { now := 0 })
      (.pure (r, c'), s') →
      s'.now ≤ 1 := by
  intro h
  have hdripped : (2 : ℚ) ≤ 1 := h _ _ dripped reaches_dripped
  norm_num at hdripped

end FqClient.ReadDeadline
