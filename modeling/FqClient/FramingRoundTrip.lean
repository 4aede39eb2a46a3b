import FqClient.Deadlines
import FqClient.Sync.Reading

namespace FqClient

open Effects

/-! ## A server that sends frames and closes -/

/-- What a server sends to a socket before it closes it. -/
structure Sending where
  sock : SockId
  /-- The frames it means to send. -/
  frames : List Bytes
  /-- The bytes of them that it sends. -/
  stream : Bytes
  /-- A time that the reading is over by. -/
  ends : ℚ

namespace Sending

variable (x : Sending)

/-- So many bytes, from the first one that is not read yet, lie in one frame. -/
def InFrame (read size : ℕ) : Prop :=
  ∃ before frame later, x.frames = before ++ frame :: later ∧
    before.flatten.length ≤ read ∧ read + size ≤ before.flatten.length + frame.length

/-- A read may ask for bytes of the current frame only. -/
def permits (read : ℕ) : NetOp → Prop
  | .monotonic => True
  | .settimeout sock _ => sock = x.sock
  | .recv sock size => sock = x.sock ∧ x.InFrame read size
  | _ => False

/-- A read returns any part of the bytes that are there, and reports the end of the stream after
them. -/
def reads (read size : ℕ) (answer : Except OSFault {chunk : Bytes // chunk.length ≤ size})
    (read' : ℕ) : Prop :=
  if read < x.stream.length then
    ∃ chunk, answer = .ok chunk ∧ chunk.1 ≠ [] ∧ chunk.1 <+: x.stream.drop read ∧
      read' = read + chunk.1.length
  else ((∃ chunk, answer = .ok chunk ∧ chunk.1 = []) ∨ answer = .error .other) ∧ read' = read

def step (read : ℕ) : (op : NetOp) → op.Answer → ℕ → Prop
  | .monotonic, now, read' => now < x.ends ∧ read' = read
  | .settimeout _ _, answer, read' => answer = .ok () ∧ read' = read
  | .recv _ size, answer, read' => x.reads read size answer read'
  | _, _, _ => False

/-- The state is the number of bytes that were read. -/
def world : World Net ℕ where
  permits := x.permits
  step := x.step

theorem reads_answers (read size : ℕ) (hsize : 0 < size) :
    ∃ answer read', x.reads read size answer read' := by
  unfold reads
  by_cases hmore : read < x.stream.length
  · refine ⟨.ok ⟨(x.stream.drop read).take size, List.length_take_le _ _⟩,
      read + ((x.stream.drop read).take size).length, ?_⟩
    rw [if_pos hmore]
    refine ⟨_, rfl, ?_, List.take_prefix _ _, rfl⟩
    apply List.ne_nil_of_length_pos
    rw [List.length_take, List.length_drop]
    omega
  · refine ⟨.error .other, read, ?_⟩
    rw [if_neg hmore]
    exact ⟨Or.inr rfl, rfl⟩

def supply : Sync.Supply x.world.live x.sock where
  unread read := x.stream.drop read
  after read n := read + n
  within := x.InFrame
  after_zero _ := rfl
  after_after _ _ _ := Nat.add_assoc _ _ _
  unread_after read n _ := List.drop_drop.symm
  within_le read m n hle := by
    intro ⟨before, frame, later, hframes, hfrom, hto⟩
    exact ⟨before, frame, later, hframes, hfrom, by omega⟩
  within_after read m n := by
    intro ⟨before, frame, later, hframes, hfrom, hto⟩
    exact ⟨before, frame, later, hframes, by omega, by omega⟩
  permits read size hsize hwithin := by
    refine ⟨⟨rfl, hwithin⟩, ?_⟩
    exact x.reads_answers read size hsize
  step read size answer read' hmore hstep := by
    have hlt : read < x.stream.length := by
      by_contra hnot
      exact hmore (List.drop_eq_nil_of_le (by omega))
    have hreads : x.reads read size answer read' := hstep
    unfold reads at hreads
    rwa [if_pos hlt] at hreads

/-- After the last byte every read fails with a lost connection. -/
theorem lost_after_stream {read size : ℕ} {answer : (NetOp.recv x.sock size).Answer} {read' : ℕ}
    (hnone : x.stream.length ≤ read) (hstep : x.reads read size answer read') :
    ∃ fault, Sync.failedRead answer = some (.connectionError fault) := by
  unfold reads at hstep
  rw [if_neg (not_lt.mpr hnone)] at hstep
  obtain ⟨⟨chunk, hanswer, hchunk⟩ | hanswer, -⟩ := hstep
  · refine ⟨.closedByServer, ?_⟩
    rw [hanswer]
    exact if_pos hchunk
  · refine ⟨.lostWhileReading, ?_⟩
    rw [hanswer]
    rfl

/-- Reading is over before the deadline. -/
def InTime (d : Deadline) : Prop := ∀ due, d.deadline = some due → x.ends ≤ due

theorem proceeds {d : Deadline} (hd : x.InTime d) {c : Connection} {read : ℕ}
    (R : Except Exc Unit → Connection → ℕ → Prop) (h : R (.ok ()) c read) :
    wpm x.world.live (Sync.applyTimeout x.sock d) R c read := by
  have hpunctual : Punctual x.world.live read d := by
    refine ⟨⟨trivial, x.ends - 1, read, by linarith, rfl⟩, ?_⟩
    intro now read' ⟨hnow, hread'⟩
    exact ⟨hread', fun due hdue => lt_of_lt_of_le hnow (hd due hdue)⟩
  unfold Sync.applyTimeout
  rw [wpm_bind]
  apply hpunctual.wpm_check
  dsimp only
  rw [wpm_bind]
  apply hpunctual.wpm_remaining
  intro remaining hpos
  have hnot : ¬ remaining.any (· < 0) = true := by
    cases remaining with
    | none => simp
    | some left => simpa using (hpos left rfl).le
  dsimp only
  rw [if_neg hnot, wpm_bind, wpm_perform_op]
  refine ⟨⟨rfl, .ok (), read, rfl, rfl⟩, ?_⟩
  intro answer read' ⟨hanswer, hread'⟩
  rw [hanswer, hread']
  exact h

/-- A read in time is the reading of a frame. -/
theorem live_readFrame {d : Deadline} (hd : x.InTime d) {c : Connection} (hsock : c.sock = some x.sock)
    {read : ℕ} {Q : Except Exc Bytes → Connection → ℕ → Prop}
    (h : wpm x.world.live (Sync.receiveFrame x.sock) Q c read) :
    wpm x.world.live (Sync.readFrame d) Q c read := by
  rw [Sync.readFrame_eq, wpm_bind, wpm_requireSocket, hsock]
  dsimp only
  rw [wpm_bind]
  exact x.proceeds hd _ h

end Sending

/-! ## Reading frame after frame -/

/-- Calls of `_read_frame` one after the other, up to the first that raises. -/
def readFrames : List Deadline → ConnM (List Bytes × Option Exc)
  | [] => return ([], none)
  | d :: ds => do
    match ← Method.attempt (Sync.readFrame d) with
    | .error e => return ([], some e)
    | .ok payload => do
      let (payloads, failure) ← readFrames ds
      return (payload :: payloads, failure)

/-- The bytes of a payload that fits a frame. -/
def frameOf (payload : Bytes) : Bytes := beBytes payload.length ++ payload

theorem length_frameOf (payload : Bytes) :
    (frameOf payload).length = frameHeaderSize + payload.length := by
  rw [frameOf, List.length_append, length_beBytes]

theorem frameOf_ne_nil (payload : Bytes) : frameOf payload ≠ [] := by
  apply List.ne_nil_of_length_pos
  rw [length_frameOf]
  exact Nat.add_pos_left (by decide) _

theorem mapM_encodeFrame {payloads : List Bytes} (h : ∀ p ∈ payloads, p.length < 2 ^ 32) :
    payloads.mapM encodeFrame = .ok (payloads.map frameOf) := by
  induction payloads with
  | nil => rfl
  | cons p ps ih =>
    rw [List.mapM_cons, encodeFrame_ok (h p List.mem_cons_self),
      ih fun q hq => h q (List.mem_cons_of_mem _ hq)]
    rfl

section Read
variable {x : Sending} {c : Connection}

/-- The frames are read one after the other; what follows is read from where they end. -/
theorem live_readFrames (hsock : c.sock = some x.sock) {payloads : List Bytes}
    (hframe : ∀ p ∈ payloads, p.length < 2 ^ 32)
    (hfits : ∀ p ∈ payloads, p.length ≤ c.maxMessageSize) (done later : List Bytes) (tail : Bytes)
    (hframes : x.frames = done ++ payloads.map frameOf ++ later)
    (hstream : x.stream = done.flatten ++ (payloads.map frameOf).flatten ++ tail)
    {ds ds' : List Deadline} (hcount : ds.length = payloads.length) (htime : ∀ d ∈ ds, x.InTime d)
    {R : Except Exc (List Bytes × Option Exc) → Connection → ℕ → Prop}
    (h : wpm x.world.live (readFrames ds')
      (fun r => R (r.map fun out => (payloads ++ out.1, out.2))) c
      (done.flatten.length + (payloads.map frameOf).flatten.length)) :
    wpm x.world.live (readFrames (ds ++ ds')) R c done.flatten.length := by
  induction payloads generalizing done ds R with
  | nil =>
    have hnil : ds = [] := List.length_eq_zero_iff.mp hcount
    rw [hnil]
    refine wpm_mono h ?_
    intro r c' read hr
    cases r <;> exact hr
  | cons p ps ih =>
    cases ds with
    | nil => cases hcount
    | cons d ds =>
      have hp : p.length < 2 ^ 32 := hframe p List.mem_cons_self
      have hunread : x.stream.drop done.flatten.length =
          beBytes p.length ++ p ++ ((ps.map frameOf).flatten ++ tail) := by
        rw [hstream, List.append_assoc, List.drop_left, List.map_cons, List.flatten_cons]
        simp only [frameOf, List.append_assoc]
      have hwithin : x.InFrame done.flatten.length (frameHeaderSize + p.length) := by
        refine ⟨done, frameOf p, ps.map frameOf ++ later, ?_, le_refl _, ?_⟩
        · rw [hframes, List.map_cons, List.append_assoc, List.cons_append]
        · rw [length_frameOf]
      -- the frame that was read joins those that are done
      have hdone : (done ++ [frameOf p]).flatten.length =
          done.flatten.length + (frameHeaderSize + p.length) := by
        rw [List.flatten_concat, List.length_append, length_frameOf]
      rw [List.cons_append]
      unfold readFrames
      rw [wpm_bind, wpm_attempt]
      apply x.live_readFrame (htime d List.mem_cons_self) hsock
      apply Sync.supply_receiveFrame x.supply hunread hwithin hp (hfits p List.mem_cons_self)
      dsimp only
      rw [wpm_bind]
      change wpm _ _ _ c (done.flatten.length + (frameHeaderSize + p.length))
      rw [← hdone]
      apply ih
      · exact fun q hq => hframe q (List.mem_cons_of_mem _ hq)
      · exact fun q hq => hfits q (List.mem_cons_of_mem _ hq)
      · rw [hframes, List.map_cons, List.append_assoc, List.append_assoc, List.append_assoc]
        rfl
      · rw [hstream, List.map_cons, List.flatten_concat, List.flatten_cons]
        simp only [List.append_assoc]
      · exact Nat.succ.inj hcount
      · exact fun d' hd' => htime d' (List.mem_cons_of_mem _ hd')
      · rw [hdone]
        rw [List.map_cons, List.flatten_cons, List.length_append, length_frameOf,
          ← Nat.add_assoc] at h
        refine wpm_mono h ?_
        intro r c' read hr
        cases r <;> exact hr

end Read

/-- Framing round trip over any segmentation: the frames of any payloads that fit are read back in
order, whatever parts they arrive in, and no byte beyond the current frame is asked for. When the
bytes end inside a frame, the payloads before it are returned and its read loses the connection. -/
theorem frames_round_trip (c : Connection) (sock : SockId) (hsock : c.sock = some sock)
    (hlimit : c.maxMessageSize < 2 ^ 32) (payloads : List Bytes)
    (hpayloads : ∀ p ∈ payloads, p.length ≤ c.maxMessageSize) (ends : ℚ) (ds : List Deadline)
    (hcount : ds.length = payloads.length)
    (htime : ∀ d ∈ ds, ∀ due, d.deadline = some due → ends ≤ due) :
    ∃ frames, payloads.mapM encodeFrame = .ok frames ∧
      Ends (Sending.world ⟨sock, frames, frames.flatten, ends⟩) (readFrames ds c)
        (fun out read => out = (.ok (payloads, none), c) ∧ read = frames.flatten.length) 0 ∧
      ∀ before frame later part missing, frames = before ++ frame :: later →
        frame = part ++ missing → missing ≠ [] →
        Ends (Sending.world ⟨sock, frames, before.flatten ++ part, ends⟩) (readFrames ds c)
          (fun out _ => ∃ fault, out.1 =
            .ok (payloads.take before.length, some (.connectionError fault))) 0 := by
  have hframe : ∀ p ∈ payloads, p.length < 2 ^ 32 :=
    fun p hp => lt_of_le_of_lt (hpayloads p hp) hlimit
  refine ⟨payloads.map frameOf, mapM_encodeFrame hframe, ?_, ?_⟩
  · apply ends_of_live
    change wpm _ (readFrames ds) (fun r c' read => (r, c') = (.ok (payloads, none), c) ∧
      read = (payloads.map frameOf).flatten.length) c ([] : List Bytes).flatten.length
    rw [← List.append_nil ds]
    apply live_readFrames (x := ⟨sock, payloads.map frameOf, (payloads.map frameOf).flatten, ends⟩)
      hsock hframe hpayloads [] [] [] (by simp) (by simp) hcount htime
    refine ⟨?_, by simp⟩
    change (Except.ok (payloads ++ [], none), c) = _
    rw [List.append_nil]
  · intro before frame later part missing hsplit hpart hmissing
    obtain ⟨ps, ps', hps, hbefore, hrest⟩ := List.map_eq_append_iff.mp hsplit
    obtain ⟨p, ps'', hps', hp, hlater⟩ := List.map_eq_cons_iff.mp hrest
    have hmem : p ∈ payloads := by
      rw [hps, hps']
      simp
    have hmem' : ∀ q ∈ ps, q ∈ payloads := by
      intro q hq
      rw [hps]
      exact List.mem_append_left _ hq
    have hlen : before.length = ps.length := by rw [← hbefore, List.length_map]
    -- the reads of the payloads before the cut, and the read that finds it
    have hds : (ds.take ps.length).length = ps.length := by
      rw [List.length_take, hcount, hps, List.length_append]
      omega
    obtain ⟨d, ds', hdrop⟩ : ∃ d ds', ds.drop ps.length = d :: ds' := by
      apply List.exists_cons_of_length_pos
      rw [List.length_drop, hcount, hps, hps', List.length_append, List.length_cons]
      omega
    have hd : d ∈ ds := by
      apply List.mem_of_mem_drop (i := ps.length)
      rw [hdrop]
      exact List.mem_cons_self
    have hd' : Sending.InTime ⟨sock, payloads.map frameOf, before.flatten ++ part, ends⟩ d :=
      htime d hd
    apply ends_of_live
    change wpm _ (readFrames ds) (fun r _ _ => ∃ fault, r =
      .ok (payloads.take before.length, some (.connectionError fault))) c
      ([] : List Bytes).flatten.length
    rw [← List.take_append_drop ps.length ds, hdrop]
    refine live_readFrames (x := ⟨sock, payloads.map frameOf, before.flatten ++ part, ends⟩) hsock
      (fun q hq => hframe q (hmem' q hq)) (fun q hq => hpayloads q (hmem' q hq)) [] (frame :: later)
      part ?_ ?_ hds (fun d' hd' => htime d' (List.mem_of_mem_take hd')) ?_
    · rw [hsplit, hbefore]
      rfl
    · rw [hbefore]
      rfl
    · rw [hbefore]
      unfold readFrames
      rw [wpm_bind, wpm_attempt]
      rw [List.flatten_nil, List.length_nil, Nat.zero_add]
      have hunread : (before.flatten ++ part).drop before.flatten.length ++ missing =
          beBytes p.length ++ p := by
        rw [List.drop_left, ← hpart, ← hp]
        rfl
      apply Sending.live_readFrame _ hd' hsock
      refine Sync.supply_receiveFrame_drain (Sending.supply _) hunread hmissing ?_ (hframe p hmem)
        (hpayloads p hmem) ?_
      · refine ⟨before, frame, later, hsplit, le_refl _, ?_⟩
        rw [← hp, length_frameOf]
      · intro size answer read' hstep
        have hall : (before.flatten ++ part).length ≤ before.flatten.length +
            ((before.flatten ++ part).drop before.flatten.length).length := by
          rw [List.drop_left, List.length_append]
        obtain ⟨fault, hfault⟩ := Sending.lost_after_stream _ hall hstep
        refine ⟨_, hfault, fault, ?_⟩
        rw [hps, hlen, List.take_left]
        exact congrArg (fun list => Except.ok (list, some (Exc.connectionError fault)))
          (List.append_nil ps)

theorem empty_payload_round_trip :
    Ends (Sending.world ⟨3, [[0, 0, 0, 0], [0, 0, 0, 2, 7, 8]], [0, 0, 0, 0, 0, 0, 0, 2, 7, 8], 1⟩)
      (readFrames [⟨none⟩, ⟨some 1⟩] Connection.pooled)
      (fun out read => out = (.ok ([[], [7, 8]], none), Connection.pooled) ∧ read = 10) 0 := by
  have hfits : ∀ p ∈ [[], [7, 8]], List.length (p : Bytes) ≤ Connection.pooled.maxMessageSize := by
    decide
  obtain ⟨frames, hframes, hread, -⟩ := frames_round_trip Connection.pooled 3 rfl (by decide)
    [[], [7, 8]] hfits 1 [⟨none⟩, ⟨some 1⟩] rfl (by simp)
  have heq : frames = [[0, 0, 0, 0], [0, 0, 0, 2, 7, 8]] := (Except.ok.inj hframes).symm
  rw [heq] at hread
  exact hread

end FqClient
