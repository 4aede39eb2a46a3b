import FqClient.Sync.Connection

namespace FqClient.Sync

open Effects

/-- An environment in which a socket has bytes to deliver: a read returns any part of them that it
asks for, at least one byte while there is one. -/
structure Supply {σ : Type} (W : World Net σ) (sock : SockId) where
  /-- The bytes on their way that nobody has read yet. -/
  unread : σ → Bytes
  /-- The state once that many of them are read. -/
  after : σ → ℕ → σ
  /-- How many bytes a reader may ask for. -/
  within : σ → ℕ → Prop
  after_zero : ∀ s, after s 0 = s
  after_after : ∀ s m n, after (after s m) n = after s (m + n)
  unread_after : ∀ s n, n ≤ (unread s).length → unread (after s n) = (unread s).drop n
  within_le : ∀ s m n, m ≤ n → within s n → within s m
  within_after : ∀ s m n, within s (m + n) → within (after s m) n
  permits : ∀ s size, 0 < size → within s size → W.permits s (.recv sock size)
  step : ∀ s size answer s', unread s ≠ [] → W.step s (.recv sock size) answer s' →
    ∃ chunk, answer = .ok chunk ∧ chunk.1 ≠ [] ∧ chunk.1 <+: unread s ∧
      s' = after s chunk.1.length

/-- What `_read_frame` does once the timeout is set. -/
def receiveFrame (sock : SockId) : ConnM Bytes := do
  let header ← readExactly sock frameHeaderSize
  let size ← Method.ofExcept (decodeFrameSize header (← Method.self).maxMessageSize)
  if size = 0 then return []
  else readExactly sock size

theorem readFrame_eq (d : Deadline) : readFrame d = (do
    let sock ← requireSocket
    applyTimeout sock d
    receiveFrame sock) := rfl

/-- How a read ends the loop: with no answer in time, with the loss or with the end of the stream. -/
def failedRead {size : ℕ} : Except OSFault {chunk : Bytes // chunk.length ≤ size} → Option Exc
  | .error .timeout => some (.timeoutError .whileReading)
  | .error .other => some (.connectionError .lostWhileReading)
  | .ok chunk => if chunk.1 = [] then some (.connectionError .closedByServer) else none

/-- The bytes that a read returns. -/
def readChunk {size : ℕ} : Except OSFault {chunk : Bytes // chunk.length ≤ size} → Bytes
  | .ok chunk => chunk.1
  | .error _ => []

theorem failedRead_nil {size : ℕ} {chunk : {chunk : Bytes // chunk.length ≤ size}} (h : chunk.1 = []) :
    failedRead (.ok chunk) = some (.connectionError .closedByServer) := if_pos h

theorem failedRead_chunk {size : ℕ} {chunk : {chunk : Bytes // chunk.length ≤ size}}
    (h : chunk.1 ≠ []) :
    failedRead (.ok chunk) = none := if_neg h

section Loop
variable {sock : SockId} {size rounds : ℕ} {buffer : Bytes}

theorem readLoop_full (h : ¬ buffer.length < size) :
    readLoop sock size rounds buffer = Pure.pure buffer := by
  cases rounds with
  | zero => rfl
  | succ rounds =>
    unfold readLoop
    rw [if_neg h]

/-- What the loop does with the answer to a read. -/
def readOn (sock : SockId) (size rounds : ℕ) (buffer : Bytes) {left : ℕ}
    (answer : Except OSFault {chunk : Bytes // chunk.length ≤ left}) : ConnM Bytes :=
  match failedRead answer with
  | some e => throw e
  | none => readLoop sock size rounds (buffer ++ readChunk answer)

theorem readLoop_recv (h : buffer.length < size) :
    readLoop sock size (rounds + 1) buffer =
      perform (.recv sock (size - buffer.length)) >>= readOn sock size rounds buffer := by
  conv_lhs => unfold readLoop
  rw [if_pos h]
  congr 1
  funext answer
  match answer with
  | .error .timeout => rfl
  | .error .other => rfl
  | .ok chunk =>
    unfold readOn failedRead
    dsimp only
    split <;> rfl

theorem readOn_failed {left : ℕ} {answer : Except OSFault {chunk : Bytes // chunk.length ≤ left}}
    {e : Exc} (h : failedRead answer = some e) :
    readOn sock size rounds buffer answer = throw e := by
  unfold readOn
  rw [h]

theorem readOn_some {left : ℕ} {answer : Except OSFault {chunk : Bytes // chunk.length ≤ left}}
    (h : failedRead answer = none) :
    readOn sock size rounds buffer answer = readLoop sock size rounds (buffer ++ readChunk answer) := by
  unfold readOn
  rw [h]

/-- A read that does not fail returns a byte at least, and no more than it asks for. -/
theorem length_readChunk {left : ℕ} {answer : Except OSFault {chunk : Bytes // chunk.length ≤ left}}
    (h : failedRead answer = none) :
    0 < (readChunk answer).length ∧ (readChunk answer).length ≤ left := by
  match answer with
  | .error .timeout => cases h
  | .error .other => cases h
  | .ok chunk =>
    refine ⟨List.length_pos_of_ne_nil fun hnil => ?_, chunk.2⟩
    rw [failedRead_nil hnil] at h
    cases h

theorem readChunk_failed {left : ℕ} {answer : Except OSFault {chunk : Bytes // chunk.length ≤ left}}
    {e : Exc} (h : failedRead answer = some e) : readChunk answer = [] := by
  cases answer with
  | error fault => rfl
  | ok chunk =>
    by_contra hchunk
    rw [failedRead_chunk hchunk] at h
    cases h

theorem failedRead_ne_corrupted {left : ℕ}
    {answer : Except OSFault {chunk : Bytes // chunk.length ≤ left}} {e : Exc}
    (h : failedRead answer = some e) (what : Corruption) : e ≠ .corruptedResponse what := by
  rintro rfl
  match answer with
  | .error .timeout => cases h
  | .error .other => cases h
  | .ok chunk =>
    unfold failedRead at h
    dsimp only at h
    split at h <;> cases h

variable {σ : Type} {W : World Net σ} {c : Connection}

/-- The rule of the loop: `I` holds before each read, of the bytes that are there. -/
theorem wpm_readLoop_of {I : Bytes → σ → Prop} {Q : Except Exc Bytes → Connection → σ → Prop}
    (hdone : ∀ buffer s, buffer.length = size → I buffer s → Q (.ok buffer) c s)
    (hread : ∀ buffer s, buffer.length < size → I buffer s →
      W.permits s (.recv sock (size - buffer.length)) ∧
      ∀ answer s', W.step s (.recv sock (size - buffer.length)) answer s' →
        match failedRead answer with
        | some e => Q (.error e) c s'
        | none => I (buffer ++ readChunk answer) s')
    (rounds : ℕ) {buffer : Bytes} {s : σ} (hs : I buffer s) (hle : buffer.length ≤ size)
    (hrounds : size ≤ buffer.length + rounds) :
    wpm W (readLoop sock size rounds buffer) Q c s := by
  induction rounds generalizing buffer s with
  | zero =>
    rw [readLoop_full (by omega)]
    exact hdone buffer s (by omega) hs
  | succ rounds ih =>
    by_cases hmore : buffer.length < size
    · obtain ⟨hpermits, hstep⟩ := hread buffer s hmore hs
      rw [readLoop_recv hmore, wpm_bind, wpm_perform_op]
      refine ⟨hpermits, fun answer s' h => ?_⟩
      have hafter := hstep answer s' h
      dsimp only
      cases hfailed : failedRead answer with
      | some e =>
        rw [hfailed] at hafter
        rw [readOn_failed hfailed]
        exact hafter
      | none =>
        rw [hfailed] at hafter
        rw [readOn_some hfailed]
        obtain ⟨hpos, hchunk⟩ := length_readChunk hfailed
        apply ih hafter
        · rw [List.length_append]
          omega
        · rw [List.length_append]
          omega
    · rw [readLoop_full hmore]
      exact hdone buffer s (by omega) hs

end Loop

section Supply
variable {σ : Type} {W : World Net σ} {sock : SockId} (supply : Supply W sock) {c : Connection}

theorem Supply.unread_rest {s : σ} {data rest : Bytes} (h : supply.unread s = data ++ rest) :
    supply.unread (supply.after s data.length) = rest := by
  rw [supply.unread_after, h, List.drop_left]
  rw [h, List.length_append]
  omega

/-- Whatever the parts they arrive in, the bytes that are there are read one after the other; when
they do not suffice they are all read, and the read after them decides. -/
theorem supply_readLoop_any {size : ℕ} {Q : Except Exc Bytes → Connection → σ → Prop} {buffer : Bytes}
    {s : σ} (hwithin : supply.within s (size - buffer.length)) (hle : buffer.length ≤ size)
    (hwhole : size - buffer.length ≤ (supply.unread s).length →
      Q (.ok (buffer ++ (supply.unread s).take (size - buffer.length))) c
        (supply.after s (size - buffer.length)))
    (hdrain : buffer.length + (supply.unread s).length < size → ∀ left answer s',
      W.step (supply.after s (supply.unread s).length) (.recv sock left) answer s' →
      ∃ e, failedRead answer = some e ∧ Q (.error e) c s')
    (rounds : ℕ) (hrounds : size ≤ buffer.length + rounds) :
    wpm W (readLoop sock size rounds buffer) Q c s := by
  refine wpm_readLoop_of (I := fun b t => ∃ n ≤ (supply.unread s).length,
    b = buffer ++ (supply.unread s).take n ∧ t = supply.after s n) ?_ ?_ rounds ?_ hle hrounds
  · rintro b t hb ⟨n, hn, rfl, rfl⟩
    rw [List.length_append, List.length_take_of_le hn] at hb
    have hsize : size - buffer.length = n := by omega
    rw [hsize] at hwhole
    exact hwhole hn
  · rintro b t hb ⟨n, hn, rfl, rfl⟩
    rw [List.length_append, List.length_take_of_le hn] at hb ⊢
    have hleft : n + (size - (buffer.length + n)) = size - buffer.length := by omega
    refine ⟨supply.permits _ _ (by omega) (supply.within_after s n _ (by rwa [hleft])), ?_⟩
    intro answer s' hstep
    by_cases hnone : n = (supply.unread s).length
    · subst hnone
      obtain ⟨e, he, hQ⟩ := hdrain hb _ answer s' hstep
      rw [he]
      exact hQ
    · have hunread := supply.unread_after s n hn
      have hmore : supply.unread (supply.after s n) ≠ [] := by
        rw [hunread, Ne, List.drop_eq_nil_iff]
        omega
      obtain ⟨chunk, rfl, hchunk, hinitial, rfl⟩ := supply.step _ _ answer s' hmore hstep
      rw [hunread] at hinitial
      have hlen := hinitial.length_le
      rw [List.length_drop] at hlen
      rw [failedRead_chunk hchunk]
      refine ⟨n + chunk.1.length, by omega, ?_, supply.after_after s n _⟩
      rw [List.append_assoc, readChunk, List.take_add, ← List.prefix_iff_eq_take.mp hinitial]
  · exact ⟨0, Nat.zero_le _, (List.append_nil buffer).symm, (supply.after_zero s).symm⟩

/-- Whatever the parts it arrives in, the data is read whole, and nothing after it. -/
theorem supply_readLoop {size : ℕ} {rest : Bytes} {Q : Except Exc Bytes → Connection → σ → Prop}
    (rounds : ℕ) {buffer data : Bytes} {s : σ} (hunread : supply.unread s = data ++ rest)
    (hwithin : supply.within s data.length) (hsize : buffer.length + data.length = size)
    (hrounds : data.length ≤ rounds)
    (h : Q (.ok (buffer ++ data)) c (supply.after s data.length)) :
    wpm W (readLoop sock size rounds buffer) Q c s := by
  have hleft : size - buffer.length = data.length := by omega
  have hlen : (supply.unread s).length = data.length + rest.length := by
    rw [hunread, List.length_append]
  refine supply_readLoop_any supply ?_ (by omega) (fun _ => ?_) (fun hshort => ?_) rounds (by omega)
  · rwa [hleft]
  · rw [hleft, hunread, List.take_left]
    exact h
  · omega

/-- The bytes that are there do not complete the data: they are all read, and the read after them
decides. -/
theorem supply_readLoop_drain {size : ℕ} {Q : Except Exc Bytes → Connection → σ → Prop}
    (rounds : ℕ) {buffer : Bytes} {s : σ} (hwithin : supply.within s (size - buffer.length))
    (hshort : buffer.length + (supply.unread s).length < size)
    (hrounds : size ≤ buffer.length + rounds)
    (h : ∀ left answer s',
      W.step (supply.after s (supply.unread s).length) (.recv sock left) answer s' →
      ∃ e, failedRead answer = some e ∧ Q (.error e) c s') :
    wpm W (readLoop sock size rounds buffer) Q c s := by
  refine supply_readLoop_any supply hwithin (by omega) (fun hwhole => ?_) (fun _ => h) rounds hrounds
  omega

/-- A frame on its way is read, header and body, and nothing after it. -/
theorem supply_receiveFrame {body rest : Bytes} {Q : Except Exc Bytes → Connection → σ → Prop}
    {s : σ} (hunread : supply.unread s = beBytes body.length ++ body ++ rest)
    (hwithin : supply.within s (frameHeaderSize + body.length)) (hlength : body.length < 2 ^ 32)
    (hfits : body.length ≤ c.maxMessageSize)
    (h : Q (.ok body) c (supply.after s (frameHeaderSize + body.length))) :
    wpm W (receiveFrame sock) Q c s := by
  have hheader : supply.within s frameHeaderSize :=
    supply.within_le s _ _ (Nat.le_add_right _ _) hwithin
  rw [List.append_assoc] at hunread
  unfold receiveFrame
  rw [wpm_bind]
  apply supply_readLoop supply _ hunread hheader rfl (le_refl _)
  dsimp only [List.nil_append]
  rw [wpm_bind, wpm_self]
  dsimp only
  rw [wpm_bind, wpm_ofExcept, decodeFrameSize_beBytes hlength hfits]
  dsimp only
  have hbody := supply.unread_rest hunread
  by_cases hempty : body.length = 0
  · have hnil : body = [] := List.length_eq_zero_iff.mp hempty
    rw [if_pos hempty]
    rw [hnil] at h
    exact h
  · rw [if_neg hempty]
    apply supply_readLoop supply _ hbody (supply.within_after s _ _ hwithin) (by simp) (le_refl _)
    rw [supply.after_after]
    exact h

/-- The bytes that are there do not complete the frame: they are all read, and the read after them
decides. -/
theorem supply_receiveFrame_drain {body missing : Bytes}
    {Q : Except Exc Bytes → Connection → σ → Prop} {s : σ}
    (hunread : supply.unread s ++ missing = beBytes body.length ++ body) (hmissing : missing ≠ [])
    (hwithin : supply.within s (frameHeaderSize + body.length)) (hlength : body.length < 2 ^ 32)
    (hfits : body.length ≤ c.maxMessageSize)
    (h : ∀ size answer s',
      W.step (supply.after s (supply.unread s).length) (.recv sock size) answer s' →
      ∃ e, failedRead answer = some e ∧ Q (.error e) c s') :
    wpm W (receiveFrame sock) Q c s := by
  have hheader : supply.within s frameHeaderSize :=
    supply.within_le s _ _ (Nat.le_add_right _ _) hwithin
  have htotal : (supply.unread s).length + missing.length = frameHeaderSize + body.length := by
    rw [← List.length_append, hunread, List.length_append, length_beBytes]
  have hpos : 0 < missing.length := List.length_pos_iff.mpr hmissing
  unfold receiveFrame
  rw [wpm_bind]
  by_cases hlate : frameHeaderSize ≤ (supply.unread s).length
  · -- the header is there, the body is not
    obtain ⟨part, hpart⟩ : ∃ part, supply.unread s = beBytes body.length ++ part := by
      have hinitial : beBytes body.length <+: supply.unread s :=
        List.prefix_of_prefix_length_le ⟨body, rfl⟩ ⟨missing, hunread⟩ hlate
      exact hinitial.imp fun part hpart => hpart.symm
    have hlen : (supply.unread s).length = frameHeaderSize + part.length := by
      rw [hpart, List.length_append, length_beBytes]
    apply supply_readLoop supply _ hpart hheader rfl (le_refl _)
    dsimp only [List.nil_append]
    rw [wpm_bind, wpm_self]
    dsimp only
    rw [wpm_bind, wpm_ofExcept, decodeFrameSize_beBytes hlength hfits]
    dsimp only
    have hrest := supply.unread_rest hpart
    rw [if_neg (by omega)]
    apply supply_readLoop_drain supply
    · exact supply.within_after s _ _ hwithin
    · rw [hrest, List.length_nil]
      omega
    · simp
    · rw [hrest, supply.after_after, length_beBytes, ← hlen]
      exact h
  · apply supply_readLoop_drain supply
    · exact hheader
    · rw [List.length_nil]
      omega
    · omega
    · exact h

end Supply

end FqClient.Sync
