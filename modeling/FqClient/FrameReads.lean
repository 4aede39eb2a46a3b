import FqClient.Contracts
import FqClient.Exchanges
import FqClient.FramingRoundTrip

namespace FqClient

open Effects

/-! ## Reading one frame and no more -/

/-- A header is the encoding of the length that it announces. -/
theorem beBytes_ofBeBytes {header : Bytes} (h : header.length = frameHeaderSize) :
    beBytes (ofBeBytes header) = header := by
  match header, h with
  | [a, b, c, d], _ =>
    have ha := a.toNat_lt
    have hb := b.toNat_lt
    have hc := c.toNat_lt
    have hd := d.toNat_lt
    simp only [beBytes, ofBeBytes, List.foldl_cons, List.foldl_nil, List.cons.injEq, and_true]
    refine ⟨?_, ?_, ?_, ?_⟩
    all_goals
      apply UInt8.toNat_inj.mp
      rw [UInt8.toNat_ofNat']
      omega

theorem ofBeBytes_lt {header : Bytes} (h : header.length = frameHeaderSize) :
    ofBeBytes header < 2 ^ 32 := by
  match header, h with
  | [a, b, c, d], _ =>
    have ha := a.toNat_lt
    have hb := b.toNat_lt
    have hc := c.toNat_lt
    have hd := d.toNat_lt
    simp only [ofBeBytes, List.foldl_cons, List.foldl_nil]
    omega

/-- What a header announces, whether the frame is accepted or not. -/
theorem decodeFrameSize_eq {header : Bytes} (h : header.length = frameHeaderSize) (limit : ℕ) :
    decodeFrameSize header limit =
      if limit < ofBeBytes header then
        .error (.corruptedResponse (.frameTooLong (ofBeBytes header) limit))
      else .ok (ofBeBytes header) := if_neg (not_not.mpr h)

/-- Header and body make the frame of the body. -/
theorem frameOf_eq {header payload : Bytes} (h : header.length = frameHeaderSize)
    (hpayload : payload.length = ofBeBytes header) : header ++ payload = frameOf payload := by
  rw [frameOf, hpayload, beBytes_ofBeBytes h]

/-- How long the frame is that begins with these bytes, as far as they tell. -/
def frameLength (b : Bytes) : ℕ := frameHeaderSize + ofBeBytes (b.take frameHeaderSize)

theorem frameLength_append {b : Bytes} (h : frameHeaderSize ≤ b.length) (more : Bytes) :
    frameLength (b ++ more) = frameLength b := by
  unfold frameLength
  rw [List.take_append_of_le_length h]

/-- So many more bytes complete the header, or the frame. -/
def Asked (b : Bytes) (size : ℕ) : Prop :=
  b.length + size ≤ frameHeaderSize ∨ frameHeaderSize ≤ b.length ∧ b.length + size ≤ frameLength b

theorem Asked.part {b data : Bytes} {size : ℕ} (h : Asked b size) (hle : data.length ≤ size) :
    Asked (b ++ data) (size - data.length) := by
  rcases h with h | h
  · left
    rw [List.length_append]
    omega
  · right
    rw [frameLength_append h.1, List.length_append]
    omega

theorem Asked.length_le {b data : Bytes} {size : ℕ} (h : Asked b size) (hle : data.length ≤ size) :
    (b ++ data).length ≤ frameLength (b ++ data) := by
  rcases h with h | h
  · unfold frameLength
    rw [List.length_append]
    omega
  · rw [frameLength_append h.1, List.length_append]
    omega

namespace Package

/-- The bytes that a read returns. -/
def readData : (p : Package) → {sock : SockId} → {size : ℕ} → (p.readOp sock size).Answer → Bytes
  | .sync, _, _, a => Sync.readChunk a
  | .aio, _, _, .ok data => data.1
  | .aio, _, _, .error _ => []

end Package

/-- `Got b` says that the bytes `b` of a frame were read on the socket: a read that goes no further than
the frame adds what it returns. -/
structure FrameReader {σ : Type} (W : World Net σ) (p : Package) (sock : SockId)
    (Got : Bytes → σ → Prop) :
    Prop where
  setting : ∀ b, Keeps W NetOp.Setting (Got b)
  read : ∀ b s size, Got b s → Asked b size → W.permits s (p.readOp sock size) ∧
    ∀ a s', W.step s (p.readOp sock size) a s' → Got (b ++ p.readData a) s'

section FrameReader
variable {σ : Type} {W : World Net σ} {p : Package} {sock : SockId} {Got : Bytes → σ → Prop}

/-- So many bytes were read, or fewer when reading failed. -/
def ReadUpTo (Got : Bytes → σ → Prop) (size : ℕ) (b : Bytes) : Except Exc Bytes → σ → Prop
  | .ok data, s => data.length = size ∧ Got (b ++ data) s
  | .error _, s => ∃ more : Bytes, more.length < size ∧ Got (b ++ more) s

theorem FrameReader.readLoop (h : FrameReader W .sync sock Got) {size : ℕ} (rounds : ℕ)
    {b buffer : Bytes}
    {c : Connection} {s : σ} (hs : Got (b ++ buffer) s) (hasked : Asked b size)
    (hle : buffer.length ≤ size) (hrounds : size ≤ buffer.length + rounds) :
    wpm W (Sync.readLoop sock size rounds buffer) (fun r c' s' => c' = c ∧ ReadUpTo Got size b r s')
      c s := by
  refine Sync.wpm_readLoop_of (I := fun buffer s => Got (b ++ buffer) s) ?_ ?_ rounds hs hle hrounds
  · exact fun buffer s hsize hgot => ⟨rfl, hsize, hgot⟩
  · intro buffer s hmore hgot
    obtain ⟨hpermits, hstep⟩ := h.read _ s (size - buffer.length) hgot (hasked.part hmore.le)
    refine ⟨hpermits, fun answer s' hread => ?_⟩
    have hafter : Got (b ++ (buffer ++ Sync.readChunk answer)) s' := by
      rw [← List.append_assoc]
      exact hstep answer s' hread
    cases hfailed : Sync.failedRead answer with
    | some e =>
      rw [Sync.readChunk_failed hfailed, List.append_nil] at hafter
      exact ⟨rfl, buffer, hmore, hafter⟩
    | none => exact hafter

/-- `_read_exactly` of both packages. -/
theorem FrameReader.readExactly (h : FrameReader W p sock Got) {size : ℕ} (hsize : 0 < size) {b : Bytes}
    {c : Connection} {s : σ} (hs : Got b s) (hasked : Asked b size) :
    wpm W (p.readExactly sock size) (fun r c' s' => c' = c ∧ ReadUpTo Got size b r s') c s := by
  cases p with
  | sync =>
    apply h.readLoop size
    · rw [List.append_nil]
      exact hs
    · exact hasked
    · exact Nat.zero_le _
    · simp
  | aio =>
    obtain ⟨hpermits, hstep⟩ := h.read b s size hs hasked
    change wpm W (Aio.readExactly sock size) _ c s
    unfold Aio.readExactly
    rw [wpm_bind, wpm_perform_op]
    refine ⟨hpermits, fun a s' hread => ?_⟩
    have hgot := hstep a s' hread
    cases a with
    | ok data => exact ⟨rfl, data.2, hgot⟩
    | error fault => cases fault <;> exact ⟨rfl, [], hsize, hgot⟩

/-- One frame was read whole, or reading it failed before its end. -/
def ReadFrame (Got : Bytes → σ → Prop) : Except Exc Bytes → σ → Prop
  | .ok payload, s => payload.length < 2 ^ 32 ∧ Got (frameOf payload) s
  | .error _, s => ∃ part : Bytes, part.length < frameLength part ∧ Got part s

theorem readFrame_nothing (e : Exc) {s : σ} (hs : Got [] s) : ReadFrame Got (.error e) s :=
  ⟨[], by decide, hs⟩

theorem FrameReader.receive (h : FrameReader W p sock Got) {c : Connection} {s : σ} (hs : Got [] s) :
    wpm W (p.receive sock) (fun r c' s' => c' = c ∧ ReadFrame Got r s') c s := by
  unfold Package.receive
  rw [wpm_bind]
  refine wpm_mono (h.readExactly (by decide) hs (.inl (le_refl frameHeaderSize))) ?_
  intro r c₁ s₁ hpost
  obtain ⟨hc₁, hr⟩ := hpost
  rw [hc₁]
  cases r with
  | error e =>
    obtain ⟨part, hshort, hgot⟩ := hr
    refine ⟨rfl, part, ?_, hgot⟩
    unfold frameLength
    omega
  | ok header =>
    obtain ⟨hheader, hgot⟩ := hr
    rw [List.nil_append] at hgot
    have hlength : frameLength header = frameHeaderSize + ofBeBytes header := by
      unfold frameLength
      rw [List.take_of_length_le hheader.le]
    dsimp only
    rw [wpm_bind, wpm_self]
    dsimp only
    rw [wpm_bind, wpm_ofExcept]
    rw [decodeFrameSize_eq hheader]
    -- a length above the limit raises after the header, and an empty payload is no second read
    by_cases hlong : c.maxMessageSize < ofBeBytes header
    · rw [if_pos hlong]
      exact ⟨rfl, header, by omega, hgot⟩
    · rw [if_neg hlong]
      have hframe : ∀ {payload : Bytes} {s : σ}, payload.length = ofBeBytes header →
          Got (header ++ payload) s → payload.length < 2 ^ 32 ∧ Got (frameOf payload) s := by
        intro payload s hpayload hs
        exact ⟨hpayload ▸ ofBeBytes_lt hheader, frameOf_eq hheader hpayload ▸ hs⟩
      dsimp only
      by_cases hzero : ofBeBytes header = 0
      · rw [if_pos hzero]
        rw [← List.append_nil header] at hgot
        exact ⟨rfl, hframe hzero.symm hgot⟩
      · rw [if_neg hzero]
        have hasked : Asked header (ofBeBytes header) := by
          right
          omega
        refine wpm_mono (h.readExactly (Nat.pos_of_ne_zero hzero) hgot hasked) ?_
        intro r c₂ s₂ hpost
        obtain ⟨hc₂, hr⟩ := hpost
        refine ⟨hc₂, ?_⟩
        cases r with
        | ok payload => exact hframe hr.1 hr.2
        | error e =>
          obtain ⟨more, hshort, hgot'⟩ := hr
          refine ⟨header ++ more, ?_, hgot'⟩
          rw [frameLength_append hheader.ge, List.length_append]
          omega

/-- `_read_frame` of both packages, on a socket on which nothing of a frame has been read. -/
theorem FrameReader.readFrame (h : FrameReader W p sock Got) (d : Deadline) {c : Connection}
    (hsock : c.sock = some sock) {s : σ} (hs : Got [] s) :
    wpm W (p.transport.readFrame d) (fun r c' s' => c' = c ∧ ReadFrame Got r s') c s := by
  apply wpm_readFrame_of
  · intro hclosed
    rw [hsock] at hclosed
    cases hclosed
  · intro sock' hsock'
    obtain rfl : sock = sock' := Option.some.inj (hsock.symm.trans hsock')
    refine wpm_mono (wpm_arm_of p (J := Got []) (K := fun _ => Got []) ?_ ?_ ?_ ?_ ?_ hs) ?_
    · exact (h.setting []).mono fun op heq => heq ▸ trivial
    · exact fun s delay => h.setting [] s _ trivial
    · intro s timeout hs
      obtain ⟨hpermits, hstep⟩ := h.setting [] s (.settimeout sock timeout) trivial hs
      refine ⟨hpermits, fun a s' hset => ?_⟩
      have hgot := hstep a s' hset
      rcases a with (_ | _) | _ <;> exact hgot
    · exact fun _ hs => hs
    · exact fun _ hs => hs
    · intro r c₁ s₁ hpost
      obtain ⟨hc₁, hs₁⟩ := hpost
      rw [hc₁]
      cases r with
      | error e => exact ⟨rfl, readFrame_nothing e hs₁⟩
      | ok _ => exact h.receive hs₁

end FrameReader

end FqClient
