import FqClient.Packages
import FqClient.Sync.Reading

namespace FqClient

open Effects

/-! Contracts of what the two transports do in their own ways, for any environment. -/

/-- An operation that reads the clock or sets a timeout. -/
def NetOp.Setting : NetOp → Prop
  | .monotonic | .settimeout _ _ | .enterTimeout _ => True
  | _ => False

/-- The operations in `P` are permitted where `J` holds, and keep it. -/
def Keeps {σ : Type} (W : World Net σ) (P : NetOp → Prop) (J : σ → Prop) : Prop :=
  ∀ s op, P op → J s → W.permits s op ∧ ∀ a s', W.step s op a s' → J s'

section Keeps
variable {σ κ α : Type} {W : World Net σ} {P : NetOp → Prop} {E : Exc → Prop} {J : σ → Prop}

theorem wpm_of_leaves (hkeeps : Keeps W P J) {m : Method Net κ Exc α} (hm : m.Leaves P E) {c : κ}
    {s : σ} (hs : J s) : wpm W m (fun r c' s' => (c' = c ∧ Raises E r) ∧ J s') c s :=
  wpm_of_anything (fun s o hP hJ => (hkeeps s o hP hJ).1)
    (fun s o a s' hP hJ => (hkeeps s o hP hJ).2 a s') (hm c) hs

theorem wpm_of_only (hkeeps : Keeps W P J) {m : Method Net κ Exc α} (hm : m.Only P E) {c : κ}
    {s : σ} (hs : J s) : wpm W m (fun r _ s' => Raises E r ∧ J s') c s :=
  wpm_of_anything (fun s o hP hJ => (hkeeps s o hP hJ).1)
    (fun s o a s' hP hJ => (hkeeps s o hP hJ).2 a s') (hm c) hs

end Keeps

/-- The method only sets timeouts, and neither changes its object nor raises what reading and
parsing raise. -/
abbrev Sets {κ α : Type} (m : Method Net κ Exc α) : Prop :=
  m.Leaves NetOp.Setting fun e => ∀ what, e ≠ .corruptedResponse what

theorem Clocks.sets {κ α : Type} {m : Method Net κ Exc α} (hm : Clocks m) : Sets m := by
  refine hm.mono ?_ ?_
  · intro op h
    rw [h]
    trivial
  · intro e h what heq
    rw [h] at heq
    cases heq

theorem Sync.sets_applyTimeout (sock : SockId) (d : Deadline) : Sets (Sync.applyTimeout sock d) := by
  refine (clocks_check d).sets.bind fun _ => (clocks_remaining d).sets.bind fun remaining => ?_
  refine .ite (.throw fun what h => by cases h) (.bind (.perform (by exact trivial)) fun r => ?_)
  rcases r with (_ | _) | _
  · exact .throw fun what h => by cases h
  · exact .throw fun what h => by cases h
  · exact .pure _

/-! ## Writing a request -/

/-- The operation that writes a frame. -/
def Package.writeOp : Package → SockId → Bytes → NetOp
  | .sync, sock, frame => .sendall sock frame
  | .aio, sock, frame => .writeDrain sock frame

/-- How the write ends the request. -/
def Package.wrote : (p : Package) → {sock : SockId} → {frame : Bytes} →
    (p.writeOp sock frame).Answer → Except Exc Unit
  | .sync, _, _, .ok _ | .aio, _, _, .ok _ => .ok ()
  | .sync, _, _, .error .timeout | .aio, _, _, .error .timeout => .error (.timeoutError .whileSending)
  | .sync, _, _, .error .other | .aio, _, _, .error .other =>
    .error (.connectionError .lostWhileSending)
  | .aio, _, _, .error .cancelled => .error .cancelled

/-- The flag goes up unless the write was lost or cancelled. -/
def Connection.noteWrite (c : Connection) : Except Exc Unit → Connection
  | .ok _ | .error (.timeoutError _) => { c with requestInFlight := true }
  | .error _ => c

namespace Connection

variable (c : Connection) (r : Except Exc Unit)

@[simp] theorem settings_noteWrite : (c.noteWrite r).settings = c.settings := by
  unfold noteWrite
  split <;> rfl

@[simp] theorem sock_noteWrite : (c.noteWrite r).sock = c.sock := by
  unfold noteWrite
  split <;> rfl

@[simp] theorem maxMessageSize_noteWrite : (c.noteWrite r).maxMessageSize = c.maxMessageSize := by
  unfold noteWrite
  split <;> rfl

end Connection

section Write
variable {σ : Type} {W : World Net σ} {J : σ → Prop}

/-- A request raises before it writes, or writes its frame once. -/
theorem wpm_writeRequest (p : Package) (hkeeps : Keeps W NetOp.Setting J) (command : Command)
    (d : Deadline) {Q : Except Exc Unit → Connection → σ → Prop} {c : Connection} {s : σ} (hs : J s)
    (hraise : ∀ e s', (∀ what, e ≠ .corruptedResponse what) → J s' → Q (.error e) c s')
    (hwrite : ∀ sock frame s', J s' → c.sock = some sock →
      command.payload.length ≤ c.maxMessageSize → encodeFrame command.payload = .ok frame →
      W.permits s' (p.writeOp sock frame) ∧ ∀ a s₁, W.step s' (p.writeOp sock frame) a s₁ →
        Q (p.wrote a) (c.noteWrite (p.wrote a)) s₁) :
    wpm W (p.transport.writeRequest command d) Q c s := by
  -- what precedes the writes of both packages
  have hbegin : ∀ {m : SockId → ConnM Unit} {s : σ}, J s →
      (∀ sock s', J s' → c.sock = some sock → command.payload.length ≤ c.maxMessageSize →
        wpm W (m sock) Q c s') →
      wpm W (do
        Method.ofExcept (checkRequestSize command.payload (← Method.self).maxMessageSize)
        let sock ← requireSocket
        m sock) Q c s := by
    intro m s hs hm
    rw [wpm_bind, wpm_self]
    dsimp only
    rw [wpm_bind, wpm_ofExcept]
    cases hsize : checkRequestSize command.payload c.maxMessageSize with
    | error e =>
      refine hraise e s ?_ hs
      rw [checkRequestSize] at hsize
      split at hsize <;> cases hsize
      exact fun _ => Exc.noConfusion
    | ok _ =>
      have hlimit : command.payload.length ≤ c.maxMessageSize := by
        rw [checkRequestSize] at hsize
        split at hsize
        · cases hsize
        next hle => exact not_lt.mp hle
      dsimp only
      rw [wpm_bind, wpm_requireSocket]
      cases hsock : c.sock with
      | none => exact hraise _ s (fun _ => Exc.noConfusion) hs
      | some sock => exact hm sock s hs hsock hlimit
  -- a payload too long for its header is no corrupted response
  have hoverflow : ∀ {e : Exc}, encodeFrame command.payload = .error e →
      ∀ what, e ≠ .corruptedResponse what := by
    intro e h
    unfold encodeFrame at h
    split at h <;> cases h
    exact fun _ => Exc.noConfusion
  cases p with
  | sync =>
    apply hbegin hs
    intro sock s₁ hs₁ hsock hlimit
    rw [wpm_bind]
    refine wpm_mono (wpm_of_leaves hkeeps (Sync.sets_applyTimeout sock d) hs₁) ?_
    intro r c' s₂ ⟨⟨hc, hr⟩, hs₂⟩
    rw [hc]
    cases r with
    | error e => exact hraise e s₂ (hr e rfl) hs₂
    | ok _ =>
      dsimp only
      rw [wpm_bind, wpm_ofExcept]
      cases hframe : encodeFrame command.payload with
      | error e => exact hraise e s₂ (hoverflow hframe) hs₂
      | ok frame =>
        dsimp only
        rw [wpm_bind]
        obtain ⟨hpermits, hstep⟩ := hwrite sock frame s₂ hs₂ hsock hlimit hframe
        refine ⟨hpermits, fun answer s₃ h => ?_⟩
        have hQ := hstep answer s₃ h
        match answer with
        | .ok _ => exact hQ
        | .error .timeout => exact hQ
        | .error .other => exact hQ
  | aio =>
    apply hbegin hs
    intro sock s₁ hs₁ hsock hlimit
    rw [wpm_bind]
    refine wpm_mono (wpm_of_leaves hkeeps (clocks_check d).sets hs₁) ?_
    intro r c' s₂ ⟨⟨hc, hr⟩, hs₂⟩
    rw [hc]
    cases r with
    | error e => exact hraise e s₂ (hr e rfl) hs₂
    | ok _ =>
      dsimp only
      rw [wpm_bind]
      refine wpm_mono (wpm_of_leaves hkeeps (clocks_remaining d).sets hs₂) ?_
      intro r c' s₃ ⟨⟨hc, hr⟩, hs₃⟩
      rw [hc]
      cases r with
      | error e => exact hraise e s₃ (hr e rfl) hs₃
      | ok remaining =>
        dsimp only
        rw [wpm_bind, wpm_perform_op]
        obtain ⟨htimeout, htimeout'⟩ := hkeeps s₃ (.enterTimeout remaining) trivial hs₃
        refine ⟨htimeout, fun answer s₄ h₄ => ?_⟩
        have hs₄ := htimeout' answer s₄ h₄
        dsimp only
        rw [wpm_bind, wpm_ofExcept]
        cases hframe : encodeFrame command.payload with
        | error e => exact hraise e s₄ (hoverflow hframe) hs₄
        | ok frame =>
          dsimp only
          rw [wpm_bind]
          obtain ⟨hpermits, hstep⟩ := hwrite sock frame s₄ hs₄ hsock hlimit hframe
          refine ⟨hpermits, fun answer s₅ h => ?_⟩
          have hQ := hstep answer s₅ h
          match answer with
          | .ok _ => exact hQ
          | .error .timeout => exact hQ
          | .error .other => exact hQ
          | .error .cancelled => exact hQ

end Write

/-! ## Reading a frame -/

/-- `Got b` says that the bytes `b` were read on the socket: reading adds to them, and timeouts are
set without effect. -/
structure Reader {σ : Type} (W : World Net σ) (sock : SockId) (Got : Bytes → σ → Prop) : Prop where
  setting : ∀ b, Keeps W NetOp.Setting (Got b)
  recv : ∀ b s size, Got b s → W.permits s (.recv sock size) ∧
    ∀ a s', W.step s (.recv sock size) a s' → match a with
      | .ok chunk => Got (b ++ chunk.1) s'
      | .error _ => Got b s'
  readexactly : ∀ b s size, Got b s → W.permits s (.readexactly sock size) ∧
    ∀ a s', W.step s (.readexactly sock size) a s' → match a with
      | .ok data => Got (b ++ data.1) s'
      | .error _ => ∃ more, Got (b ++ more) s'

/-- How the reading of a frame ends: with a payload whose header fits it, or with an error that, when
it reports a corrupted response, is the rejection of a header. -/
def FrameRead {σ : Type} (Got : Bytes → σ → Prop) (limit : ℕ) (b : Bytes) :
    Except Exc Bytes → σ → Prop
  | .ok payload, s => ∃ header, decodeFrameSize header limit = .ok payload.length ∧
    Got (b ++ header ++ payload) s
  | .error e, s => ∃ more, Got (b ++ more) s ∧
    ∀ what, e = .corruptedResponse what →
      more.length = frameHeaderSize ∧ decodeFrameSize more limit = .error e

section Read
variable {σ : Type} {W : World Net σ} {sock : SockId} {Got : Bytes → σ → Prop}

/-- So many bytes are read, or part of them. -/
def Exactly (Got : Bytes → σ → Prop) (size : ℕ) (b : Bytes) : Except Exc Bytes → σ → Prop
  | .ok data, s => data.length = size ∧ Got (b ++ data) s
  | .error e, s => (∃ more, Got (b ++ more) s) ∧ ∀ what, e ≠ .corruptedResponse what

theorem wpm_readLoop (hrecv : ∀ b s size, Got b s → W.permits s (.recv sock size) ∧
      ∀ a s', W.step s (.recv sock size) a s' → match a with
        | .ok chunk => Got (b ++ chunk.1) s'
        | .error _ => Got b s')
    {size : ℕ} (rounds : ℕ) {b buffer : Bytes} {c : Connection} {s : σ} (hs : Got (b ++ buffer) s)
    (hle : buffer.length ≤ size)
    (hrounds : size ≤ buffer.length + rounds) :
    wpm W (Sync.readLoop sock size rounds buffer) (fun r c' s' => c' = c ∧ Exactly Got size b r s')
      c s := by
  refine Sync.wpm_readLoop_of (I := fun buffer s => Got (b ++ buffer) s) ?_ ?_ rounds hs hle hrounds
  · exact fun buffer s hsize hgot => ⟨rfl, hsize, hgot⟩
  · intro buffer s _ hgot
    obtain ⟨hpermits, hstep⟩ := hrecv _ s (size - buffer.length) hgot
    refine ⟨hpermits, fun answer s' h => ?_⟩
    have hmore : Got (b ++ (buffer ++ Sync.readChunk answer)) s' := by
      have hafter := hstep answer s' h
      rw [← List.append_assoc]
      cases answer with
      | ok chunk => exact hafter
      | error fault => rwa [Sync.readChunk, List.append_nil]
    cases hfailed : Sync.failedRead answer with
    | some e => exact ⟨rfl, ⟨_, hmore⟩, Sync.failedRead_ne_corrupted hfailed⟩
    | none => exact hmore

theorem wpm_readexactly (hreader : Reader W sock Got) {size : ℕ} {b : Bytes} {c : Connection} {s : σ}
    (hs : Got b s) : wpm W (Aio.readExactly sock size)
      (fun r c' s' => c' = c ∧ Exactly Got size b r s') c s := by
  obtain ⟨hpermits, hstep⟩ := hreader.readexactly b s size hs
  unfold Aio.readExactly
  rw [wpm_bind, wpm_perform_op]
  refine ⟨hpermits, fun answer s' h => ?_⟩
  have hgot := hstep answer s' h
  match answer with
  | .ok data => exact ⟨rfl, data.2, hgot⟩
  | .error .timeout => exact ⟨rfl, hgot, fun what heq => by cases heq⟩
  | .error .other => exact ⟨rfl, hgot, fun what heq => by cases heq⟩
  | .error .incomplete => exact ⟨rfl, hgot, fun what heq => by cases heq⟩
  | .error .cancelled => exact ⟨rfl, hgot, fun what heq => by cases heq⟩

/-- Header and body, by any way of reading exactly so many bytes. -/
theorem wpm_receive {readExactly : ℕ → ConnM Bytes} {c : Connection}
    (hread : ∀ size b s, Got b s →
      wpm W (readExactly size) (fun r c' s' => c' = c ∧ Exactly Got size b r s') c s)
    {b : Bytes} {s : σ} (hs : Got b s) :
    wpm W (do
      let header ← readExactly frameHeaderSize
      let size ← Method.ofExcept (decodeFrameSize header (← Method.self).maxMessageSize)
      if size = 0 then return []
      else readExactly size) (fun r c' s' => c' = c ∧ FrameRead Got c.maxMessageSize b r s') c s := by
  rw [wpm_bind]
  refine wpm_mono (hread frameHeaderSize b s hs) ?_
  intro r c' s₁ ⟨hc, hr⟩
  rw [hc]
  cases r with
  | error e =>
    obtain ⟨⟨more, hmore⟩, hne⟩ := hr
    exact ⟨rfl, more, hmore, fun what heq => absurd heq (hne what)⟩
  | ok header =>
    dsimp only
    rw [wpm_bind, wpm_self]
    dsimp only
    rw [wpm_bind, wpm_ofExcept]
    cases hsize : decodeFrameSize header c.maxMessageSize with
    | error e => exact ⟨rfl, header, hr.2, fun _ _ => ⟨hr.1, hsize⟩⟩
    | ok size =>
      dsimp only
      by_cases hzero : size = 0
      · rw [if_pos hzero]
        refine ⟨rfl, header, ?_, ?_⟩
        · rw [hsize, hzero]
          rfl
        · rw [List.append_nil]
          exact hr.2
      · rw [if_neg hzero]
        refine wpm_mono (hread size _ s₁ hr.2) ?_
        intro r c' s₂ ⟨hc', hr'⟩
        refine ⟨hc', ?_⟩
        cases r with
        | error e =>
          obtain ⟨⟨more, hmore⟩, hne⟩ := hr'
          exact ⟨header ++ more, by rwa [← List.append_assoc], fun what heq => absurd heq (hne what)⟩
        | ok data => exact ⟨header, by rw [hr'.1]; exact hsize, hr'.2⟩

/-- `_read_frame` of both packages reads one frame, or part of one. -/
theorem wpm_readFrame (p : Package) (hreader : Reader W sock Got) (d : Deadline) {b : Bytes}
    {c : Connection} (hsock : c.sock = some sock) {s : σ} (hs : Got b s) :
    wpm W (p.transport.readFrame d)
      (fun r c' s' => c' = c ∧ FrameRead Got c.maxMessageSize b r s') c s := by
  have hfailed : ∀ {e : Exc} {s' : σ}, (∀ what, e ≠ .corruptedResponse what) → Got b s' →
      FrameRead Got c.maxMessageSize b (.error e) s' := by
    intro e s' hne hs'
    exact ⟨[], by rwa [List.append_nil], fun what heq => absurd heq (hne what)⟩
  have hset : ∀ {α : Type} {m : ConnM α} {s : σ}, Sets m → Got b s → wpm W m (fun r c' s' =>
      (c' = c ∧ Raises (fun e => ∀ what, e ≠ .corruptedResponse what) r) ∧ Got b s') c s :=
    fun hm hs => wpm_of_leaves (hreader.setting b) hm hs
  cases p with
  | sync =>
    change wpm W (Sync.readFrame d) _ c s
    unfold Sync.readFrame
    rw [wpm_bind, wpm_requireSocket, hsock]
    dsimp only
    rw [wpm_bind]
    refine wpm_mono (hset (Sync.sets_applyTimeout sock d) hs) ?_
    intro r c' s₁ ⟨⟨hc, hr⟩, hs₁⟩
    rw [hc]
    cases r with
    | error e => exact ⟨rfl, hfailed (hr e rfl) hs₁⟩
    | ok _ =>
      refine wpm_receive (fun size b s hgot => ?_) hs₁
      exact wpm_readLoop hreader.recv size (by rwa [List.append_nil]) (Nat.zero_le _) (by simp)
  | aio =>
    change wpm W (Aio.readFrame d) _ c s
    unfold Aio.readFrame
    rw [wpm_bind, wpm_requireSocket, hsock]
    dsimp only
    rw [wpm_bind]
    refine wpm_mono (hset (clocks_check d).sets hs) ?_
    intro r c' s₁ ⟨⟨hc, hr⟩, hs₁⟩
    rw [hc]
    cases r with
    | error e => exact ⟨rfl, hfailed (hr e rfl) hs₁⟩
    | ok _ =>
      dsimp only
      rw [wpm_bind]
      refine wpm_mono (hset (clocks_remaining d).sets hs₁) ?_
      intro r c' s₂ ⟨⟨hc, hr⟩, hs₂⟩
      rw [hc]
      cases r with
      | error e => exact ⟨rfl, hfailed (hr e rfl) hs₂⟩
      | ok remaining =>
        dsimp only
        rw [wpm_bind, wpm_perform_op]
        obtain ⟨htimeout, htimeout'⟩ := hreader.setting b s₂ (.enterTimeout remaining) trivial hs₂
        refine ⟨htimeout, fun answer s₃ h => ?_⟩
        refine wpm_receive (fun size b s hgot => ?_) (htimeout' answer s₃ h)
        exact wpm_readexactly hreader hgot

theorem FrameRead.got {limit : ℕ} {b : Bytes} {r : Except Exc Bytes} {s : σ}
    (h : FrameRead Got limit b r s) : ∃ more, Got (b ++ more) s := by
  cases r with
  | ok payload =>
    obtain ⟨header, -, hgot⟩ := h
    exact ⟨header ++ payload, by rwa [← List.append_assoc]⟩
  | error e =>
    obtain ⟨more, hgot, -⟩ := h
    exact ⟨more, hgot⟩

theorem wpm_readFrame_closed (p : Package) {d : Deadline} {Q : Except Exc Bytes → Connection → σ → Prop}
    {c : Connection} (hsock : c.sock = none) {s : σ} (h : Q (.error (.connectionError .closed)) c s) :
    wpm W (p.transport.readFrame d) Q c s := by
  cases p with
  | sync =>
    change wpm W (Sync.readFrame d) Q c s
    unfold Sync.readFrame
    rw [wpm_bind, wpm_requireSocket, hsock]
    exact h
  | aio =>
    change wpm W (Aio.readFrame d) Q c s
    unfold Aio.readFrame
    rw [wpm_bind, wpm_requireSocket, hsock]
    exact h

end Read

/-! ## Opening a socket -/

/-- Opening a socket leads from `Idle` to `Opened`, or back to `Idle` when it fails. -/
structure Dialer {σ : Type} (W : World Net σ) (Idle : σ → Prop) (Opened : SockId → σ → Prop) :
    Prop where
  timeout : ∀ s delay, Idle s → W.permits s (.enterTimeout delay) ∧
    ∀ a s', W.step s (.enterTimeout delay) a s' → Idle s'
  create : ∀ s host port timeout, Idle s → W.permits s (.createConnection host port timeout) ∧
    ∀ a s', W.step s (.createConnection host port timeout) a s' → match a with
      | .ok sock => Opened sock s'
      | .error _ => Idle s'
  openTo : ∀ s host port hostname, Idle s → W.permits s (.openConnection host port hostname) ∧
    ∀ a s', W.step s (.openConnection host port hostname) a s' → match a with
      | .ok sock => Opened sock s'
      | .error _ => Idle s'
  wrap : ∀ s sock hostname, Opened sock s → W.permits s (.wrapSocket sock hostname) ∧
    ∀ a s', W.step s (.wrapSocket sock hostname) a s' → Opened sock s'
  close : ∀ s sock, Opened sock s → W.permits s (.closeSocket sock) ∧
    ∀ a s', W.step s (.closeSocket sock) a s' → Idle s'

theorem wpm_dial {σ : Type} {W : World Net σ} {Idle : σ → Prop} {Opened : SockId → σ → Prop}
    (p : Package) (hdialer : Dialer W Idle Opened) (host : Str) (port : ℕ) {c : Connection} {s : σ}
    (hs : Idle s) : wpm W (p.transport.dial host port) (fun r c' s' => c' = c ∧ match r with
      | .ok sock => Opened sock s'
      | .error _ => Idle s') c s := by
  cases p with
  | sync =>
    change wpm W (Sync.dial host port) _ c s
    unfold Sync.dial
    rw [wpm_bind, wpm_self]
    dsimp only
    rw [wpm_bind, wpm_perform_op]
    obtain ⟨hpermits, hstep⟩ := hdialer.create s host port c.settings.connectTimeout hs
    refine ⟨hpermits, fun answer s₁ h₁ => ?_⟩
    have hs₁ := hstep answer s₁ h₁
    cases answer with
    | error fault => exact ⟨rfl, hs₁⟩
    | ok sock =>
      dsimp only at hs₁ ⊢
      by_cases htls : c.settings.tls
      · rw [if_pos htls, wpm_bind, wpm_perform_op]
        obtain ⟨hpermits, hstep⟩ := hdialer.wrap s₁ sock (c.settings.hostnameFor host) hs₁
        refine ⟨hpermits, fun answer s₂ h₂ => ?_⟩
        have hs₂ := hstep answer s₂ h₂
        cases answer with
        | ok _ => exact ⟨rfl, hs₂⟩
        | error fault =>
          dsimp only
          rw [wpm_bind, wpm_perform_op]
          obtain ⟨hpermits, hstep⟩ := hdialer.close s₂ sock hs₂
          exact ⟨hpermits, fun answer s₃ h₃ => ⟨rfl, hstep answer s₃ h₃⟩⟩
      · rw [if_neg htls]
        exact ⟨rfl, hs₁⟩
  | aio =>
    change wpm W (Aio.dial host port) _ c s
    unfold Aio.dial
    rw [wpm_bind, wpm_self]
    dsimp only
    rw [wpm_bind, wpm_perform_op]
    obtain ⟨hpermits, hstep⟩ := hdialer.timeout s (some c.settings.connectTimeout) hs
    refine ⟨hpermits, fun answer s₁ h₁ => ?_⟩
    dsimp only
    rw [wpm_bind, wpm_perform_op]
    obtain ⟨hpermits, hstep'⟩ := hdialer.openTo s₁ host port
      (if c.settings.tls then some (c.settings.hostnameFor host) else none) (hstep answer s₁ h₁)
    refine ⟨hpermits, fun answer s₂ h₂ => ?_⟩
    have hs₂ := hstep' answer s₂ h₂
    match answer with
    | .ok sock => exact ⟨rfl, hs₂⟩
    | .error .timeout => exact ⟨rfl, hs₂⟩
    | .error .other => exact ⟨rfl, hs₂⟩
    | .error .cancelled => exact ⟨rfl, hs₂⟩

/-! ## The handshake -/

/-- An operation on a socket that is open: the clock, timeouts, reads and writes. -/
def NetOp.Exchanging : NetOp → Prop
  | .monotonic | .settimeout _ _ | .enterTimeout _ | .sendall _ _ | .recv _ _ | .writeDrain _ _
  | .readexactly _ _ => True
  | _ => False

theorem NetOp.Setting.exchanging {op : NetOp} (h : op.Setting) : op.Exchanging := by
  cases op <;> first | exact h | trivial

theorem NetOp.Reading.exchanging {op : NetOp} (h : op.Reading) : op.Exchanging := by
  cases op <;> first | exact h | trivial

section Handshake
variable {σ : Type} {W : World Net σ} {J : σ → Prop}

theorem Keeps.mono {P P' : NetOp → Prop} (hkeeps : Keeps W P J) (h : ∀ op, P' op → P op) :
    Keeps W P' J := fun s op hP => hkeeps s op (h op hP)

/-- A handshake keeps what the operations on an open socket keep, and its socket. -/
theorem wpm_handshake_keeps (p : Package) (hkeeps : Keeps W NetOp.Exchanging J) {c : Connection}
    {s : σ} (hs : J s) :
    wpm W p.transport.handshake (fun _ c' s' => c'.sock = c.sock ∧ J s') c s := by
  have hsetting : Keeps W NetOp.Setting J := hkeeps.mono fun _ => NetOp.Setting.exchanging
  have hreading : Keeps W NetOp.Reading J := hkeeps.mono fun _ => NetOp.Reading.exchanging
  unfold Transport.handshake
  rw [wpm_bind, wpm_self]
  dsimp only
  rw [wpm_bind, wpm_ofExcept]
  cases Commands.hello c.settings.token with
  | error e => exact ⟨rfl, hs⟩
  | ok command =>
    dsimp only
    rw [wpm_bind]
    refine wpm_mono (wpm_of_leaves hsetting (clocks_start _).sets hs) ?_
    intro r c₁ s₁ ⟨⟨hc₁, _⟩, hs₁⟩
    rw [hc₁]
    cases r with
    | error e => exact ⟨rfl, hs₁⟩
    | ok d =>
      dsimp only
      unfold Transport.send
      rw [wpm_bind, wpm_bind]
      apply wpm_writeRequest p hsetting command d hs₁
      · intro e s₂ _ hs₂
        exact ⟨rfl, hs₂⟩
      · intro sock frame s₂ hs₂ _ _ _
        have hwrite : (p.writeOp sock frame).Exchanging := by cases p <;> trivial
        obtain ⟨hpermits, hstep⟩ := hkeeps s₂ _ hwrite hs₂
        refine ⟨hpermits, fun a s₃ h => ?_⟩
        have hs₃ := hstep a s₃ h
        cases hwrote : p.wrote a with
        | error e => exact ⟨Connection.sock_noteWrite _ _, hs₃⟩
        | ok _ =>
          dsimp only
          rw [wpm_bind]
          refine wpm_mono (wpm_of_leaves hreading (p.reads_readFrame d) hs₃) ?_
          intro r c₄ s₄ ⟨⟨hc₄, _⟩, hs₄⟩
          rw [hc₄]
          cases r with
          | error e => exact ⟨rfl, hs₄⟩
          | ok response =>
            dsimp only
            rw [wpm_bind, setInFlight, wpm_update]
            dsimp only
            rw [wpm_pure]
            dsimp only
            rw [wpm_bind, wpm_ofExcept]
            cases parseHello response with
            | error e => exact ⟨rfl, hs₄⟩
            | ok info =>
              dsimp only
              rw [wpm_ite]
              split
              · exact ⟨rfl, hs₄⟩
              · exact ⟨rfl, hs₄⟩

end Handshake

/-- A connect opens one socket, or none when it raises. -/
theorem wpm_connect {σ : Type} {W : World Net σ} {Idle : σ → Prop} {Opened : SockId → σ → Prop}
    (p : Package) (hdialer : Dialer W Idle Opened)
    (hkeeps : ∀ sock, Keeps W NetOp.Exchanging (Opened sock)) (connection : Connection) {s : σ}
    (hs : Idle s) : wpm W p.transport.connect (fun r c' s' => match r with
      | .ok _ => ∃ sock, c'.sock = some sock ∧ Opened sock s'
      | .error _ => Idle s') connection s := by
  unfold Transport.connect
  rw [wpm_bind, wpm_self]
  dsimp only
  rw [wpm_bind, wpm_ofExcept]
  cases splitAddress connection.settings.address with
  | error e => exact hs
  | ok target =>
    dsimp only
    rw [wpm_bind]
    refine wpm_mono (wpm_dial p hdialer target.1 target.2 hs) ?_
    intro r c₁ s₁ ⟨hc₁, hs₁⟩
    cases r with
    | error e => exact hs₁
    | ok sock =>
      dsimp only at hs₁ ⊢
      rw [wpm_bind, wpm_update]
      dsimp only
      rw [wpm_bind, wpm_attempt]
      refine wpm_mono (wpm_handshake_keeps p (hkeeps sock) hs₁) ?_
      intro r c₂ s₂ ⟨hc₂, hs₂⟩
      replace hc₂ : c₂.sock = some sock := hc₂
      cases r with
      | ok _ => exact ⟨sock, hc₂, hs₂⟩
      | error e =>
        dsimp only
        rw [wpm_bind, wpm_closeConnection, hc₂]
        obtain ⟨hpermits, hstep⟩ := hdialer.close s₂ sock hs₂
        exact ⟨hpermits, fun s₃ h => hstep () s₃ h⟩

end FqClient
