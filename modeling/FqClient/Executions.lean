import FqClient.Contracts
import FqClient.Effects.Runs

namespace FqClient

open Effects

/-! Runs of what the two transports do in their own ways, with no deadline and nothing going wrong. -/

section Executions
variable {κ σ : Type} {W : World Net σ} {c : Connection} {sock : SockId} {s s₁ s₂ s' : σ}

theorem can_perform_op {op : NetOp} {answer : op.Answer} {k : κ} (h : W.step s op answer s') :
    (perform op : Method Net κ Exc _).Can W k s (.ok answer) k s' := .single (.call h)

/-- Taking the timeout off a socket has no effect. -/
structure Unhurried (W : World Net σ) (sock : SockId) (s : σ) : Prop where
  settimeout : W.step s (.settimeout sock none) (.ok ()) s
  enterTimeout : W.step s (.enterTimeout none) () s

theorem can_requireSocket (hsock : c.sock = some sock) : requireSocket.Can W c s (.ok sock) c s := by
  unfold requireSocket
  refine (can_self c s).bind ?_
  rw [hsock]
  exact can_pure _ _ _

/-- The answer to a write that succeeds. -/
def Package.written : (p : Package) → {sock : SockId} → {frame : Bytes} → (p.writeOp sock frame).Answer
  | .sync, _, _ => Except.ok ()
  | .aio, _, _ => Except.ok ()

theorem can_writeRequest (p : Package) {command : Command} {frame : Bytes} (hsock : c.sock = some sock)
    (hlimit : command.payload.length ≤ c.maxMessageSize)
    (hframe : encodeFrame command.payload = .ok frame)
    (hs : Unhurried W sock s) (hwrite : W.step s (p.writeOp sock frame) p.written s') :
    (p.transport.writeRequest command Deadline.unlimited).Can W c s (.ok ())
      { c with requestInFlight := true } s' := by
  have hsize : checkRequestSize command.payload c.maxMessageSize = .ok () := if_neg (not_lt.mpr hlimit)
  have hsocket := can_requireSocket (W := W) (s := s) hsock
  cases p with
  | sync =>
    refine (can_self c s).bind (Method.Can.bind (b := ()) (d := c) (t := s) ?_ (hsocket.bind ?_))
    · rw [hsize]
      exact can_ofExcept _ _ _
    refine Method.Can.bind (b := ()) (d := c) (t := s) (.single (.call hs.settimeout)) ?_
    refine Method.Can.bind (b := frame) (d := c) (t := s) ?_ ?_
    · rw [hframe]
      exact can_ofExcept _ _ _
    exact (can_perform_op hwrite).bind (can_update _ _ _)
  | aio =>
    refine (can_self c s).bind (Method.Can.bind (b := ()) (d := c) (t := s) ?_ (hsocket.bind ?_))
    · rw [hsize]
      exact can_ofExcept _ _ _
    refine Method.Can.bind (b := ()) (d := c) (t := s) .refl ?_
    refine Method.Can.bind (b := none) (d := c) (t := s) .refl ?_
    refine (can_perform_op hs.enterTimeout).bind ?_
    refine Method.Can.bind (b := frame) (d := c) (t := s) ?_ ?_
    · rw [hframe]
      exact can_ofExcept _ _ _
    exact (can_perform_op hwrite).bind (can_update _ _ _)

/-- The operation that reads so many bytes. -/
def Package.readOp : Package → SockId → ℕ → NetOp
  | .sync, sock, size => .recv sock size
  | .aio, sock, size => .readexactly sock size

/-- The answer with all the bytes that were asked for. -/
def Package.delivered : (p : Package) → {sock : SockId} → {size : ℕ} → (data : Bytes) →
    data.length = size → (p.readOp sock size).Answer
  | .sync, _, _, data, h => Except.ok ⟨data, le_of_eq h⟩
  | .aio, _, _, data, h => Except.ok ⟨data, h⟩

/-- `_read_exactly` and `readexactly`. -/
def Package.readExactly : Package → SockId → ℕ → ConnM Bytes
  | .sync => Sync.readExactly
  | .aio => Aio.readExactly

theorem can_readExactly (p : Package) {size : ℕ} {data : Bytes} (hpos : 0 < size)
    (hdata : data.length = size) (hread : W.step s (p.readOp sock size) (p.delivered data hdata) s') :
    (p.readExactly sock size).Can W c s (.ok data) c s' := by
  cases p with
  | aio => exact (can_perform_op hread).bind (can_pure _ _ _)
  | sync =>
    obtain ⟨n, rfl⟩ := Nat.exists_eq_succ_of_ne_zero (Nat.pos_iff_ne_zero.mp hpos)
    change (Sync.readLoop sock (n + 1) (n + 1) []).Can W c s (.ok data) c s'
    have hne : data ≠ [] := List.ne_nil_of_length_pos (hdata ▸ hpos)
    unfold Sync.readLoop
    rw [if_pos (show ([] : Bytes).length < n + 1 from hpos)]
    refine (can_perform_op hread).bind ?_
    change (if data = [] then _ else _ : ConnM Bytes).Can W c s' (.ok data) c s'
    rw [if_neg hne]
    change (Sync.readLoop sock (n + 1) n data).Can W c s' (.ok data) c s'
    cases n with
    | zero => exact can_pure _ _ _
    | succ n =>
      unfold Sync.readLoop
      rw [if_neg (by omega)]
      exact can_pure _ _ _

/-- Header and body, once the timeout is off. -/
def Package.receive (p : Package) (sock : SockId) : ConnM Bytes := do
  let header ← p.readExactly sock frameHeaderSize
  let size ← Method.ofExcept (decodeFrameSize header (← Method.self).maxMessageSize)
  if size = 0 then return []
  else p.readExactly sock size

theorem can_readFrame (p : Package) (hsock : c.sock = some sock) (hs : Unhurried W sock s)
    {r : Except Exc Bytes} (hreceive : (p.receive sock).Can W c s r c s') :
    (p.transport.readFrame Deadline.unlimited).Can W c s r c s' := by
  have hsocket := can_requireSocket (W := W) (s := s) hsock
  cases p with
  | sync =>
    refine hsocket.bind ?_
    exact Method.Can.bind (b := ()) (d := c) (t := s) (.single (.call hs.settimeout)) hreceive
  | aio =>
    refine hsocket.bind ?_
    refine Method.Can.bind (b := ()) (d := c) (t := s) .refl ?_
    refine Method.Can.bind (b := none) (d := c) (t := s) .refl ?_
    exact (can_perform_op hs.enterTimeout).bind hreceive

/-- The first read of a frame asks for its header. -/
theorem meets_readFrame (p : Package) {P : σ → Prop} (hsock : c.sock = some sock)
    (hs : Unhurried W sock s) {a : (p.readOp sock frameHeaderSize).Answer}
    (hread : W.step s (p.readOp sock frameHeaderSize) a s') (hP : P s') :
    (p.transport.readFrame Deadline.unlimited).Meets W P c s := by
  have hsocket := can_requireSocket (W := W) (s := s) hsock
  cases p with
  | sync =>
    refine .bind_after hsocket ?_
    refine .bind_after (b := ()) (d := c) (t := s) (.single (.call hs.settimeout)) ?_
    exact ((can_perform_op hread).meets hP).bind.bind
  | aio =>
    refine .bind_after hsocket ?_
    refine .bind_after (b := ()) (d := c) (t := s) .refl ?_
    refine .bind_after (b := none) (d := c) (t := s) .refl ?_
    refine .bind_after (can_perform_op hs.enterTimeout) ?_
    exact ((can_perform_op hread).meets hP).bind.bind

theorem can_receive_error (p : Package) {header : Bytes} {e : Exc}
    (hlength : header.length = frameHeaderSize)
    (hread : W.step s (p.readOp sock frameHeaderSize) (p.delivered header hlength) s')
    (hsize : decodeFrameSize header c.maxMessageSize = .error e) :
    (p.receive sock).Can W c s (.error e) c s' := by
  refine (can_readExactly p (by decide) hlength hread).bind ((can_self c s').bind ?_)
  rw [hsize]
  exact (can_ofExcept _ _ _).bind_error

theorem can_receive (p : Package) {header payload : Bytes}
    (hlength : header.length = frameHeaderSize)
    (hread : W.step s (p.readOp sock frameHeaderSize) (p.delivered header hlength) s₁)
    (hsize : decodeFrameSize header c.maxMessageSize = .ok payload.length)
    (hbody : payload ≠ [] → W.step s₁ (p.readOp sock payload.length) (p.delivered payload rfl) s')
    (hempty : payload = [] → s' = s₁) : (p.receive sock).Can W c s (.ok payload) c s' := by
  refine (can_readExactly p (by decide) hlength hread).bind ((can_self c s₁).bind ?_)
  rw [hsize]
  refine (can_ofExcept _ _ _).bind ?_
  cases payload with
  | nil =>
    rw [hempty rfl]
    exact can_pure _ _ _
  | cons byte rest =>
    rw [if_neg (by simp)]
    exact can_readExactly p (by simp) rfl (hbody (List.cons_ne_nil _ _))

end Executions

end FqClient
