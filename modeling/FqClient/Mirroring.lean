import FqClient.Aio.Parts
import FqClient.Effects.Together
import FqClient.Packages
import FqClient.Sync.Reading

namespace FqClient

open Effects

/-- The class of an exception. -/
inductive ExcClass
  | connectionError | timeoutError | corruptedResponse | poolClosed | shardIndexError
  | valueOutOfRange | protocol (cls : ProtocolErrorClass) | valueError | osError | assertionError
  | overflowError | recursionError | queueEmpty | queueFull | cancelled | generatorExit
  deriving DecidableEq

def Exc.cls : Exc → ExcClass
  | .connectionError _ => .connectionError
  | .timeoutError _ => .timeoutError
  | .corruptedResponse _ => .corruptedResponse
  | .poolClosed => .poolClosed
  | .shardIndexError _ _ => .shardIndexError
  | .valueOutOfRange _ => .valueOutOfRange
  | .protocol error => .protocol error.cls
  | .valueError => .valueError
  | .osError => .osError
  | .assertionError => .assertionError
  | .overflowError _ => .overflowError
  | .recursionError => .recursionError
  | .queueEmpty => .queueEmpty
  | .queueFull => .queueFull
  | .cancelled => .cancelled
  | .generatorExit => .generatorExit

namespace Mirroring

/-! ## Scripts -/

/-- How a connect or a write fails: refused or lost, or not done in time. -/
inductive Loss
  | lost
  | late
  deriving DecidableEq

/-- How a read fails: with the connection lost, or closed by the server, or not done in time. -/
inductive Ending
  | lost
  | closed
  | late
  deriving DecidableEq

/-- What becomes of a read of so many bytes. -/
inductive Delivery (size : ℕ)
  | whole (data : {data : Bytes // data.length = size})
  | part (data : {data : Bytes // data.length < size}) (ending : Ending)

/-- The outcomes of the environment, each kind in the order they are asked for. -/
structure Script where
  clock : ℕ → ℚ
  jitter : ℕ → ℚ
  poolClosed : ℕ → Bool
  /-- The slot of the pool that the call gets, if it gets one in time. -/
  slot : Option (Option Connection)
  connects : ℕ → Except Loss SockId
  /-- The TLS handshake of each connect, when it has one. -/
  tls : ℕ → Except Loss Unit
  writes : ℕ → Except Loss Unit
  reads : ℕ → (size : ℕ) → Delivery size
  /-- How many bytes `recv` returns at most. -/
  pieces : ℕ → ℕ

/-- How far a call has come in the script, and the frames it wrote to each socket. -/
structure Position where
  clock : ℕ := 0
  jitter : ℕ := 0
  pools : ℕ := 0
  connects : ℕ := 0
  writes : ℕ := 0
  reads : ℕ := 0
  frames : List (SockId × Bytes) := []

namespace Script

variable (script : Script)

/-- The operations that both packages perform. -/
def common (p : Position) : (op : NetOp) → op.Answer × Position
  | .monotonic => (script.clock p.clock, { p with clock := p.clock + 1 })
  | .random => (script.jitter p.jitter, { p with jitter := p.jitter + 1 })
  | .poolClosed => (script.poolClosed p.pools, { p with pools := p.pools + 1 })
  | op => (op.calm, p)

end Script

def Position.connected (p : Position) : Position := { p with connects := p.connects + 1 }

def Position.wrote (p : Position) (sock : SockId) (data : Bytes) : Position :=
  { p with writes := p.writes + 1, frames := p.frames ++ [(sock, data)] }

/-! ## The synchronous client on a script -/

/-- The seconds that C's time type does not hold: its nanoseconds are signed and of 64 bits. -/
def timeLimit : ℚ := 2 ^ 63 / 10 ^ 9

/-- The synchronous client on a script. -/
structure SyncPlay where
  position : Position := {}
  /-- Whether the timeout of the socket is zero. -/
  nonblocking : Bool := false
  /-- What is left of the read under way, and how that fails. -/
  incoming : Option (Bytes × Option Ending) := none
  pieces : ℕ := 0

def Delivery.contents {size : ℕ} : Delivery size → Bytes × Option Ending
  | .whole data => (data.1, none)
  | .part data ending => (data.1, some ending)

namespace SyncPlay

/-- What is too late for a socket that does not block is a `BlockingIOError`. -/
def late (s : SyncPlay) : OSFault := if s.nonblocking then .other else .timeout

def fault (s : SyncPlay) : Loss → OSFault
  | .lost => .other
  | .late => s.late

/-- What a read that ends so is told. -/
def ended (s : SyncPlay) (size : ℕ) :
    Option Ending → Except OSFault {chunk : Bytes // chunk.length ≤ size}
  | none | some .closed => .ok ⟨[], Nat.zero_le _⟩
  | some .lost => .error .other
  | some .late => .error s.late

/-- The read is over. -/
def finish (s : SyncPlay) : SyncPlay :=
  { s with position := { s.position with reads := s.position.reads + 1 }, incoming := none }

end SyncPlay

def Script.pending (script : Script) (s : SyncPlay) (size : ℕ) : Bytes × Option Ending :=
  s.incoming.getD (script.reads s.position.reads size).contents

/-- `recv`: some of the bytes that arrive, then the failure. -/
def Script.recv (script : Script) (s : SyncPlay) (size : ℕ) :
    Except OSFault {chunk : Bytes // chunk.length ≤ size} × SyncPlay :=
  let (rest, ending) := script.pending s size
  if rest = [] then (s.ended size ending, s.finish)
  else
    let piece := min (max 1 (script.pieces s.pieces)) size
    let s' := { s with incoming := some (rest.drop piece, ending), pieces := s.pieces + 1 }
    (.ok ⟨rest.take piece, le_trans (List.length_take_le _ _) (Nat.min_le_right _ _)⟩,
      if rest.drop piece = [] ∧ ending = none then s'.finish else s')

def Script.sync (script : Script) (s : SyncPlay) : (op : NetOp) → op.Answer × SyncPlay
  | .createConnection _ _ _ =>
    ((script.connects s.position.connects).mapError s.fault,
      { s with position := s.position.connected })
  | .wrapSocket _ _ => ((script.tls (s.position.connects - 1)).mapError s.fault, s)
  | .settimeout _ timeout =>
    if timeout.any (timeLimit ≤ ·) then (.error .overflow, s)
    else (.ok (), { s with nonblocking := decide (timeout = some 0) })
  | .sleep delay => (if timeLimit ≤ delay then .error .overflow else .ok (), s)
  | .sendall sock data =>
    ((script.writes s.position.writes).mapError s.fault,
      { s with position := s.position.wrote sock data })
  | .recv _ size => script.recv s size
  | .getSlot _ => (script.slot, s)
  | op => ((script.common s.position op).1, { s with position := (script.common s.position op).2 })

/-! ## The asyncio client on a script -/

/-- The asyncio client on a script. -/
structure AioPlay where
  position : Position := {}
  /-- Whether the call has its slot. -/
  held : Bool := false
  /-- Whether a connect timed out, a timeout was over before what it is for began, or a time was one
  that C does not hold. -/
  missed : Bool := false

def Loss.fault : Loss → AwaitFault
  | .lost => .other
  | .late => .timeout

def Ending.fault : Ending → ReadFault
  | .lost => .other
  | .closed => .incomplete
  | .late => .timeout

/-- What `readexactly` is told. -/
def Delivery.answer {size : ℕ} : Delivery size → Except ReadFault {data : Bytes // data.length = size}
  | .whole data => .ok data
  | .part _ ending => .error ending.fault

def Script.opened (script : Script) (n : ℕ) (tls : Bool) : Except Loss SockId := do
  let sock ← script.connects n
  if tls then script.tls n
  return sock

def Script.aio (script : Script) (s : AioPlay) : (op : NetOp) → op.Answer × AioPlay
  | .openConnection _ _ serverHostname =>
    let opened := script.opened s.position.connects serverHostname.isSome
    (opened.mapError Loss.fault,
      { s with
        position := s.position.connected
        missed := s.missed || match opened with
          | .error .late => true
          | _ => false })
  | .enterTimeout delay =>
    ((), { s with missed := s.missed || (s.held && delay.any (· ≤ 0)) || delay.any (timeLimit ≤ ·) })
  | .asyncSleep delay => (.ok (), { s with missed := s.missed || decide (timeLimit ≤ delay) })
  | .writeDrain sock data =>
    ((script.writes s.position.writes).mapError Loss.fault,
      { s with position := s.position.wrote sock data })
  | .readexactly _ size =>
    ((script.reads s.position.reads size).answer,
      { s with position := { s.position with reads := s.position.reads + 1 } })
  | .awaitSlot =>
    match script.slot with
    | some slot => (.ok slot, { s with held := true })
    | none => (.error .timeout, s)
  | op => ((script.common s.position op).1, { s with position := (script.common s.position op).2 })

/-! ## The two on one script -/

def Script.pairing (script : Script) : Pairing Net SyncPlay AioPlay where
  first := script.sync
  second := script.aio
  missed t := t.missed = true
  stays t o h := by
    cases o with
    | openConnection | asyncSleep =>
      change (t.missed || _) = true
      rw [h, Bool.true_or]
    | enterTimeout =>
      change (t.missed || _ || _) = true
      rw [h, Bool.true_or, Bool.true_or]
    | awaitSlot =>
      unfold Script.aio
      dsimp only
      split
      · exact h
      · exact h
    | _ => exact h
  level s t := s.position = t.position

/-- Both clients are between two operations on sockets. -/
structure Level (held : Bool) (s : SyncPlay) (t : AioPlay) : Prop where
  position : s.position = t.position
  blocking : s.nonblocking = false
  incoming : s.incoming = none
  held : t.held = held

def SameClass (e e' : Exc) : Prop := e.cls = e'.cls

section Reading
variable {script : Script} {c : Connection} {sock : SockId}

def Ending.exc : Ending → Exc
  | .lost => .connectionError .lostWhileReading
  | .closed => .connectionError .closedByServer
  | .late => .timeoutError .whileReading

/-- What is left of a read fits what it asks for. -/
def Fits (size : ℕ) (rest : Bytes) : Option Ending → Prop
  | none => rest.length = size
  | some _ => rest.length < size

/-- Unless the read is complete, what it has so far is less than it asks for. -/
theorem Fits.part {size : ℕ} {buffer chunk left : Bytes} {ending : Option Ending}
    (h : Fits size (buffer ++ (chunk ++ left)) ending) (hmore : ¬ (left = [] ∧ ending = none)) :
    (buffer ++ chunk).length < size := by
  rw [← List.append_assoc] at h
  cases ending with
  | none =>
    have hsize : (buffer ++ chunk ++ left).length = size := h
    have hleft : 0 < left.length := List.length_pos_of_ne_nil fun hnil => hmore ⟨hnil, rfl⟩
    rw [List.length_append] at hsize
    omega
  | some ending =>
    have hsize : (buffer ++ chunk ++ left).length < size := h
    rw [List.length_append] at hsize
    omega

/-- What a read ends with. -/
def received (rest : Bytes) : Option Ending → Except Exc Bytes
  | none => .ok rest
  | some ending => .error ending.exc

/-- A read of which nothing is left ends as the script says. -/
theorem recv_ended {size : ℕ} {ending : Ending} {s : SyncPlay} (hblocking : s.nonblocking = false)
    (hpending : script.pending s size = ([], some ending)) :
    (script.recv s size).2 = s.finish ∧
      Sync.failedRead (script.recv s size).1 = some ending.exc := by
  have hlate : s.late = .timeout := by
    unfold SyncPlay.late
    rw [hblocking]
    rfl
  have hrecv : script.recv s size = (s.ended _ (some ending), s.finish) := by
    unfold Script.recv
    rw [hpending]
    rfl
  rw [hrecv]
  refine ⟨rfl, ?_⟩
  unfold SyncPlay.ended
  rw [hlate]
  cases ending <;> rfl

/-- The state when so much of the read is left. -/
def SyncPlay.leave (s : SyncPlay) (left : Bytes) (ending : Option Ending) : SyncPlay :=
  let s' := { s with incoming := some (left, ending), pieces := s.pieces + 1 }
  if left = [] ∧ ending = none then s'.finish else s'

theorem leave_all (s : SyncPlay) : s.leave [] none = { s.finish with pieces := s.pieces + 1 } := rfl

theorem leave_some {s : SyncPlay} {left : Bytes} {ending : Option Ending}
    (h : ¬ (left = [] ∧ ending = none)) :
    s.leave left ending = { s with incoming := some (left, ending), pieces := s.pieces + 1 } := if_neg h

/-- A read that gets some of its bytes. -/
theorem recv_some {size : ℕ} {rest : Bytes} {ending : Option Ending} {s : SyncPlay} (hsize : 0 < size)
    (hrest : rest ≠ []) (hpending : script.pending s size = (rest, ending)) :
    ∃ chunk left, chunk.1 ≠ [] ∧ rest = chunk.1 ++ left ∧
      script.recv s size = (.ok chunk, s.leave left ending) := by
  have hchunk : rest.take (min (max 1 (script.pieces s.pieces)) size) ≠ [] := by
    apply List.ne_nil_of_length_pos
    rw [List.length_take]
    exact lt_min (lt_min (lt_of_lt_of_le Nat.one_pos (le_max_left _ _)) hsize)
      (List.length_pos_of_ne_nil hrest)
  refine ⟨⟨_, le_trans (List.length_take_le _ _) (Nat.min_le_right _ _)⟩, _, hchunk,
    (List.take_append_drop _ _).symm, ?_⟩
  unfold Script.recv
  rw [hpending]
  dsimp only
  rw [if_neg hrest]
  rfl

/-- Between two reads: bytes are still to come, or all are there. -/
def Midway (script : Script) (s : SyncPlay) (size : ℕ) (rest : Bytes) (ending : Option Ending)
    (buffer : Bytes) (t : SyncPlay) : Prop :=
  t.nonblocking = false ∧ (∃ n, t.finish = { s.finish with pieces := n }) ∧
      (∃ left, rest = buffer ++ left ∧ buffer.length < size ∧
        script.pending t (size - buffer.length) = (left, ending)) ∨
    ending = none ∧ rest = buffer ∧ ∃ n, t = { s.finish with pieces := n }

/-- However the bytes of a read arrive, it ends as the script says. -/
theorem run_sync_readExactly {size : ℕ} {rest : Bytes} {ending : Option Ending} {s : SyncPlay}
    (hblocking : s.nonblocking = false) (hpos : 0 < size)
    (hpending : script.pending s size = (rest, ending)) (hfits : Fits size rest ending) :
    ∃ n, (Sync.readExactly sock size c).run script.sync s =
      (some (received rest ending, c), { s.finish with pieces := n }) := by
  have hloop : wpm (answering script.sync) (Sync.readLoop sock size size []) (fun r c' t =>
      r = received rest ending ∧ c' = c ∧ ∃ n, t = { s.finish with pieces := n }) c s := by
    refine Sync.wpm_readLoop_of (I := Midway script s size rest ending) ?_ ?_ size
      (.inl ⟨hblocking, ⟨s.pieces, rfl⟩, rest, rfl, hpos, hpending⟩) (Nat.zero_le _) (by simp)
    · rintro buffer t hsize (⟨-, -, left, -, hmore, -⟩ | ⟨rfl, rfl, ht⟩)
      · omega
      · exact ⟨rfl, rfl, ht⟩
    · rintro buffer t hmore (⟨hblocking, hfinish, left, rfl, -, hleft⟩ | ⟨rfl, rfl, -⟩)
      · refine ⟨trivial, fun answer t' hstep => ?_⟩
        have hrecv : script.recv t (size - buffer.length) = (answer, t') := hstep
        by_cases hnone : left = []
        · subst hnone
          cases ending with
          | none =>
            have hsize : (buffer ++ []).length = size := hfits
            rw [List.append_nil] at hsize
            omega
          | some ending =>
            obtain ⟨ht', hfailed⟩ := recv_ended hblocking hleft
            rw [hrecv] at ht' hfailed
            dsimp only at ht' hfailed
            rw [hfailed, ht']
            exact ⟨rfl, rfl, hfinish⟩
        · obtain ⟨chunk, left', hchunk, rfl, hsome⟩ := recv_some (Nat.sub_pos_of_lt hmore) hnone hleft
          rw [hsome] at hrecv
          cases hrecv
          rw [Sync.failedRead_chunk hchunk]
          obtain ⟨n, hn⟩ := hfinish
          by_cases hdone : left' = [] ∧ ending = none
          · obtain ⟨rfl, rfl⟩ := hdone
            refine .inr ⟨rfl, ?_, t.pieces + 1, ?_⟩
            · rw [List.append_nil]
              rfl
            · rw [leave_all, hn]
          · rw [leave_some hdone]
            refine .inl ⟨hblocking, ⟨t.pieces + 1, ?_⟩, left', (List.append_assoc _ _ _).symm, ?_, rfl⟩
            · change { t.finish with pieces := t.pieces + 1 } = _
              rw [hn]
            · exact hfits.part hdone
      · have hsize : rest.length = size := hfits
        omega
  obtain ⟨⟨r, c'⟩, t, hrun, rfl, rfl, n, rfl⟩ := run_of_wp hloop
  exact ⟨n, hrun⟩

theorem Delivery.fits {size : ℕ} (d : Delivery size) : Fits size d.contents.1 d.contents.2 := by
  cases d with
  | whole data => exact data.2
  | part data ending => exact data.2

end Reading

/-! ## What the primitives of the two do alike -/

section Primitives
variable {script : Script}

/-- The pairing before the call has its slot, or from then on. -/
abbrev Script.during (script : Script) (held : Bool) : Pairing Net SyncPlay AioPlay :=
  script.pairing.relevel (Level held)

abbrev Script.Alike {κ α : Type} (script : Script) (held : Bool) (m m' : Method Net κ Exc α) : Prop :=
  (script.during held).Alike SameClass Eq m m'

theorem run_readexactly {sock : SockId} {size : ℕ} {c : Connection} (t : AioPlay) :
    (Aio.readExactly sock size c).run script.aio t =
      (some (received (script.reads t.position.reads size).contents.1
        (script.reads t.position.reads size).contents.2, c),
        { t with position := { t.position with reads := t.position.reads + 1 } }) := by
  have hrun : ∀ f, ((perform (.readexactly sock size) >>= f : ConnM Bytes) c).run script.aio t =
      (f (script.reads t.position.reads size).answer c).run script.aio
        { t with position := { t.position with reads := t.position.reads + 1 } } := fun _ => rfl
  unfold Aio.readExactly
  rw [hrun]
  generalize script.reads t.position.reads size = delivery
  cases delivery with
  | whole data => rfl
  | part data ending => cases ending <;> rfl

theorem alike_readExactly {sock : SockId} {size : ℕ} (hpos : 0 < size) :
    script.Alike true (Sync.readExactly sock size) (Aio.readExactly sock size) := by
  intro c s t hlevel
  have hpending : script.pending s size = (script.reads s.position.reads size).contents := by
    unfold Script.pending
    rw [hlevel.incoming]
    rfl
  obtain ⟨n, hn⟩ := @run_sync_readExactly script c sock size _ _ s hlevel.blocking hpos hpending
    (script.reads s.position.reads size).fits
  have haio := @run_readexactly script sock size c t
  rw [← hlevel.position] at haio
  refine Or.inr ?_
  change Pairing.Ended _ _ ((Sync.readExactly sock size c).run script.sync s)
    ((Aio.readExactly sock size c).run script.aio t)
  rw [hn, haio]
  exact ⟨Pairing.agree_refl (E := SameClass) (fun _ => rfl) _, rfl,
    ⟨rfl, hlevel.blocking, rfl, hlevel.held⟩⟩

/-- An operation that both packages perform. -/
def Shared : NetOp → Prop
  | .monotonic | .random | .poolClosed | .closeSocket _ | .putSlot _ => True
  | _ => False

theorem level_shared {held : Bool} {op : NetOp} (h : Shared op) {s : SyncPlay} {t : AioPlay}
    (hlevel : Level held s t) : (script.sync s op).1 = (script.aio t op).1 ∧
      Level held (script.sync s op).2 (script.aio t op).2 := by
  obtain ⟨hposition, hblocking, hincoming, hheld⟩ := hlevel
  have hcommon : (script.common s.position op).1 = (script.common t.position op).1 ∧
      Level held { s with position := (script.common s.position op).2 }
        { t with position := (script.common t.position op).2 } := by
    rw [hposition]
    exact ⟨rfl, rfl, hblocking, hincoming, hheld⟩
  cases op <;> first | exact h.elim | exact hcommon

/-- What only performs shared operations is alike itself. -/
theorem alike_shared {held : Bool} {κ α : Type} {E : Exc → Prop} {m : Method Net κ Exc α}
    (hm : m.Only Shared E) : script.Alike held m m :=
  Pairing.alike_same (fun _ => rfl) (fun _ h _ _ => level_shared h) hm

theorem alike_clocks {held : Bool} {κ α : Type} {m : Method Net κ Exc α} (hm : Clocks m) :
    script.Alike held m m := by
  refine alike_shared (E := fun _ => True) (.of_leaves (hm.mono ?_ fun _ _ => trivial))
  intro op h
  rw [h]
  trivial

/-- What comes before an operation on the socket. -/
theorem alike_applyTimeout (sock : SockId) (d : Deadline) :
    script.Alike true (Sync.applyTimeout sock d) (Aio.enterDeadline d) := by
  unfold Sync.applyTimeout Aio.enterDeadline
  refine (alike_clocks (clocks_check d)).bind fun _ _ _ => ?_
  refine (alike_clocks (clocks_remaining d)).bind fun remaining remaining' h => ?_
  obtain rfl := h
  intro c s t hlevel
  by_cases hover : remaining.any (· ≤ 0)
  · refine Or.inl ?_
    change (t.missed || (t.held && remaining.any (· ≤ 0)) || _) = true
    rw [hlevel.held, hover, Bool.and_self, Bool.or_true, Bool.true_or]
  by_cases hbeyond : remaining.any (timeLimit ≤ ·)
  · refine Or.inl ?_
    change (t.missed || _ || remaining.any (timeLimit ≤ ·)) = true
    rw [hbeyond, Bool.or_true]
  · have hnonneg : ¬ remaining.any (· < 0) := by
      cases remaining with
      | none => exact Bool.false_ne_true
      | some remaining =>
        intro h
        exact hover (decide_eq_true (le_of_lt (of_decide_eq_true h)))
    have hblocking : decide (remaining = some 0) = false := by
      refine decide_eq_false fun h => hover ?_
      rw [h]
      rfl
    have hset : (script.during true).first s (.settimeout sock remaining) =
        (.ok (), { s with nonblocking := decide (remaining = some 0) }) := if_neg hbeyond
    rw [if_neg hnonneg]
    refine Pairing.both_first ?_
    rw [hset]
    exact Pairing.together_pure ⟨rfl, rfl, hlevel.position, hblocking, hlevel.incoming, hlevel.held⟩

theorem alike_ofExcept {held : Bool} {κ α : Type} (r : Except Exc α) :
    script.Alike held (Method.ofExcept r : Method Net κ Exc α) (Method.ofExcept r) :=
  Pairing.alike_ofExcept (Pairing.agree_refl (E := SameClass) (fun _ => rfl) r)

theorem alike_requireSocket {held : Bool} : script.Alike held requireSocket requireSocket := by
  refine Pairing.alike_self.bind fun c c' h => ?_
  obtain rfl := h
  cases c.sock with
  | none => exact Pairing.alike_throw rfl
  | some sock => exact Pairing.alike_pure rfl

theorem alike_readFrame (d : Deadline) :
    script.Alike true (Sync.readFrame d) (Aio.readFrame d) := by
  rw [Aio.readFrame_eq]
  refine alike_requireSocket.bind fun sock sock' h => ?_
  obtain rfl := h
  refine (alike_applyTimeout sock d).bind fun _ _ _ => ?_
  refine (alike_readExactly (by decide)).bind fun header header' h => ?_
  obtain rfl := h
  refine Pairing.alike_self.bind fun c c' h => ?_
  obtain rfl := h
  refine (alike_ofExcept _).bind fun size size' h => ?_
  obtain rfl := h
  by_cases hsize : size = 0
  · rw [if_pos hsize, if_pos hsize]
    exact Pairing.alike_pure rfl
  · rw [if_neg hsize, if_neg hsize]
    exact alike_readExactly (Nat.pos_of_ne_zero hsize)

/-- A failure as a socket that blocks reports it. -/
def Loss.osFault : Loss → OSFault
  | .lost => .other
  | .late => .timeout

theorem fault_eq {s : SyncPlay} (h : s.nonblocking = false) : s.fault = Loss.osFault := by
  funext loss
  cases loss with
  | lost => rfl
  | late =>
    change s.late = _
    unfold SyncPlay.late
    rw [h]
    rfl

theorem alike_writeRequest (command : Command) (d : Deadline) :
    script.Alike true (Sync.writeRequest command d) (Aio.writeRequest command d) := by
  rw [Aio.writeRequest_eq]
  refine Pairing.alike_self.bind fun c c' h => ?_
  obtain rfl := h
  refine (alike_ofExcept _).bind fun _ _ _ => ?_
  refine alike_requireSocket.bind fun sock sock' h => ?_
  obtain rfl := h
  refine (alike_applyTimeout sock d).bind fun _ _ _ => ?_
  refine (alike_ofExcept _).bind fun frame frame' h => ?_
  obtain rfl := h
  intro c s t hlevel
  refine Pairing.both_first (Pairing.both_second ?_)
  have hfirst : (script.during true).first s (.sendall sock frame) =
      ((script.writes t.position.writes).mapError Loss.osFault,
        { s with position := t.position.wrote sock frame }) := by
    rw [← hlevel.position, ← fault_eq hlevel.blocking]
    rfl
  have hsecond : (script.during true).second t (.writeDrain sock frame) =
      ((script.writes t.position.writes).mapError Loss.fault,
        { t with position := t.position.wrote sock frame }) := rfl
  have hlevel' : Level true { s with position := t.position.wrote sock frame }
      { t with position := t.position.wrote sock frame } :=
    ⟨rfl, hlevel.blocking, hlevel.incoming, hlevel.held⟩
  rw [hfirst, hsecond]
  match script.writes t.position.writes with
  | .ok _ => exact Pairing.together_pure ⟨rfl, rfl, hlevel'⟩
  | .error .lost => exact Pairing.together_pure ⟨rfl, rfl, hlevel'⟩
  | .error .late => exact Pairing.together_pure ⟨rfl, rfl, hlevel'⟩

/-- The connects of both clients at one place of the script. -/
theorem run_sync_dial {host : Str} {port : ℕ} {c : Connection} {s : SyncPlay}
    (hblocking : s.nonblocking = false) :
    (Sync.dial host port c).run script.sync s =
      (some (match script.connects s.position.connects with
        | .error _ => .error (.connectionError (.cannotConnect c.settings.address))
        | .ok sock =>
          if c.settings.tls then
            match script.tls s.position.connects with
            | .ok _ => .ok sock
            | .error _ => .error (.connectionError .tlsHandshakeFailed)
          else .ok sock, c),
        { s with position := s.position.connected }) := by
  have hconnect : script.sync s (.createConnection host port c.settings.connectTimeout) =
      ((script.connects s.position.connects).mapError Loss.osFault,
        { s with position := s.position.connected }) := by
    rw [← fault_eq hblocking]
    rfl
  unfold Sync.dial
  rw [run_self_bind, run_perform_op_bind, hconnect]
  cases script.connects s.position.connects with
  | error loss => rfl
  | ok sock =>
    dsimp only [Except.mapError]
    by_cases htls : c.settings.tls = true
    · have hwrap : script.sync { s with position := s.position.connected }
          (.wrapSocket sock (c.settings.hostnameFor host)) =
            ((script.tls s.position.connects).mapError Loss.osFault,
              { s with position := s.position.connected }) := by
        rw [← fault_eq hblocking]
        rfl
      rw [if_pos htls, if_pos htls, run_perform_op_bind, hwrap]
      cases script.tls s.position.connects with
      | ok _ => rfl
      | error loss => rfl
    · rw [if_neg htls, if_neg htls]
      rfl

theorem run_aio_dial {host : Str} {port : ℕ} {c : Connection} {t : AioPlay} :
    ∃ missed, (Aio.dial host port c).run script.aio t =
      (some (match script.opened t.position.connects c.settings.tls with
        | .ok sock => .ok sock
        | .error .lost => .error (.connectionError (.cannotConnect c.settings.address))
        | .error .late => .error (.timeoutError (.connectTimedOut c.settings.address)), c),
        { t with position := t.position.connected, missed := missed }) ∧
      (script.opened t.position.connects c.settings.tls = .error .late → missed = true) := by
  have htls : (if c.settings.tls = true then some (c.settings.hostnameFor host) else none).isSome =
      c.settings.tls := by
    cases c.settings.tls <;> rfl
  let t₁ := (script.aio t (.enterTimeout (some c.settings.connectTimeout))).2
  have hopen : ∀ hostname : Option Str, hostname.isSome = c.settings.tls →
      script.aio t₁ (.openConnection host port hostname) =
        ((script.opened t.position.connects c.settings.tls).mapError Loss.fault,
        { t with
          position := t.position.connected
          missed := t₁.missed || match script.opened t.position.connects c.settings.tls with
            | .error .late => true
            | _ => false }) := by
    intro hostname h
    rw [← h]
    rfl
  unfold Aio.dial
  rw [run_self_bind, run_perform_op_bind, run_perform_op_bind, hopen _ htls]
  match script.opened t.position.connects c.settings.tls with
  | .ok sock => exact ⟨_, rfl, fun h => by cases h⟩
  | .error .lost => exact ⟨_, rfl, fun h => by cases h⟩
  | .error .late => exact ⟨_, rfl, fun _ => Bool.or_true _⟩

/-- Every connect but one that times out. -/
theorem alike_dial (host : Str) (port : ℕ) :
    script.Alike true (Sync.dial host port) (Aio.dial host port) := by
  intro c s t ⟨hposition, hblocking, hincoming, hheld⟩
  obtain ⟨missed, haio, hmissed⟩ := @run_aio_dial script host port c t
  have hsync := @run_sync_dial script host port c s hblocking
  have hlevel : Level true { s with position := s.position.connected }
      { t with position := s.position.connected, missed := missed } :=
    ⟨rfl, hblocking, hincoming, hheld⟩
  unfold Script.opened at haio hmissed
  rw [← hposition] at haio hmissed
  change AioPlay.missed ((Aio.dial host port c).run script.aio t).2 = true ∨ Pairing.Ended _ _
    ((Sync.dial host port c).run script.sync s) ((Aio.dial host port c).run script.aio t)
  rw [haio, hsync]
  match hconnect : script.connects s.position.connects, hmissed with
  | .error .lost, _ => exact Or.inr ⟨rfl, rfl, hlevel⟩
  | .error .late, hmissed => exact Or.inl (hmissed rfl)
  | .ok sock, hmissed =>
    cases htls : c.settings.tls with
    | false => exact Or.inr ⟨rfl, rfl, hlevel⟩
    | true =>
      rw [htls] at hmissed
      match script.tls s.position.connects, hmissed with
      | .ok _, _ => exact Or.inr ⟨rfl, rfl, hlevel⟩
      | .error .lost, _ => exact Or.inr ⟨rfl, rfl, hlevel⟩
      | .error .late, hmissed => exact Or.inl (hmissed rfl)

theorem alike_sleep {delay : ℚ} (hpos : 0 < delay) :
    script.Alike true (Sync.sleep delay) (Aio.sleep delay) := by
  unfold Sync.sleep
  rw [if_neg (not_lt.mpr (le_of_lt hpos))]
  intro c s t hlevel
  by_cases hbeyond : timeLimit ≤ delay
  · refine Or.inl ?_
    change (t.missed || decide (timeLimit ≤ delay)) = true
    rw [decide_eq_true hbeyond, Bool.or_true]
  · have hslept : (script.during true).first s (.sleep delay) = (.ok (), s) :=
      congrArg (·, s) (if_neg hbeyond)
    refine Pairing.both_first ?_
    rw [hslept]
    exact Pairing.together_pure ⟨rfl, rfl, hlevel.position, hlevel.blocking,
      hlevel.incoming, hlevel.held⟩

end Primitives

/-! ## A call -/

section Calls
variable {script : Script}

theorem alike_send (command : Command) (d : Deadline) :
    script.Alike true (Sync.transport.send command d) (Aio.transport.send command d) := by
  refine (alike_writeRequest command d).bind fun _ _ _ => ?_
  refine (alike_readFrame d).bind fun response response' h => ?_
  obtain rfl := h
  exact (Pairing.alike_update _).bind fun _ _ _ => Pairing.alike_pure rfl

theorem alike_handshake : script.Alike true Sync.transport.handshake Aio.transport.handshake := by
  refine Pairing.alike_self.bind fun c c' h => ?_
  obtain rfl := h
  refine (alike_ofExcept _).bind fun command command' h => ?_
  obtain rfl := h
  refine (alike_clocks (clocks_start _)).bind fun d d' h => ?_
  obtain rfl := h
  refine (alike_send command d).bind fun response response' h => ?_
  obtain rfl := h
  refine (alike_ofExcept _).bind fun info info' h => ?_
  obtain rfl := h
  exact Pairing.Alike.ite (Pairing.alike_throw rfl) (Pairing.alike_update _)

theorem alike_closeConnection {held : Bool} : script.Alike held closeConnection closeConnection := by
  refine alike_shared (E := fun _ => True) (Method.Only.self.bind fun c => ?_)
  cases c.sock with
  | none => exact .pure ()
  | some sock => exact (Method.Only.perform trivial).bind fun _ => .update _

theorem alike_connect : script.Alike true Sync.transport.connect Aio.transport.connect := by
  refine Pairing.alike_self.bind fun c c' h => ?_
  obtain rfl := h
  refine (alike_ofExcept _).bind fun address address' h => ?_
  obtain rfl := h
  refine (alike_dial _ _).bind fun sock sock' h => ?_
  obtain rfl := h
  refine (Pairing.alike_update _).bind fun _ _ _ => ?_
  refine alike_handshake.attempt.bind fun r r' h => ?_
  match r, r', h with
  | .ok _, .ok _, _ => exact Pairing.alike_pure rfl
  | .error e, .error e', h =>
    exact alike_closeConnection.bind fun _ _ _ => Pairing.alike_throw h

theorem alike_reconnect : script.Alike true Sync.transport.reconnect Aio.transport.reconnect :=
  alike_closeConnection.bind fun _ _ _ => alike_connect

theorem alike_backoff (policy : ReconnectPolicy) (attempt : ℕ) (d : Deadline) :
    script.Alike true (Sync.transport.backoff policy attempt d)
      (Aio.transport.backoff policy attempt d) := by
  have hdelay : script.Alike true (policy.delay attempt) (policy.delay attempt) := by
    refine (alike_ofExcept _).bind fun ceiling ceiling' h => ?_
    obtain rfl := h
    refine alike_shared (E := fun _ => True) ((Method.Only.perform ?_).bind fun _ => .pure _)
    trivial
  refine (alike_clocks (clocks_check d)).bind fun _ _ _ => ?_
  refine hdelay.bind fun delay delay' h => ?_
  obtain rfl := h
  refine (alike_clocks (clocks_clamp d delay)).bind fun delay delay' h => ?_
  obtain rfl := h
  by_cases hpos : 0 < delay
  · rw [if_pos hpos, if_pos hpos]
    exact (alike_sleep hpos).bind fun _ _ _ => alike_clocks (clocks_check d)
  · rw [if_neg hpos, if_neg hpos]
    exact alike_clocks (clocks_check d)

/-- Two alike results: both a value, both a lost connection, or both something else. -/
theorem agree_cases {α : Type} {r r' : Except Exc α} (h : Pairing.Agree SameClass Eq r r') :
    (∃ a, r = .ok a ∧ r' = .ok a) ∨
      (∃ fault fault', r = .error (.connectionError fault) ∧ r' = .error (.connectionError fault')) ∨
      ∃ e e', r = .error e ∧ r' = .error e' ∧ e.NotLost ∧ e'.NotLost ∧ SameClass e e' := by
  match r, r', h with
  | .ok a, .ok b, h => exact Or.inl ⟨a, rfl, congrArg _ (show a = b from h).symm⟩
  | .error e, .error e', h =>
    refine Or.inr ?_
    cases e with
    | connectionError fault =>
      cases e' with
      | connectionError fault' => exact Or.inl ⟨fault, fault', rfl, rfl⟩
      | _ => cases h
    | _ =>
      cases e' with
      | connectionError fault' => cases h
      | _ => exact Or.inr ⟨_, _, rfl, rfl, trivial, trivial, h⟩

/-- Both loops go on after a lost connection, and after nothing else. -/
theorem alike_withRetry (policy : ReconnectPolicy) (command : Command) (d : Deadline)
    (rounds attempt : ℕ) :
    script.Alike true (Sync.transport.withRetry policy command d Sync.transport.send rounds attempt)
      (Aio.transport.withRetry policy command d Aio.transport.send rounds attempt) := by
  induction rounds generalizing attempt with
  | zero => exact Pairing.alike_halt
  | succ rounds ih =>
    have hagain := ih (attempt + 1)
    refine (alike_send command d).attempt.bind fun r r' h => ?_
    rcases agree_cases h with ⟨response, rfl, rfl⟩ | ⟨fault, fault', rfl, rfl⟩ |
      ⟨e, e', rfl, rfl, hlost, hlost', hclass⟩
    · exact Pairing.alike_pure rfl
    · refine Pairing.alike_self.bind fun c c' h => ?_
      obtain rfl := h
      refine Pairing.Alike.ite (Pairing.alike_throw rfl) ?_
      refine Pairing.Alike.ite (Pairing.alike_throw rfl) ?_
      refine (alike_backoff policy (attempt + 1) d).bind fun _ _ _ => ?_
      refine alike_reconnect.attempt.bind fun r r' h => ?_
      rcases agree_cases h with ⟨_, rfl, rfl⟩ | ⟨fault, fault', rfl, rfl⟩ |
        ⟨e, e', rfl, rfl, hlost, hlost', hclass⟩
      · exact hagain
      · exact hagain
      · cases e <;> cases e' <;>
          first | exact hlost.elim | exact hlost'.elim | exact Pairing.alike_throw hclass
    · cases e <;> cases e' <;>
        first | exact hlost.elim | exact hlost'.elim | exact Pairing.alike_throw hclass

/-- The call has its slot, or has ended. -/
def Passed {κ α : Type} : Except Exc α → Except Exc α → κ → κ → SyncPlay → AioPlay → Prop
  | .ok a, .ok b, _, _, s, t => a = b ∧ Level true s t
  | .error e, .error e', _, _, s, t => SameClass e e' ∧ s.position = t.position
  | _, _, _, _, _, _ => False

section Slots
variable {s : SyncPlay} {t : AioPlay}

theorem both_of_alike {held : Bool} {κ α β : Type} {V : α → β → Prop} {m : Method Net κ Exc α}
    {m' : Method Net κ Exc β} (h : (script.during held).Alike SameClass V m m') (c : κ)
    (hlevel : Level held s t) :
    script.pairing.Both ((script.during held).Level SameClass V) m m' c c s t :=
  (h c s t hlevel).of_relevel fun _ _ h => h.position

theorem both_take (d : Deadline) (hlevel : Level false s t) :
    script.pairing.Both Passed (Sync.transport.take d) (Aio.transport.take d) () () s t := by
  refine Pairing.Both.bind ((both_of_alike (alike_clocks (clocks_remaining d)) () hlevel).mono ?_)
  rintro ⟨r, _⟩ ⟨r', _⟩ s₁ t₁ ⟨hagree, -, hlevel₁⟩
  match r, r', hagree with
  | .error e, .error e', h => exact ⟨h, hlevel₁.position⟩
  | .ok remaining, .ok remaining', h =>
    obtain rfl : remaining = remaining' := h
    obtain ⟨hposition, hblocking, hincoming, hheld⟩ := hlevel₁
    refine Pairing.both_first (Pairing.both_second (Pairing.both_second ?_))
    have hslot : ∀ timeout, script.pairing.first s₁ (.getSlot timeout) = (script.slot, s₁) :=
      fun _ => rfl
    have hawait : ∀ t, script.pairing.second t .awaitSlot = match script.slot with
        | some slot => (.ok slot, { t with held := true })
        | none => (.error .timeout, t) := fun _ => rfl
    rw [hslot, hawait]
    cases script.slot with
    | none => exact Pairing.together_pure ⟨rfl, hposition⟩
    | some slot => exact Pairing.together_pure ⟨rfl, hposition, hblocking, hincoming, rfl⟩

/-- A new connection for an empty slot. -/
theorem alike_fresh (settings : Settings) :
    script.Alike true (do
        let (outcome, connection) ← Sync.transport.connect.on (Connection.new settings)
        match outcome with
        | .ok _ => return connection
        | .error e => do
          perform (.putSlot none)
          throw e : ClientM Connection)
      (do
        let (outcome, connection) ← Aio.transport.connect.on (Connection.new settings)
        match outcome with
        | .ok _ => return connection
        | .error e => do
          perform (.putSlot none)
          throw e) := by
  refine (alike_connect.on (Connection.new settings)).bind fun x y h => ?_
  obtain ⟨outcome, connection⟩ := x
  obtain ⟨outcome', connection'⟩ := y
  obtain ⟨hagree, rfl⟩ := h
  match outcome, outcome', hagree with
  | .ok _, .ok _, _ => exact Pairing.alike_pure rfl
  | .error e, .error e', he =>
    have hput : script.Alike true (perform (.putSlot none) : ClientM _) (perform (.putSlot none)) :=
      alike_shared (E := fun _ => True) (.perform trivial)
    exact hput.bind fun _ _ _ => Pairing.alike_throw he

theorem both_acquire (settings : Settings) (d : Deadline) (hlevel : Level false s t) :
    script.pairing.Both Passed (Sync.transport.acquire settings d) (Aio.transport.acquire settings d)
      () () s t := by
  have hclosed : script.Alike false (perform .poolClosed : ClientM _) (perform .poolClosed) :=
    alike_shared (E := fun _ => True) (.perform trivial)
  refine Pairing.Both.bind ((both_of_alike hclosed () hlevel).mono ?_)
  rintro ⟨r, _⟩ ⟨r', _⟩ s₁ t₁ ⟨hagree, -, hlevel₁⟩
  match r, r', hagree with
  | .error e, .error e', h => exact ⟨h, hlevel₁.position⟩
  | .ok true, .ok true, _ => exact Pairing.together_pure ⟨rfl, hlevel₁.position⟩
  | .ok false, .ok false, _ =>
    refine Pairing.Both.bind ((both_take d hlevel₁).mono ?_)
    rintro ⟨r, _⟩ ⟨r', _⟩ s₂ t₂ h
    match r, r', h with
    | .error e, .error e', h => exact h
    | .ok slot, .ok slot', ⟨heq, hlevel₂⟩ =>
      obtain rfl := heq
      cases slot with
      | some connection => exact Pairing.together_pure ⟨rfl, hlevel₂⟩
      | none =>
        refine (both_of_alike (alike_fresh settings) () hlevel₂).mono ?_
        rintro ⟨r, _⟩ ⟨r', _⟩ s₃ t₃ ⟨hagree, -, hlevel₃⟩
        match r, r', hagree with
        | .error e, .error e', h => exact ⟨h, hlevel₃.position⟩
        | .ok c, .ok c', h => exact ⟨h, hlevel₃⟩

theorem alike_release (c : Connection) :
    script.Alike true (Transport.release c) (Transport.release c) := by
  have hclosed : script.Alike true (perform .poolClosed : ClientM _) (perform .poolClosed) :=
    alike_shared (E := fun _ => True) (.perform trivial)
  refine hclosed.bind fun closed closed' h => ?_
  obtain rfl := h
  refine Pairing.Alike.ite ?_ (alike_shared (E := fun _ => True) (.perform trivial))
  exact (alike_closeConnection.on c).bind fun _ _ _ => Pairing.alike_pure rfl

/-- What both ends of a call have in common. -/
def Over {κ α : Type} (r r' : Except Exc α) (_ _ : κ) (s : SyncPlay) (t : AioPlay) : Prop :=
  Pairing.Agree SameClass Eq r r' ∧ s.position = t.position

theorem both_request (config : ClientConfig) (rounds : ℕ) (command : Command) (timeout : Timeout) :
    script.pairing.Both Over (Sync.transport.request config rounds command timeout)
      (Aio.transport.request config rounds command timeout) () () {} {} := by
  have hlevel : Level false {} {} := ⟨rfl, rfl, rfl, rfl⟩
  refine Pairing.Both.bind ((both_of_alike (alike_clocks (clocks_start _)) () hlevel).mono ?_)
  rintro ⟨r, _⟩ ⟨r', _⟩ s₁ t₁ ⟨hagree, -, hlevel₁⟩
  match r, r', hagree with
  | .error e, .error e', h => exact ⟨h, hlevel₁.position⟩
  | .ok d, .ok d', h =>
    obtain rfl : d = d' := h
    refine Pairing.Both.bind ((both_acquire config.settings d hlevel₁).mono ?_)
    rintro ⟨r, _⟩ ⟨r', _⟩ s₂ t₂ h
    match r, r', h with
    | .error e, .error e', h => exact h
    | .ok c, .ok c', ⟨hc, hlevel₂⟩ =>
      obtain rfl := hc
      have hbody : (script.during true).Alike SameClass Eq
          (do
            let (outcome, connection) ← (Sync.transport.withRetry config.reconnect command d
              Sync.transport.send rounds 0).on c
            Transport.release connection
            Method.ofExcept outcome : ClientM Bytes)
          (do
            let (outcome, connection) ← (Aio.transport.withRetry config.reconnect command d
              Aio.transport.send rounds 0).on c
            Transport.release connection
            Method.ofExcept outcome) := by
        refine ((alike_withRetry config.reconnect command d rounds 0).on c).bind fun x y h => ?_
        obtain ⟨outcome, connection⟩ := x
        obtain ⟨outcome', connection'⟩ := y
        obtain ⟨hagree, rfl⟩ := h
        exact (alike_release connection).bind fun _ _ _ => Pairing.alike_ofExcept hagree
      exact (both_of_alike hbody () hlevel₂).mono fun _ _ _ _ h => ⟨h.1, h.2.2.position⟩

theorem both_execute {α : Type} (config : ClientConfig) (rounds : ℕ) (command : Command)
    (parse : Bytes → Except Exc α) (timeout : Timeout) :
    script.pairing.Both Over (Sync.transport.execute config rounds command parse timeout)
      (Aio.transport.execute config rounds command parse timeout) () () {} {} := by
  refine Pairing.Both.bind ((both_request config rounds command timeout).mono ?_)
  rintro ⟨r, _⟩ ⟨r', _⟩ s₁ t₁ ⟨hagree, hposition⟩
  match r, r', hagree with
  | .error e, .error e', h => exact ⟨h, hposition⟩
  | .ok payload, .ok payload', h =>
    obtain rfl : payload = payload' := h
    exact Pairing.together_pure ⟨Pairing.agree_refl (E := SameClass) (fun _ => rfl) _, hposition⟩

end Slots

end Calls

/-! ## The end of both calls -/

/-- Both clients end in one way: neither within so many rounds, or with one value, or with
exceptions of one class. -/
def EndAlike {α : Type} : Option (Except Exc α × Unit) → Option (Except Exc α × Unit) → Prop
  | some r, some r' => Pairing.Agree SameClass Eq r.1 r'.1
  | none, none => True
  | _, _ => False

section Mirror
variable {α : Type} (script : Script) (config : ClientConfig) (rounds : ℕ) (command : Command)
  (parse : Bytes → Except Exc α) (timeout : Timeout)

def syncRun : Option (Except Exc α × Unit) × SyncPlay :=
  (Sync.transport.execute config rounds command parse timeout ()).run script.sync {}

def aioRun : Option (Except Exc α × Unit) × AioPlay :=
  (Aio.transport.execute config rounds command parse timeout ()).run script.aio {}

/-- The two clients write the same frames to the same sockets and end in one way. -/
def Mirrored : Prop :=
  (syncRun script config rounds command parse timeout).2.position.frames =
      (aioRun script config rounds command parse timeout).2.position.frames ∧
    EndAlike (syncRun script config rounds command parse timeout).1
      (aioRun script config rounds command parse timeout).1

/-- The clients mirror each other on every script on which no connect times out, no timeout is over
before the operation it is for and no time is one that C does not hold. -/
theorem mirrored_of_not_missed
    (h : (aioRun script config rounds command parse timeout).2.missed = false) :
    Mirrored script config rounds command parse timeout := by
  have hboth : script.pairing.Ended (fun x y s t => Over x.1 y.1 x.2 y.2 s t)
      (syncRun script config rounds command parse timeout)
      (aioRun script config rounds command parse timeout) := by
    refine (both_execute config rounds command parse timeout).resolve_left fun hmissed => ?_
    exact Bool.false_ne_true (h.symm.trans hmissed)
  unfold Mirrored
  generalize syncRun script config rounds command parse timeout = x,
    aioRun script config rounds command parse timeout = y at hboth
  obtain ⟨_ | r, s⟩ := x <;> obtain ⟨_ | r', t⟩ := y
  · exact ⟨congrArg Position.frames hboth, trivial⟩
  · exact hboth.elim
  · exact hboth.elim
  · exact ⟨congrArg Position.frames hboth.2, hboth.1⟩

end Mirror

/-- A read that gets its bytes when so many were asked for. -/
def Delivery.of (data : Bytes) (size : ℕ) : Delivery size :=
  if h : data.length = size then .whole ⟨data, h⟩
  else if h : ([] : Bytes).length < size then .part ⟨[], h⟩ .closed
  else .whole ⟨[], Nat.le_antisymm (Nat.zero_le _) (not_lt.mp h)⟩

/-- A server that went away and is back: the first write on the old connection is lost, and every
byte arrives for itself. -/
def back (connects : ℕ → Except Loss SockId) : Script where
  clock _ := 0
  jitter _ := 0
  poolClosed _ := false
  slot := some (some .pooled)
  connects := connects
  tls _ := .ok ()
  writes n := if n = 0 then .error .lost else .ok ()
  reads n size := .of (match n with
    | 0 => beBytes 17
    | 1 => encodeUtf8 "ok|1;4096;0;admin".toList
    | 2 => beBytes 4
    | _ => encodeUtf8 "ok|7".toList) size
  pieces _ := 1

def reconnecting : ClientConfig := ⟨Connection.pooled.settings, none, {}⟩

theorem mirrored_when_back :
    Mirrored (back fun _ => .ok 4) reconnecting 3 .getHit Except.ok .default :=
  mirrored_of_not_missed _ _ _ _ _ _ (by decide +kernel)

/-- The same server, and the first reconnect times out. -/
def backLate : Script := back fun n => if n = 0 then .error .late else .ok 4

theorem syncRun_backLate :
    (syncRun backLate reconnecting 3 .getHit Except.ok .default).1 =
      some (.ok (encodeUtf8 "ok|7".toList), ()) := by
  decide +kernel

theorem aioRun_backLate :
    (aioRun backLate reconnecting 3 .getHit Except.ok .default).1 =
      some (.error (.timeoutError (.connectTimedOut reconnecting.settings.address)), ()) := by
  decide +kernel

/-- When the first reconnect times out, one client goes on and the other gives up. -/
theorem not_mirrored_when_late : ¬ Mirrored backLate reconnecting 3 .getHit Except.ok .default := by
  unfold Mirrored
  rw [syncRun_backLate, aioRun_backLate]
  exact And.right

end Mirroring

end FqClient
