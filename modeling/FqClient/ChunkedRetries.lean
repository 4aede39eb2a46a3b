import FqClient.ChunkedAnswers
import FqClient.Effects.Runs
import FqClient.Exchanges
import FqClient.Retrying

namespace FqClient

open Effects

/-! ## One assembler for many answers -/

/-- What an assembler returns or raises for the frames fed to it one after another. -/
def ChunkAssembler.feeds : ChunkAssembler → List Bytes → List (Except Exc (Option Bytes))
  | _, [] => []
  | body, frame :: frames => (body.feedOn frame).1 :: feeds (body.feedOn frame).2 frames

def okFrame (data : Bytes) : Bytes := tagOk ++ respDelimiter :: data

def errFrame (data : Bytes) : Bytes := tagErr ++ respDelimiter :: data

/-- How the server ends an answer. -/
inductive Ending
  | ok (data : Bytes)
  | err (data : Bytes)

def Ending.frame : Ending → Bytes
  | .ok data => okFrame data
  | .err data => errFrame data

/-- What an assembler makes of the ending, after the parts. -/
def Ending.result (body : Bytes) : Ending → Except Exc (Option Bytes)
  | .ok data => .ok (some (okFrame (body ++ data)))
  | .err data => .error (parseError data)

/-- A complete answer. -/
structure ChunkedAnswer where
  parts : List Bytes
  ending : Ending

def ChunkedAnswer.frames (answer : ChunkedAnswer) : List Bytes :=
  answer.parts.map nxtFrame ++ [answer.ending.frame]

namespace ChunkedRetries

section Feeds
variable (body : ChunkAssembler)

theorem feedOn_nxt (part : Bytes) : body.feedOn (nxtFrame part) = (.ok none, body ++ part) := by
  rw [nxtFrame, feedOn_of_tag body rfl tagNxt_free, if_pos rfl]

/-- Either ending empties the assembler. -/
theorem feedOn_ending (ending : Ending) : body.feedOn ending.frame = (ending.result body, []) := by
  cases ending with
  | ok data =>
    change body.feedOn (tagOk ++ respDelimiter :: data) = _
    rw [feedOn_of_tag body rfl tagOk_free, if_neg (by decide), if_pos rfl]
    rfl
  | err data =>
    change body.feedOn (tagErr ++ respDelimiter :: data) = _
    rw [feedOn_of_tag body rfl tagErr_free, if_neg (by decide), if_neg (by decide), if_pos rfl]
    rfl

/-- A complete answer, whatever was fed before it and is fed after it. -/
theorem feeds_frames (answer : ChunkedAnswer) (frames : List Bytes) :
    body.feeds (answer.frames ++ frames) = answer.parts.map (fun _ => .ok none) ++
      answer.ending.result (body ++ answer.parts.flatten) :: ChunkAssembler.feeds [] frames := by
  obtain ⟨parts, ending⟩ := answer
  unfold ChunkedAnswer.frames
  dsimp only
  induction parts generalizing body with
  | nil =>
    change (body.feedOn ending.frame).1 :: ChunkAssembler.feeds (body.feedOn ending.frame).2 frames = _
    rw [feedOn_ending, List.flatten_nil, List.append_nil]
    rfl
  | cons part parts ih =>
    change (body.feedOn (nxtFrame part)).1 :: ChunkAssembler.feeds (body.feedOn (nxtFrame part)).2
      (parts.map nxtFrame ++ [ending.frame] ++ frames) = _
    rw [feedOn_nxt, ih, List.flatten_cons, List.append_assoc]
    rfl

theorem feeds_answer (answer : ChunkedAnswer) : body.feeds answer.frames =
    answer.parts.map (fun _ => .ok none) ++ [answer.ending.result (body ++ answer.parts.flatten)] := by
  have h := feeds_frames body answer []
  rwa [List.append_nil] at h

theorem feeds_answers (answers : List ChunkedAnswer) :
    ChunkAssembler.feeds [] (answers.flatMap ChunkedAnswer.frames) =
      answers.flatMap fun answer => ChunkAssembler.feeds [] answer.frames := by
  induction answers with
  | nil => rfl
  | cons answer answers ih =>
    rw [List.flatMap_cons, List.flatMap_cons, feeds_frames, ih, feeds_answer, List.append_assoc]
    rfl

end Feeds

/-! ## A server that answers a chunked request -/

/-- The bytes are of these frames, one after another, up to any place. -/
def Sends (frames : List Bytes) (sent : Bytes) : Prop :=
  ∃ wires, frames.mapM encodeFrame = .ok wires ∧ sent <+: wires.flatten

/-- What still comes after the parts `got`: parts that are cut off, or the rest of the body. -/
inductive Rest (body got : Bytes) (sent : Bytes) : Prop
  | cut (parts : List Bytes) (h : Sends (parts.map nxtFrame) sent)
  | whole (parts : List Bytes) (last : Bytes) (hbody : got ++ parts.flatten ++ last = body)
      (h : Sends (parts.map nxtFrame ++ [okFrame last]) sent)

/-- What the server sent on the newest connection and was not read yet, and whether that was
greeted. -/
structure Line where
  pending : Bytes
  greeted : Bool
  deriving DecidableEq

/-- It answers HELLO with one frame, and a command with the body, split in any way, or with parts
that are cut off. -/
def Line.Answers (body : Bytes) (s s' : Line) : Prop :=
  s'.greeted = true ∧ ∃ sent, s'.pending = s.pending ++ sent ∧
    if s.greeted then Rest body [] sent else ∃ greeting, Sends [greeting] sent

/-- Everything else may happen: any timeouts, and any losses of any connection. -/
def serving (body : Bytes) : World Net Line where
  permits _ _ := True
  step s op answer s' := match op, answer with
    | .createConnection _ _ _, .ok _ | .openConnection _ _ _, .ok _ => s' = ⟨[], false⟩
    | .sendall _ _, .ok _ | .writeDrain _ _, .ok _ => s.Answers body s'
    | .sendall _ _, .error _ | .writeDrain _ _, .error _ => True
    | .recv _ _, .ok chunk => s = ⟨chunk.1 ++ s'.pending, s'.greeted⟩
    | .readexactly _ _, .ok data => s = ⟨data.1 ++ s'.pending, s'.greeted⟩
    | .readexactly _ _, .error _ => ∃ lost, s = ⟨lost ++ s'.pending, s'.greeted⟩
    | _, _ => s' = s

theorem Sends.read {frames : List Bytes} {sent header payload rest : Bytes} {limit : ℕ}
    (h : Sends frames sent) (hsent : sent = header ++ payload ++ rest)
    (hsize : decodeFrameSize header limit = .ok payload.length) :
    ∃ later, frames = payload :: later ∧ Sends later rest := by
  obtain ⟨wires, hwires, hprefix⟩ := h
  have hheader := (decodeFrameSize_ok hsize).1
  cases frames with
  | nil =>
    rw [List.mapM_nil] at hwires
    rw [← Except.ok.inj hwires, List.flatten_nil, List.prefix_nil, hsent] at hprefix
    rw [(List.append_eq_nil_iff.mp (List.append_eq_nil_iff.mp hprefix).1).1] at hheader
    exact absurd hheader (by decide)
  | cons frame frames =>
    rw [List.mapM_cons, bind_ok_iff] at hwires
    obtain ⟨wire, hwire, hwires⟩ := hwires
    rw [bind_ok_iff] at hwires
    obtain ⟨later, hlater, hwires⟩ := hwires
    have hlength := lt_of_encodeFrame hwire
    rw [encodeFrame_ok hlength] at hwire
    rw [← Except.ok.inj hwires, ← Except.ok.inj hwire, hsent, List.flatten_cons, List.append_assoc,
      List.append_assoc] at hprefix
    -- the headers are the same, so are the payloads
    obtain ⟨more, hmore⟩ := hprefix
    rw [List.append_assoc, List.append_assoc] at hmore
    obtain ⟨hframe, hrest⟩ := payload_of_frame hlength hsize hmore
    exact ⟨frames, by rw [hframe], later, hlater, more, hrest⟩

/-- Reading a frame of the answer. -/
theorem Rest.read {body got sent header payload rest : Bytes} {limit : ℕ} (h : Rest body got sent)
    (hsent : sent = header ++ payload ++ rest)
    (hsize : decodeFrameSize header limit = .ok payload.length) :
    (∃ part, payload = nxtFrame part ∧ Rest body (got ++ part) rest) ∨
      ∃ last, payload = okFrame last ∧ got ++ last = body := by
  cases h with
  | cut parts h =>
    obtain ⟨later, hlater, hsends⟩ := h.read hsent hsize
    cases parts with
    | nil => cases hlater
    | cons part parts =>
      obtain ⟨hpart, hparts⟩ := List.cons.inj hlater
      rw [← hparts] at hsends
      exact Or.inl ⟨part, hpart.symm, .cut parts hsends⟩
  | whole parts last hbody h =>
    obtain ⟨later, hlater, hsends⟩ := h.read hsent hsize
    cases parts with
    | nil =>
      rw [List.flatten_nil, List.append_nil] at hbody
      exact Or.inr ⟨last, (List.cons.inj hlater).1.symm, hbody⟩
    | cons part parts =>
      obtain ⟨hpart, hparts⟩ := List.cons.inj hlater
      rw [← hparts] at hsends
      refine Or.inl ⟨part, hpart.symm, .whole parts last ?_ hsends⟩
      rwa [List.flatten_cons, ← List.append_assoc] at hbody

section Serving
variable {body : Bytes}

/-- The bytes `b` of what was sent were read. -/
def Got (sent b : Bytes) (s : Line) : Prop := s.greeted = true ∧ sent = b ++ s.pending

theorem keeps_setting (J : Line → Prop) : Keeps (serving body) NetOp.Setting J := by
  intro s op hop hs
  refine ⟨trivial, fun a s' h => ?_⟩
  cases op with
  | monotonic => rwa [show s' = s from h]
  | settimeout sock timeout => rwa [show s' = s from h]
  | enterTimeout delay => rwa [show s' = s from h]
  | _ => exact hop.elim

theorem Got.more {sent b lost : Bytes} {s s' : Line} (hs : Got sent b s)
    (h : s = ⟨lost ++ s'.pending, s'.greeted⟩) : Got sent (b ++ lost) s' := by
  obtain ⟨hgreeted, hsent⟩ := hs
  rw [h] at hgreeted hsent
  exact ⟨hgreeted, by rw [hsent, List.append_assoc]⟩

theorem reader (sock : SockId) (sent : Bytes) : Reader (serving body) sock (Got sent) where
  setting _ := keeps_setting _
  recv b s size hs := by
    refine ⟨trivial, fun answer s' h => ?_⟩
    cases answer with
    | ok chunk => exact hs.more h
    | error fault => rwa [show s' = s from h]
  readexactly b s size hs := by
    refine ⟨trivial, fun answer s' h => ?_⟩
    cases answer with
    | ok data => exact hs.more h
    | error fault =>
      obtain ⟨lost, h⟩ := h
      exact ⟨lost, hs.more h⟩

/-- A frame of what was sent. -/
theorem wpm_frame (p : Package) (d : Deadline) {c : Connection} (hsock : c.sock.isSome) {s : Line}
    (hs : s.greeted = true) :
    wpm (serving body) (p.transport.readFrame d) (fun r c' s' => c' = c ∧ ∀ payload, r = .ok payload →
      s'.greeted = true ∧ ∃ header limit, s.pending = header ++ payload ++ s'.pending ∧
        decodeFrameSize header limit = .ok payload.length) c s := by
  obtain ⟨sock, hsock⟩ := Option.isSome_iff_exists.mp hsock
  have hgot : Got s.pending [] s := ⟨hs, rfl⟩
  refine wpm_mono (wpm_readFrame p (reader sock s.pending) d hsock hgot) ?_
  intro r c' s' ⟨hc, hr⟩
  refine ⟨hc, fun payload h => ?_⟩
  rw [h] at hr
  obtain ⟨header, hsize, hgreeted, hpending⟩ := hr
  exact ⟨hgreeted, header, c.maxMessageSize, hpending, hsize⟩

/-- An answer is read as its body, or the call does not return. -/
theorem wpm_readChunks (p : Package) (d : Deadline) (rounds : ℕ) {got : ChunkAssembler} {c : Connection}
    (hsock : c.sock.isSome) {s : Line} (hs : s.greeted = true) (hrest : Rest body got s.pending) :
    wpm (serving body) (p.transport.readChunks d rounds got)
      (fun r _ _ => ∀ response, r = .ok response → response = okFrame body) c s := by
  induction rounds generalizing got s with
  | zero => exact trivial
  | succ rounds ih =>
    unfold Transport.readChunks
    rw [wpm_bind]
    refine wpm_mono (wpm_frame p d hsock hs) ?_
    intro r c₁ s₁ hpost
    obtain ⟨hc, hr⟩ := hpost
    cases r with
    | error e => exact fun _ h => by cases h
    | ok payload =>
      obtain ⟨hgreeted, header, limit, hpending, hsize⟩ := hr payload rfl
      rw [hc]
      dsimp only
      rw [wpm_bind, wpm_ofExcept]
      rcases hrest.read hpending hsize with ⟨part, hpayload, hrest₁⟩ | ⟨last, hpayload, hbody⟩
      · rw [hpayload, feed_nxt]
        exact ih hgreeted hrest₁
      · rw [hpayload, okFrame, feed_ok, hbody]
        exact fun response h => (Except.ok.inj h).symm

/-- The connection is closed, or it is open and everything sent on it was read. -/
def Ready (c : Connection) (s : Line) : Prop := c.sock = none ∨ s = ⟨[], true⟩

theorem answers_writeOp (p : Package) {sock : SockId} {frame : Bytes} {s s' : Line}
    {a : (p.writeOp sock frame).Answer} (h : (serving body).step s (p.writeOp sock frame) a s')
    (hok : p.wrote a = .ok ()) : s.Answers body s' := by
  cases p with
  | sync =>
    match a, h, hok with
    | .ok _, h, _ => exact h
  | aio =>
    match a, h, hok with
    | .ok _, h, _ => exact h

/-- One attempt. -/
theorem wpm_sendChunked (p : Package) (chunks : ℕ) (command : Command) (d : Deadline) {c : Connection}
    {s : Line} (hs : Ready c s) :
    wpm (serving body) (p.transport.sendChunked chunks command d)
      (fun r _ _ => ∀ response, r = .ok response → response = okFrame body) c s := by
  unfold Transport.sendChunked
  rw [wpm_bind]
  apply wpm_writeRequest p (keeps_setting (Ready c)) command d hs
  · exact fun e s₁ _ _ _ h => by cases h
  · intro sock frame s₁ hs₁ hsock _ _
    refine ⟨trivial, fun a s₂ h => ?_⟩
    cases hwrote : p.wrote a with
    | error e => exact fun _ h => by cases h
    | ok _ =>
      have hready : s₁ = ⟨[], true⟩ := hs₁.resolve_left (by rw [hsock]; exact Option.some_ne_none _)
      obtain ⟨hgreeted, sent, hpending, hrest⟩ := answers_writeOp p h hwrote
      rw [hready] at hpending hrest
      replace hpending : s₂.pending = sent := hpending
      rw [← hpending] at hrest
      refine wpm_readChunks p d chunks ?_ hgreeted hrest
      rw [Connection.sock_noteWrite, hsock]
      rfl

/-- The handshake of a connection that was just opened reads all of its answer. -/
theorem wpm_handshake (p : Package) {c : Connection} :
    wpm (serving body) p.transport.handshake (fun r c' s' => r = .ok () → Ready c' s')
      c ⟨[], false⟩ := by
  apply wpm_handshake_of
  · exact fun _ _ h => by cases h
  · intro command _
    refine ⟨trivial, fun now s₁ hs₁ => ?_⟩
    apply wpm_send_of
    apply wpm_writeRequest p (keeps_setting (· = ⟨[], false⟩)) command _ hs₁
    · exact fun e s₂ _ _ h => by cases h
    · intro sock frame s₂ hs₂ hsock _ _
      refine ⟨trivial, fun a s₃ h => ?_⟩
      cases hwrote : p.wrote a with
      | error e => exact fun h => by cases h
      | ok _ =>
        obtain ⟨hgreeted, sent, hpending, hgreeting⟩ := answers_writeOp p h hwrote
        rw [hs₂] at hpending hgreeting
        obtain ⟨greeting, hsends⟩ := hgreeting
        replace hpending : s₃.pending = sent := hpending
        rw [← hpending] at hsends
        refine wpm_mono (wpm_frame p _ ?_ hgreeted) ?_
        · rw [Connection.sock_noteWrite, hsock]
          rfl
        · intro r c₄ s₄ ⟨_, hr⟩
          cases r with
          | error e => exact fun h => by cases h
          | ok payload =>
            obtain ⟨hgreeted₄, header, limit, hread, hsize⟩ := hr payload rfl
            obtain ⟨later, hlater, hrest⟩ := hsends.read hread hsize
            rw [← (List.cons.inj hlater).2] at hrest
            obtain ⟨wires, hwires, hprefix⟩ := hrest
            rw [List.mapM_nil] at hwires
            rw [← Except.ok.inj hwires, List.flatten_nil, List.prefix_nil] at hprefix
            have hready : s₄ = ⟨[], true⟩ := by
              rw [← hprefix, ← hgreeted₄]
            apply Greeted.response
            · exact fun _ h => by cases h
            · exact fun _ _ _ => Or.inr hready

theorem dialer : Dialer (serving body) (fun _ => True) fun _ s => s = ⟨[], false⟩ where
  timeout s delay _ := ⟨trivial, fun _ _ _ => trivial⟩
  create s host port timeout _ := by
    refine ⟨trivial, fun a s' h => ?_⟩
    cases a with
    | ok sock => exact h
    | error fault => exact trivial
  openTo s host port hostname _ := by
    refine ⟨trivial, fun a s' h => ?_⟩
    cases a with
    | ok sock => exact h
    | error fault => exact trivial
  wrap s sock hostname hs := ⟨trivial, fun _ s' h => by rwa [show s' = s from h]⟩
  close s sock _ := ⟨trivial, fun _ _ _ => trivial⟩

theorem wpm_reconnect (p : Package) {c : Connection} {s : Line} :
    wpm (serving body) p.transport.reconnect (fun _ c' s' => Ready c' s') c s := by
  have hconnect : ∀ {s : Line}, wpm (serving body) p.transport.connect (fun _ c' s' => Ready c' s')
      { c with sock := none } s := by
    intro s
    refine wpm_connect_by p dialer trivial (fun _ _ _ => Or.inl rfl) fun sock s' hs' => ?_
    rw [hs']
    refine wpm_mono (wpm_handshake p) ?_
    intro r c₂ s₂ hready
    cases r with
    | ok _ => exact hready rfl
    | error e => exact wpm_close_of (fun _ _ => ⟨trivial, fun _ _ => Or.inl rfl⟩) fun _ => Or.inl rfl
  exact wpm_reconnect_of (fun _ _ => ⟨trivial, fun _ _ => hconnect⟩) fun _ => hconnect

theorem wpm_withRetry (p : Package) (policy : ReconnectPolicy) (command : Command) (d : Deadline)
    (rounds chunks : ℕ) {c : Connection} {s : Line} (hs : Ready c s) :
    wpm (serving body) (p.transport.withRetry policy command d
      (p.transport.sendChunked chunks) rounds 0)
      (fun r _ _ => ∀ response, r = .ok response → response = okFrame body) c s := by
  have hfailed : ∀ {e : Exc} (response : Bytes), Except.error e = .ok response →
      response = okFrame body :=
    fun _ h => by cases h
  have hround : Retrying (serving body) p.transport policy command d (p.transport.sendChunked chunks)
      (fun _ => Ready) (fun _ _ _ _ => True) (fun _ _ _ => True)
      (fun r _ _ => ∀ response, r = .ok response → response = okFrame body) := by
    refine ⟨?_, ?_, ?_, ?_⟩
    · intro _ c s hs
      refine wpm_mono (wpm_sendChunked p chunks command d hs) ?_
      intro r c' s' h
      split
      · trivial
      · exact h
    · exact fun _ _ _ _ _ _ => hfailed
    · intro n _ c s _ _ _
      have hkeeps : Keeps (serving body) NetOp.Waiting fun _ => True :=
        fun _ _ _ _ => ⟨trivial, fun _ _ _ => trivial⟩
      refine wpm_mono (wpm_of_leaves hkeeps (p.backoff_raises policy (n + 1) d) trivial) ?_
      intro r c' s' _
      split
      · trivial
      · exact hfailed
    · intro _ c s _
      refine wpm_mono (wpm_reconnect p) ?_
      intro r c' s' h
      split
      · exact h
      · exact h
      · exact hfailed
  exact hround.withRetry trivial rounds (n := 0) hs

end Serving

/-- Whatever the splits of the body, and however many attempts are cut off before, a chunked request
that returns gives the whole body; and an assembler that is used again gives for every answer what a
new one would give. -/
theorem chunked_answers_independent (p : Package) (policy : ReconnectPolicy) (command : Command)
    (d : Deadline) (rounds chunks : ℕ) (c : Connection) (body : Bytes) :
    (∀ response c' s', Reaches (serving body)
      (p.transport.withRetry policy command d (p.transport.sendChunked chunks) rounds 0 c, ⟨[], true⟩)
      (.pure (.ok response, c'), s') → response = tagOk ++ respDelimiter :: body) ∧
    ∀ answers : List ChunkedAnswer, ChunkAssembler.feeds [] (answers.flatMap ChunkedAnswer.frames) =
      answers.flatMap fun answer => ChunkAssembler.feeds [] answer.frames := by
  constructor
  · intro response c' s' hrun
    have hwp : wpm (serving body)
        (p.transport.withRetry policy command d (p.transport.sendChunked chunks) rounds 0)
        (fun r _ _ => ∀ response, r = .ok response → response = okFrame body) c ⟨[], true⟩ :=
      wpm_withRetry p policy command d rounds chunks (Or.inr rfl)
    exact wp_result hwp hrun response rfl
  · exact feeds_answers

/-! ### A request whose first attempt is cut off -/

def wire (payload : Bytes) : Bytes := beBytes payload.length ++ payload

/-- What comes on the first socket, number 3, and on the others. -/
def sentOn (sock : SockId) (greeted : Bool) : Bytes :=
  if greeted then
    if sock = 3 then wire (nxtFrame (encodeUtf8 "x".toList))
    else wire (nxtFrame (encodeUtf8 "a|".toList)) ++ wire (okFrame (encodeUtf8 "b".toList))
  else wire (encodeUtf8 "ok|1;4096;0;admin".toList)

def cutOnce (s : Line) : (op : NetOp) → op.Answer × Line
  | .createConnection _ _ _ => (.ok 0, ⟨[], false⟩)
  | .openConnection _ _ _ => (.ok 0, ⟨[], false⟩)
  | .sendall sock _ => (.ok (), ⟨s.pending ++ sentOn sock s.greeted, true⟩)
  | .writeDrain sock _ => (.ok (), ⟨s.pending ++ sentOn sock s.greeted, true⟩)
  | .recv _ size => (.ok ⟨s.pending.take size, List.length_take_le _ _⟩,
      ⟨s.pending.drop size, s.greeted⟩)
  | op => (op.calm, s)

theorem answers_cutOnce (s : Line) (sock : SockId) :
    s.Answers (encodeUtf8 "a|b".toList) ⟨s.pending ++ sentOn sock s.greeted, true⟩ := by
  refine ⟨rfl, sentOn sock s.greeted, rfl, ?_⟩
  unfold sentOn
  split
  · split
    · exact .cut [encodeUtf8 "x".toList] ⟨_, rfl, by decide +kernel⟩
    · exact .whole [encodeUtf8 "a|".toList] (encodeUtf8 "b".toList) (by decide +kernel)
        ⟨_, rfl, by decide +kernel⟩
  · exact ⟨encodeUtf8 "ok|1;4096;0;admin".toList, _, rfl, by decide +kernel⟩

theorem serving_cutOnce (s : Line) (op : NetOp) :
    (serving (encodeUtf8 "a|b".toList)).step s op (cutOnce s op).1 (cutOnce s op).2 := by
  cases op with
  | sendall sock data => exact answers_cutOnce s sock
  | writeDrain sock data => exact answers_cutOnce s sock
  | recv sock size =>
    change s = ⟨s.pending.take size ++ s.pending.drop size, s.greeted⟩
    rw [List.take_append_drop]
  | readexactly sock size => exact ⟨[], rfl⟩
  | _ => rfl

/-- An answer that is an error after a part, and a whole one. -/
def refusedThenWhole : List ChunkedAnswer :=
  [⟨[encodeUtf8 "a".toList], .err (encodeUtf8 "5002|large".toList)⟩, ⟨[], .ok (encodeUtf8 "b".toList)⟩]

theorem cut_off_answer_independent :
    encodeUtf8 "ok|a|b".toList = tagOk ++ respDelimiter :: encodeUtf8 "a|b".toList ∧
    ChunkAssembler.feeds [] (refusedThenWhole.flatMap ChunkedAnswer.frames) =
      refusedThenWhole.flatMap fun answer => ChunkAssembler.feeds [] answer.frames := by
  have h := chunked_answers_independent .sync {} .getHit Deadline.unlimited 2 3 .pooled
    (encodeUtf8 "a|b".toList)
  refine ⟨?_, h.2 _⟩
  exact h.1 _ { Connection.pooled with sock := some 0, role := "admin".toList } ⟨[], true⟩
    (reaches_run serving_cutOnce (by decide +kernel))

end ChunkedRetries

end FqClient
