import FqClient.Client
import FqClient.FramingRoundTrip
import Mathlib.Tactic.NormNum

namespace FqClient

open Effects

/-! ## Bytes with idle times between them -/

/-- The bytes of a subscription in the order they arrive; `none` where the poll interval passes
without one. -/
abbrev Arrivals := List (Option UInt8)

namespace Arrivals

/-- The bytes before the next idle time. -/
def available : Arrivals → Bytes
  | some byte :: rest => byte :: available rest
  | _ => []

/-- How many bytes arrive. -/
def count (script : Arrivals) : ℕ := (script.filterMap id).length

/-- The bytes are the frames of the payloads. -/
def Carries (payloads : List Bytes) (script : Arrivals) : Prop :=
  script.filterMap id = (payloads.map frameOf).flatten

/-- No idle time falls into a frame. -/
def BetweenFrames (payloads : List Bytes) (script : Arrivals) : Prop :=
  ∀ before later, script = before ++ none :: later →
    ∃ done, done <+: payloads ∧ before.filterMap id = (done.map frameOf).flatten

theorem filterMap_map_some (data : Bytes) : (data.map some).filterMap id = data := by
  rw [List.filterMap_map]
  exact List.filterMap_some

theorem available_append (data : Bytes) (rest : Arrivals) :
    available (data.map some ++ rest) = data ++ available rest := by
  induction data with
  | nil => rfl
  | cons byte data ih => exact congrArg (byte :: ·) ih

/-- The bytes before the next idle time, and then that time or the end. -/
theorem available_split (script : Arrivals) :
    ∃ rest, script = (available script).map some ++ rest ∧ ∀ byte later, rest ≠ some byte :: later := by
  induction script with
  | nil => exact ⟨[], rfl, by simp⟩
  | cons arrival script ih =>
    cases arrival with
    | none => exact ⟨none :: script, rfl, by simp⟩
    | some byte =>
      obtain ⟨rest, hsplit, hrest⟩ := ih
      refine ⟨rest, ?_, hrest⟩
      exact congrArg (some byte :: ·) hsplit

theorem available_drop (script : Arrivals) {n : ℕ} (h : n ≤ (available script).length) :
    available (script.drop n) = (available script).drop n := by
  induction script generalizing n with
  | nil => simp [available]
  | cons arrival script ih =>
    cases n with
    | zero => rfl
    | succ n =>
      cases arrival with
      | none => simp [available] at h
      | some byte => exact ih (by simpa [available] using h)

theorem count_drop_le (script : Arrivals) (n : ℕ) : count (script.drop n) ≤ count script :=
  ((List.drop_sublist n script).filterMap id).length_le

theorem count_append (data : Bytes) (rest : Arrivals) :
    count (data.map some ++ rest) = data.length + count rest := by
  unfold count
  rw [List.filterMap_append, filterMap_map_some, List.length_append]

theorem carries_none {payloads : List Bytes} {rest : Arrivals} :
    Carries payloads (none :: rest) ↔ Carries payloads rest := Iff.rfl

theorem betweenFrames_none {payloads : List Bytes} {rest : Arrivals} :
    BetweenFrames payloads (none :: rest) ↔ BetweenFrames payloads rest := by
  constructor
  · intro h before later hrest
    exact h (none :: before) later (congrArg (none :: ·) hrest)
  · intro h before later hrest
    cases before with
    | nil => exact ⟨[], List.nil_prefix, rfl⟩
    | cons arrival before =>
      have hcons := List.cons.inj hrest
      obtain ⟨done, hdone, heq⟩ := h before later hcons.2
      refine ⟨done, hdone, ?_⟩
      rw [← hcons.1]
      exact heq

theorem idle_drop (payloads : List Bytes) {script : Arrivals} (h : available script = []) :
    (Carries payloads (script.drop 1) ↔ Carries payloads script) ∧
      (BetweenFrames payloads (script.drop 1) ↔ BetweenFrames payloads script) := by
  match script, h with
  | [], _ => exact ⟨Iff.rfl, Iff.rfl⟩
  | none :: rest, _ => exact ⟨carries_none.symm, betweenFrames_none.symm⟩

theorem not_betweenFrames_of_part {p part missing : Bytes} {ps : List Bytes} {rest : Arrivals}
    (hsplit : part ++ missing = frameOf p) (hmissing : missing ≠ []) (hpart : part ≠ []) :
    ¬ BetweenFrames (p :: ps) (part.map some ++ none :: rest) := by
  intro h
  obtain ⟨done, ⟨more, hdone⟩, heq⟩ := h _ rest rfl
  rw [filterMap_map_some] at heq
  cases done with
  | nil => exact hpart heq
  | cons q qs =>
    have hq : q = p := (List.cons.inj hdone).1
    have hlen : part.length + missing.length = (frameOf p).length := by
      rw [← hsplit, List.length_append]
    have hpos : 0 < missing.length := List.length_pos_iff.mpr hmissing
    rw [heq, hq, List.map_cons, List.flatten_cons, List.length_append] at hlen
    omega

theorem betweenFrames_frame {p : Bytes} {ps : List Bytes} {rest : Arrivals} :
    BetweenFrames (p :: ps) ((frameOf p).map some ++ rest) ↔ BetweenFrames ps rest := by
  constructor
  · intro h before later hrest
    have hsplit : (frameOf p).map some ++ rest = ((frameOf p).map some ++ before) ++ none :: later := by
      rw [hrest, List.append_assoc]
    obtain ⟨done, hdone, heq⟩ := h _ later hsplit
    rw [List.filterMap_append, filterMap_map_some] at heq
    cases done with
    | nil => exact absurd (List.append_eq_nil_iff.mp heq).1 (frameOf_ne_nil p)
    | cons q qs =>
      obtain ⟨hq, hqs⟩ := List.cons_prefix_cons.mp hdone
      rw [hq, List.map_cons, List.flatten_cons] at heq
      exact ⟨qs, hqs, List.append_cancel_left heq⟩
  · intro h before later hsplit
    rcases List.append_eq_append_iff.mp hsplit with ⟨before', hbefore, hrest⟩ | ⟨frame', hframe, hlater⟩
    · obtain ⟨done, hdone, heq⟩ := h before' later hrest
      refine ⟨p :: done, List.cons_prefix_cons.mpr ⟨rfl, hdone⟩, ?_⟩
      rw [hbefore, List.filterMap_append, filterMap_map_some, heq, List.map_cons, List.flatten_cons]
    · -- an idle time inside the frame itself is impossible
      cases frame' with
      | nil =>
        obtain ⟨done, hdone, heq⟩ := h [] later hlater.symm
        refine ⟨p :: done, List.cons_prefix_cons.mpr ⟨rfl, hdone⟩, ?_⟩
        rw [List.append_nil] at hframe
        rw [← hframe, filterMap_map_some, List.map_cons, List.flatten_cons, ← heq]
        exact (List.append_nil _).symm
      | cons arrival frame' =>
        have hnone : none ∈ (frameOf p).map some := by
          rw [hframe, ← (List.cons.inj hlater).1]
          simp
        simp at hnone

theorem carries_nil {script : Arrivals} (h : Carries [] script) :
    BetweenFrames [] script ∧ (script = [] ∨ ∃ rest, script = none :: rest) := by
  constructor
  · intro before later hsplit
    refine ⟨[], List.nil_prefix, ?_⟩
    unfold Carries at h
    rw [hsplit, List.filterMap_append] at h
    exact (List.append_eq_nil_iff.mp h).1
  · match script, h with
    | [], _ => exact Or.inl rfl
    | none :: rest, _ => exact Or.inr ⟨rest, rfl⟩

/-- How the next payload arrives: after an idle time, at once, or with an idle time inside. -/
theorem carries_cons {p : Bytes} {ps : List Bytes} {script : Arrivals} (h : Carries (p :: ps) script) :
    (∃ rest, script = none :: rest) ∨
    (∃ rest, script = (frameOf p).map some ++ rest ∧ Carries ps rest) ∨
    ∃ part missing rest, script = part.map some ++ none :: rest ∧ part ++ missing = frameOf p ∧
      missing ≠ [] ∧ part ≠ [] := by
  obtain ⟨rest, hsplit, hrest⟩ := available_split script
  unfold Carries at h
  rw [hsplit, List.filterMap_append, filterMap_map_some, List.map_cons, List.flatten_cons] at h
  rcases List.append_eq_append_iff.mp h with ⟨missing, hmissing, hmore⟩ | ⟨extra, hextra, hmore⟩
  · by_cases hnil : missing = []
    · refine Or.inr (Or.inl ⟨rest, ?_, ?_⟩)
      · rw [hmissing, hnil, List.append_nil]
        exact hsplit
      · rw [hnil] at hmore
        exact hmore
    · match rest, hrest with
      | [], _ => exact absurd (List.append_eq_nil_iff.mp hmore.symm).1 hnil
      | some byte :: later, hrest => exact absurd rfl (hrest byte later)
      | none :: later, _ =>
        by_cases hpart : available script = []
        · rw [hpart] at hsplit
          exact Or.inl ⟨later, hsplit⟩
        · exact Or.inr (Or.inr ⟨_, missing, later, hsplit, hmissing.symm, hnil, hpart⟩)
  · refine Or.inr (Or.inl ⟨extra.map some ++ rest, ?_, ?_⟩)
    · rw [← List.append_assoc, ← List.map_append, ← hextra]
      exact hsplit
    · unfold Carries
      rw [List.filterMap_append, filterMap_map_some, hmore]

end Arrivals

/-! ## The server of a polled subscription -/

/-- The clock readings that one read of the stream takes before it waits. -/
inductive PollStage
  | idle
  | started (time : ℚ)
  | checked (time : ℚ)

/-- What is on its way on the subscription, how many reads may still find their interval over before
they begin, and where the clock readings stand. -/
structure PollState where
  script : Arrivals
  late : ℕ
  stage : PollStage

/-- A subscription on a socket, read with a poll interval. -/
structure Polling where
  sock : SockId
  interval : ℚ

namespace Polling

variable (x : Polling)

/-- The clock: an interval that is not over when it is checked is not over when it is set either. -/
def ticks (s : PollState) (now : ℚ) (s' : PollState) : Prop :=
  match s.stage with
  | .idle => s' = { s with stage := .started now }
  | .started time =>
    now < time + x.interval ∧ s' = { s with stage := .checked time } ∨
      time + x.interval ≤ now ∧ ∃ late, s.late = late + 1 ∧ s' = { s with late := late, stage := .idle }
  | .checked time => now < time + x.interval ∧ s' = { s with stage := .idle }

/-- A read returns any part of the bytes that are there, and times out where none is. -/
def arrives (s : PollState) (size : ℕ) (answer : Except OSFault {chunk : Bytes // chunk.length ≤ size})
    (s' : PollState) : Prop :=
  match s.script with
  | some _ :: _ => ∃ chunk rest, answer = .ok chunk ∧ chunk.1 ≠ [] ∧
    s.script = chunk.1.map some ++ rest ∧ s' = { s with script := rest }
  | none :: rest => answer = .error .timeout ∧ s' = { s with script := rest }
  | [] => answer = .error .timeout ∧ s' = s

def step (s : PollState) : (op : NetOp) → op.Answer → PollState → Prop
  | .monotonic, now, s' => x.ticks s now s'
  | .settimeout _ _, answer, s' => answer = .ok () ∧ s' = s
  | .sendall _ _, answer, s' => answer = .ok () ∧ s' = s
  | .recv _ size, answer, s' => arrives s size answer s'
  | _, _, _ => False

def world : World Net PollState where
  permits _ _ := True
  step := x.step

theorem arrives_answers (s : PollState) {size : ℕ} (hsize : 0 < size) :
    ∃ answer s', arrives s size answer s' := by
  unfold arrives
  match s.script with
  | some byte :: rest => exact ⟨.ok ⟨[byte], hsize⟩, _, ⟨[byte], hsize⟩, rest, rfl, by simp, rfl, rfl⟩
  | none :: rest => exact ⟨.error .timeout, _, rfl, rfl⟩
  | [] => exact ⟨.error .timeout, s, rfl, rfl⟩

/-- What a read of the script does to it. -/
theorem arrives_cases {s s' : PollState} {size : ℕ}
    {answer : Except OSFault {chunk : Bytes // chunk.length ≤ size}}
    (h : arrives s size answer s') :
    (∃ chunk rest, answer = .ok chunk ∧ chunk.1 ≠ [] ∧ s.script = chunk.1.map some ++ rest ∧
      s' = { s with script := rest }) ∨
    answer = .error .timeout ∧ s.script.available = [] ∧ s' = { s with script := s.script.drop 1 } := by
  unfold arrives at h
  split at h
  · exact Or.inl h
  · rename_i rest hscript
    refine Or.inr ⟨h.1, ?_, ?_⟩
    · rw [hscript]
      rfl
    · rw [h.2, hscript]
      rfl
  · rename_i hscript
    refine Or.inr ⟨h.1, ?_, ?_⟩
    · rw [hscript]
      rfl
    · have hdrop : s.script.drop 1 = s.script := by
        rw [hscript]
        rfl
      rw [h.2, hdrop]

def supply : Sync.Supply x.world.live x.sock where
  unread s := s.script.available
  after s n := { s with script := s.script.drop n }
  within _ _ := True
  after_zero _ := rfl
  after_after s m n := by rw [List.drop_drop]
  unread_after s n h := Arrivals.available_drop s.script h
  within_le _ _ _ _ _ := trivial
  within_after _ _ _ _ := trivial
  permits s size hsize _ := ⟨trivial, arrives_answers s hsize⟩
  step s size answer s' hmore hstep := by
    rcases arrives_cases hstep with ⟨chunk, rest, hanswer, hchunk, hsplit, hs'⟩ | ⟨-, hnone, -⟩
    · refine ⟨chunk, hanswer, hchunk, ?_, ?_⟩
      · rw [hsplit, Arrivals.available_append]
        exact List.prefix_append _ _
      · rw [hs', hsplit]
        congr
        exact (List.drop_left' (List.length_map _)).symm
    · exact absurd hnone hmore

/-! ## One read of the stream -/

section Read
variable {x : Polling} {c : Connection} {s : PollState}

theorem live_op {op : NetOp} {Q : Except Exc op.Answer → Connection → PollState → Prop}
    (hanswer : ∃ answer s', x.step s op answer s')
    (h : ∀ answer s', x.step s op answer s' → Q (.ok answer) c s') :
    wpm x.world.live (perform op) Q c s := ⟨⟨trivial, hanswer⟩, h⟩

/-- What the generator makes of a read. -/
def item : Except Exc Bytes → Except Exc (Option Bytes)
  | .ok frame => .ok (some frame)
  | .error (.timeoutError _) => .ok none
  | .error e => .error e

theorem item_error (e : Exc) : item (.error e) = .ok none ∨ item (.error e) = .error e := by
  cases e with
  | timeoutError site => exact Or.inl rfl
  | _ => exact Or.inr rfl

/-- An item: the interval is over before the read begins, or the read decides. -/
theorem live_nextFrame {Q : Except Exc (Option Bytes) → Connection → PollState → Prop}
    (hinterval : 0 < x.interval) (hsock : c.sock = some x.sock) (hidle : s.stage = .idle)
    (hlate : ∀ late, s.late = late + 1 → Q (.ok none) c { s with late := late })
    (hread : wpm x.world.live (Sync.receiveFrame x.sock) (fun r => Q (item r)) c s) :
    wpm x.world.live (Sync.transport.nextFrame (some x.interval)) Q c s := by
  have hs : s = ⟨s.script, s.late, .idle⟩ := by rw [← hidle]
  unfold Transport.nextFrame
  dsimp only [Deadline.start]
  rw [wpm_bind, wpm_bind]
  refine live_op ⟨0, { s with stage := .started 0 }, ?_⟩ ?_
  · change x.ticks _ _ _
    unfold ticks
    rw [hidle]
  intro time s' hstep
  have hs' : s' = { s with stage := .started time } := by
    change x.ticks _ _ _ at hstep
    unfold ticks at hstep
    rw [hidle] at hstep
    exact hstep
  rw [hs']
  dsimp only
  rw [wpm_pure]
  dsimp only
  rw [wpm_bind, wpm_attempt]
  change wpm _ (Sync.readFrame _) _ _ _
  rw [Sync.readFrame_eq, wpm_bind, wpm_requireSocket, hsock]
  dsimp only
  rw [wpm_bind]
  unfold Sync.applyTimeout Deadline.check Deadline.expired Deadline.remaining
  dsimp only
  rw [wpm_bind, wpm_bind, wpm_bind, wpm_bind]
  refine live_op ⟨time, { s with stage := .checked time }, Or.inl ⟨by linarith, rfl⟩⟩ ?_
  intro now s₁ hstep₁
  dsimp only
  -- the interval may be over when the clock is read again
  rcases hstep₁ with ⟨hnow, hs₁⟩ | ⟨hnow, late, hlate', hs₁⟩
  · have hnot : ¬ time + x.interval - now ≤ 0 := by linarith
    rw [hs₁, wpm_pure]
    simp only [decide_eq_true_eq, wpm_pure]
    rw [if_neg hnot, wpm_pure]
    dsimp only
    rw [wpm_bind, wpm_bind]
    refine live_op ⟨time, _, by linarith, rfl⟩ ?_
    intro now' s₂ hpost
    obtain ⟨hnow', hs₂⟩ := hpost
    have hnot' : ¬ (some (time + x.interval - now')).any (· < 0) = true := by
      simp only [Option.any_some, decide_eq_true_eq]
      linarith
    have hidle' : s₂ = s := by rw [hs₂, hs]
    rw [hidle']
    dsimp only
    rw [wpm_pure]
    dsimp only
    rw [if_neg hnot', wpm_bind]
    refine live_op ⟨.ok (), s, rfl, rfl⟩ ?_
    intro answer s₃ hpost
    obtain ⟨hanswer, hs₃⟩ := hpost
    rw [hanswer, hs₃]
    dsimp only
    rw [wpm_pure]
    dsimp only
    refine wpm_mono hread ?_
    intro r c' s' hr
    cases r with
    | ok frame => exact hr
    | error e => cases e <;> exact hr
  · have hover : time + x.interval - now ≤ 0 := by linarith
    have hs₁' : s₁ = { s with late := late } := by rw [hs₁, hs]
    rw [hs₁', wpm_pure]
    simp only [decide_eq_true_eq, wpm_pure]
    rw [if_pos hover]
    exact hlate late hlate'

theorem live_readExactly_any (size : ℕ) (s : PollState) :
    wpm x.world.live (Sync.readExactly x.sock size) (fun r c' s' => c' = c ∧
      ∃ n, s' = { s with script := s.script.drop n } ∧ (0 < size → 0 < n) ∧
        ∀ data, r = .ok data → data.length = size ∧ size + s'.script.count = s.script.count) c s := by
  refine Sync.wpm_readLoop_of (I := fun buffer t =>
    t = { s with script := s.script.drop buffer.length } ∧
      buffer.length + t.script.count = s.script.count) ?_ ?_ size ⟨rfl, Nat.zero_add _⟩
    (Nat.zero_le _) (by simp)
  · intro buffer t hsize ⟨ht, hcount⟩
    rw [hsize] at ht hcount
    refine ⟨rfl, size, ht, id, ?_⟩
    intro data hdata
    cases hdata
    exact ⟨hsize, hcount⟩
  · intro buffer t hmore ⟨ht, hcount⟩
    refine ⟨⟨trivial, arrives_answers t (by omega)⟩, fun answer s' hstep => ?_⟩
    -- a part of the data, or nothing within the interval
    rcases arrives_cases hstep with ⟨chunk, rest, rfl, hchunk, hsplit, rfl⟩ | ⟨rfl, -, rfl⟩
    · have hrest : rest = t.script.drop chunk.1.length := by
        rw [hsplit]
        exact (List.drop_left' (List.length_map _)).symm
      have hall : t.script.count = chunk.1.length + Arrivals.count rest := by
        rw [hsplit, Arrivals.count_append]
      rw [Sync.failedRead_chunk hchunk]
      refine ⟨?_, ?_⟩
      · rw [hrest, ht, List.drop_drop, List.length_append, Sync.readChunk]
      · rw [List.length_append, Sync.readChunk, Nat.add_assoc]
        rw [hall] at hcount
        exact hcount
    · refine ⟨rfl, buffer.length + 1, ?_, fun _ => Nat.succ_pos _, ?_⟩
      · rw [ht, List.drop_drop]
      · intro data hdata
        cases hdata

/-- Whatever arrives, a frame that is read has its bytes taken from the script, and fits. -/
theorem live_receiveFrame_any (s : PollState) :
    wpm x.world.live (Sync.receiveFrame x.sock) (fun r c' s' => c' = c ∧
      ∃ n, s' = { s with script := s.script.drop n } ∧ 0 < n ∧
        ∀ frame, r = .ok frame → (frameOf frame).length + s'.script.count ≤ s.script.count ∧
          frame.length ≤ c.maxMessageSize) c s := by
  unfold Sync.receiveFrame
  rw [wpm_bind]
  refine wpm_mono (live_readExactly_any frameHeaderSize s) ?_
  intro r c' s' ⟨hc, n, hs', hpos, hdata⟩
  have hn : 0 < n := hpos (by decide)
  cases r with
  | error e =>
    refine ⟨hc, n, hs', hn, ?_⟩
    intro frame hframe
    cases hframe
  | ok header =>
    obtain ⟨-, hcount⟩ := hdata header rfl
    dsimp only
    rw [wpm_bind, wpm_self]
    dsimp only
    rw [wpm_bind, wpm_ofExcept]
    cases hsize : decodeFrameSize header c'.maxMessageSize with
    | error e =>
      refine ⟨hc, n, hs', hn, ?_⟩
      intro frame hframe
      cases hframe
    | ok size =>
      obtain ⟨hfour, hfits⟩ := decodeFrameSize_ok hsize
      rw [hc] at hfits
      dsimp only
      split
      · refine ⟨hc, n, hs', hn, ?_⟩
        intro frame hframe
        cases hframe
        rw [length_frameOf, List.length_nil]
        exact ⟨hcount.le, Nat.zero_le _⟩
      · refine wpm_mono (live_readExactly_any size s') ?_
        intro r c₁ s₁ ⟨hc₁, m, hs₁, _, hbody⟩
        refine ⟨hc₁.trans hc, n + m, ?_, by omega, ?_⟩
        · rw [hs₁, hs', List.drop_drop]
        · intro frame hframe
          obtain ⟨hlen, hcount₁⟩ := hbody frame hframe
          rw [length_frameOf, hlen]
          exact ⟨by omega, hfits⟩

/-! ## The whole stream -/

/-- The items of the generator, one after the other, up to the one that raises. -/
def items (interval : ℚ) : (rounds : ℕ) → ConnM (List (Option Bytes) × Option Exc)
  | 0 => return ([], none)
  | rounds + 1 => do
    match ← Method.attempt (Sync.transport.nextFrame (some interval)) with
    | .error e => return ([], some e)
    | .ok frame => do
      let (frames, failure) ← items interval rounds
      return (frame :: frames, failure)

/-- The first item, and the rest from where it leaves the subscription. -/
theorem live_items_succ {rounds : ℕ}
    {Q : Except Exc (List (Option Bytes) × Option Exc) → Connection → PollState → Prop}
    (hinterval : 0 < x.interval) (hsock : c.sock = some x.sock) (hidle : s.stage = .idle)
    (hlate : ∀ late, s.late = late + 1 → wpm x.world.live (items x.interval rounds)
      (fun r => Q (r.map fun out => (none :: out.1, out.2))) c { s with late := late })
    (hread : wpm x.world.live (Sync.receiveFrame x.sock) (fun r c' s' => match item r with
      | .ok frame => wpm x.world.live (items x.interval rounds)
        (fun r => Q (r.map fun out => (frame :: out.1, out.2))) c' s'
      | .error e => Q (.ok ([], some e)) c' s') c s) :
    wpm x.world.live (items x.interval (rounds + 1)) Q c s := by
  have hmore : ∀ frame c' s', wpm x.world.live (items x.interval rounds)
      (fun r => Q (r.map fun out => (frame :: out.1, out.2))) c' s' →
      wpm x.world.live (do
        let (frames, failure) ← items x.interval rounds
        return (frame :: frames, failure)) Q c' s' := by
    intro frame c' s' h
    rw [wpm_bind]
    refine wpm_mono h ?_
    intro r c₁ s₁ hr
    cases r <;> exact hr
  unfold items
  rw [wpm_bind, wpm_attempt]
  apply live_nextFrame hinterval hsock hidle
  · exact fun late h => hmore none c _ (hlate late h)
  · refine wpm_mono hread ?_
    intro r c' s' hr
    cases hitem : item r with
    | ok frame =>
      rw [hitem] at hr
      exact hmore frame c' s' hr
    | error e =>
      rw [hitem] at hr
      exact hr

/-- The frames among the items have their bytes in the script, and fit. -/
theorem live_items_any (hinterval : 0 < x.interval) (hsock : c.sock = some x.sock) (rounds : ℕ)
    (hidle : s.stage = .idle) :
    wpm x.world.live (items x.interval rounds) (fun r _ _ => ∃ frames failure,
      r = .ok (frames, failure) ∧
        ((frames.filterMap id).map frameOf).flatten.length ≤ s.script.count ∧
        ∀ frame ∈ frames.filterMap id, frame.length ≤ c.maxMessageSize) c s := by
  induction rounds generalizing s with
  | zero => exact ⟨[], none, rfl, Nat.zero_le _, by simp⟩
  | succ rounds ih =>
    apply live_items_succ hinterval hsock hidle
    · intro late hlate
      refine wpm_mono (ih (s := { s with late := late }) hidle) ?_
      intro r c' s' ⟨frames, failure, hr, hle, hfits⟩
      rw [hr]
      exact ⟨none :: frames, failure, rfl, hle, hfits⟩
    · refine wpm_mono (live_receiveFrame_any s) ?_
      intro r c' s' ⟨hc, n, hs', _, hframe⟩
      have hidle' : s'.stage = .idle := by rw [hs', hidle]
      have hle' : s'.script.count ≤ s.script.count := by
        rw [hs']
        exact Arrivals.count_drop_le _ _
      rw [hc]
      cases r with
      | ok frame =>
        obtain ⟨hcount, hfit⟩ := hframe frame rfl
        refine wpm_mono (ih hidle') ?_
        intro r c' s₁ ⟨frames, failure, hr, hle, hfits⟩
        rw [hr]
        refine ⟨some frame :: frames, failure, rfl, ?_, List.forall_mem_cons.mpr ⟨hfit, hfits⟩⟩
        change (frameOf frame ++ ((frames.filterMap id).map frameOf).flatten).length ≤ _
        rw [List.length_append]
        omega
      | error e =>
        rcases item_error e with hitem | hitem
        · rw [hitem]
          refine wpm_mono (ih hidle') ?_
          intro r c' s₁ ⟨frames, failure, hr, hle, hfits⟩
          rw [hr]
          exact ⟨none :: frames, failure, rfl, hle.trans hle', hfits⟩
        · rw [hitem]
          exact ⟨[], some e, rfl, Nat.zero_le _, by simp⟩

/-- A frame that does not arrive whole before the next idle time: what is there of it is lost. -/
theorem live_receiveFrame_idle {Q : Except Exc Bytes → Connection → PollState → Prop}
    {p missing : Bytes} (hsplit : s.script.available ++ missing = frameOf p) (hmissing : missing ≠ [])
    (hframe : p.length < 2 ^ 32) (hfits : p.length ≤ c.maxMessageSize)
    (h : Q (.error (.timeoutError .whileReading)) c
      { s with script := s.script.drop (s.script.available.length + 1) }) :
    wpm x.world.live (Sync.receiveFrame x.sock) Q c s := by
  apply Sync.supply_receiveFrame_drain x.supply hsplit hmissing trivial hframe hfits
  intro size answer s' hstep
  have hnone : Arrivals.available (s.script.drop s.script.available.length) = [] := by
    rw [Arrivals.available_drop _ (le_refl _), List.drop_length]
  rcases arrives_cases hstep with ⟨chunk, rest, -, hchunk, hdrop, -⟩ | ⟨hanswer, -, hs'⟩
  · change s.script.drop s.script.available.length = _ at hdrop
    rw [hdrop, Arrivals.available_append] at hnone
    exact absurd (List.append_eq_nil_iff.mp hnone).1 hchunk
  · rw [hanswer, hs']
    refine ⟨_, rfl, ?_⟩
    change Q _ c { s with script := (s.script.drop s.script.available.length).drop 1 }
    rw [List.drop_drop]
    exact h

/-- From between two frames: the items are the payloads exactly when no idle time cuts a frame. -/
theorem live_items_iff (hinterval : 0 < x.interval) (hsock : c.sock = some x.sock) (rounds : ℕ)
    (hidle : s.stage = .idle) {payloads : List Bytes}
    (hframe : ∀ p ∈ payloads, p.length < 2 ^ 32)
    (hfits : ∀ p ∈ payloads, p.length ≤ c.maxMessageSize) (hcarries : s.script.Carries payloads)
    (hrounds : s.script ≠ [] → s.script.length + s.late ≤ rounds) :
    wpm x.world.live (items x.interval rounds) (fun r _ _ => ∃ frames failure,
      r = .ok (frames, failure) ∧
        (frames.filterMap id = payloads ↔ s.script.BetweenFrames payloads)) c s := by
  induction rounds generalizing s payloads with
  | zero =>
    have hnil : s.script = [] := by
      by_contra hne
      have hpos : 0 < s.script.length := List.length_pos_iff.mpr hne
      have hle := hrounds hne
      omega
    cases payloads with
    | nil => exact ⟨[], none, rfl, fun _ => (Arrivals.carries_nil hcarries).1, fun _ => rfl⟩
    | cons p ps =>
      rw [hnil] at hcarries
      exact absurd (List.append_eq_nil_iff.mp hcarries.symm).1 (frameOf_ne_nil p)
  | succ rounds ih =>
    -- an idle item leaves the payloads as they are
    have hidle_item : ∀ {s' : PollState}, s'.stage = .idle → s'.script.Carries payloads →
        (s'.script ≠ [] → s'.script.length + s'.late ≤ rounds) →
        (s'.script.BetweenFrames payloads ↔ s.script.BetweenFrames payloads) →
        wpm x.world.live (items x.interval rounds) (fun r _ _ => ∃ frames failure,
          r.map (fun out => (none :: out.1, out.2)) = .ok (frames, failure) ∧
            (frames.filterMap id = payloads ↔ s.script.BetweenFrames payloads)) c s' := by
      intro s' hidle' hcarries' hrounds' hbetween
      refine wpm_mono (ih hidle' hframe hfits hcarries' hrounds') ?_
      intro r c' s₁ hpost
      obtain ⟨frames, failure, hr, hiff⟩ := hpost
      rw [hr]
      exact ⟨none :: frames, failure, rfl, hiff.trans hbetween⟩
    apply live_items_succ hinterval hsock hidle
    · intro late hlate
      refine hidle_item hidle hcarries ?_ Iff.rfl
      intro hne
      have hle := hrounds hne
      dsimp only
      omega
    · by_cases hwaiting : s.script.available = []
      · apply live_receiveFrame_idle (p := []) (by rw [hwaiting]; rfl) (frameOf_ne_nil [])
          (by decide) (Nat.zero_le _)
        rw [hwaiting]
        obtain ⟨hcarries', hbetween⟩ := Arrivals.idle_drop payloads hwaiting
        refine hidle_item hidle (hcarries'.mpr hcarries)
          ?_ hbetween
        intro hne
        have hpos : 0 < (s.script.drop 1).length := List.length_pos_iff.mpr hne
        rw [List.length_drop] at hpos
        have hle := hrounds (List.length_pos_iff.mp (by omega))
        change (s.script.drop 1).length + s.late ≤ rounds
        rw [List.length_drop]
        omega
      · cases payloads with
        | nil =>
          rcases (Arrivals.carries_nil hcarries).2 with hnil | ⟨rest, hnone⟩
          · exact absurd (by rw [hnil]; rfl) hwaiting
          · exact absurd (by rw [hnone]; rfl) hwaiting
        | cons p ps =>
          have hp : p.length < 2 ^ 32 := hframe p List.mem_cons_self
          have hpfits : p.length ≤ c.maxMessageSize := hfits p List.mem_cons_self
          rcases Arrivals.carries_cons hcarries with ⟨rest, hrest⟩ | ⟨rest, hrest, hcarries'⟩ |
            ⟨part, missing, rest, hrest, hsplit, hmissing, hpart⟩
          · exact absurd (by rw [hrest]; rfl) hwaiting
          · -- the frame arrives whole
            have hunread : x.supply.unread s = beBytes p.length ++ p ++ rest.available := by
              change s.script.available = _
              rw [hrest, Arrivals.available_append]
              rfl
            have hlen : ((frameOf p).map some).length = frameHeaderSize + p.length := by
              rw [List.length_map, length_frameOf]
            have hdrop : s.script.drop (frameHeaderSize + p.length) = rest := by
              rw [hrest]
              exact List.drop_left' hlen
            apply Sync.supply_receiveFrame x.supply hunread trivial hp hpfits
            change wpm _ _ _ c { s with script := s.script.drop (frameHeaderSize + p.length) }
            rw [hdrop]
            have hle := hrounds (by rw [hrest]; simp [frameOf, beBytes])
            rw [hrest, List.length_append, hlen] at hle
            have hheader : 0 < frameHeaderSize := by decide
            refine wpm_mono (ih (s := { s with script := rest }) hidle
              (fun q hq => hframe q (List.mem_cons_of_mem _ hq))
              (fun q hq => hfits q (List.mem_cons_of_mem _ hq)) hcarries' ?_) ?_
            · intro _
              dsimp only
              omega
            · intro r c' s₁ hpost
              obtain ⟨frames, failure, hr, hiff⟩ := hpost
              rw [hr]
              refine ⟨some p :: frames, failure, rfl, ?_⟩
              rw [hrest, Arrivals.betweenFrames_frame, ← hiff]
              change p :: frames.filterMap id = p :: ps ↔ _
              rw [List.cons_inj_right]
          · -- what is there of the frame is lost, and the bytes that are left do not suffice
            have hpart' : s.script.available = part := by
              rw [hrest, Arrivals.available_append]
              exact List.append_nil part
            have hdrop : s.script.drop (part.length + 1) = rest := by
              rw [hrest, ← List.drop_drop, List.drop_left' (List.length_map _)]
              rfl
            apply live_receiveFrame_idle (by rw [hpart']; exact hsplit) hmissing hp hpfits
            rw [hpart', hdrop]
            refine wpm_mono (live_items_any (s := { s with script := rest }) hinterval hsock rounds
              hidle) ?_
            intro r c' s₁ hpost
            obtain ⟨frames, failure, hr, hle, _⟩ := hpost
            rw [hr]
            refine ⟨none :: frames, failure, rfl, ?_⟩
            have hnot : ¬ s.script.BetweenFrames (p :: ps) := by
              rw [hrest]
              exact Arrivals.not_betweenFrames_of_part hsplit hmissing hpart
            refine ⟨fun heq => ?_, fun hbetween => absurd hbetween hnot⟩
            have htotal : s.script.count = part.length + Arrivals.count rest := by
              rw [hrest, Arrivals.count_append]
              rfl
            have hpos : 0 < part.length := List.length_pos_iff.mpr hpart
            change frames.filterMap id = p :: ps at heq
            rw [heq, ← hcarries] at hle
            change s.script.count ≤ Arrivals.count rest at hle
            omega

end Read

/-- `open_stream`: the command is written, and then the items follow. -/
def openPolled (command : Command) (interval : ℚ) (rounds : ℕ) :
    ConnM (List (Option Bytes) × Option Exc) := do
  Sync.transport.openStream command
  items interval rounds

theorem live_openStream {x : Polling} {c : Connection} {s : PollState} {command : Command}
    {Q : Except Exc Unit → Connection → PollState → Prop} (hsock : c.sock = some x.sock)
    (hfits : command.payload.length ≤ c.maxMessageSize) (hframe : command.payload.length < 2 ^ 32)
    (h : Q (.ok ()) { c with requestInFlight := true } s) :
    wpm x.world.live (Sync.transport.openStream command) Q c s := by
  have hsize : checkRequestSize command.payload c.maxMessageSize = .ok () := if_neg (not_lt.mpr hfits)
  change wpm _ (Sync.writeRequest command Deadline.unlimited) _ _ _
  unfold Sync.writeRequest
  rw [wpm_bind, wpm_self]
  dsimp only
  rw [wpm_bind, hsize, wpm_ofExcept]
  dsimp only
  rw [wpm_bind, wpm_requireSocket, hsock]
  dsimp only
  rw [wpm_bind]
  refine ⟨⟨trivial, .ok (), s, rfl, rfl⟩, ?_⟩
  intro answer s' ⟨hanswer, hs'⟩
  rw [hanswer, hs']
  change wpm x.world.live _ _ _ _
  rw [wpm_bind, encodeFrame_ok hframe, wpm_ofExcept]
  dsimp only
  rw [wpm_bind]
  refine live_op ⟨.ok (), s, rfl, rfl⟩ ?_
  intro answer s' ⟨hanswer, hs'⟩
  rw [hanswer, hs']
  exact h

end Polling

/-- A polled stream, over every way its bytes may arrive: the frames among the items are the sent
payloads exactly when every payload fits the limit and no poll interval ends inside a frame. -/
theorem polled_frames_intact_iff (x : Polling) (c : Connection) (command : Command)
    (payloads : List Bytes) (script : Arrivals) (late rounds : ℕ) (hsock : c.sock = some x.sock)
    (hinterval : 0 < x.interval) (hcommand : command.payload.length ≤ c.maxMessageSize)
    (hcommandFrame : command.payload.length < 2 ^ 32) (hpayloads : ∀ p ∈ payloads, p.length < 2 ^ 32)
    (hscript : script.Carries payloads) (hrounds : script.length + late ≤ rounds) :
    Ends x.world (Polling.openPolled command x.interval rounds c) (fun out _ => ∃ items failure,
      out.1 = .ok (items, failure) ∧ (items.filterMap id = payloads ↔
        (∀ p ∈ payloads, p.length ≤ c.maxMessageSize) ∧ script.BetweenFrames payloads))
      ⟨script, late, .idle⟩ := by
  apply ends_of_live
  change wpm _ (Polling.openPolled command x.interval rounds) (fun r _ _ => ∃ items failure,
    r = .ok (items, failure) ∧ (items.filterMap id = payloads ↔
      (∀ p ∈ payloads, p.length ≤ c.maxMessageSize) ∧ script.BetweenFrames payloads)) c _
  unfold Polling.openPolled
  rw [wpm_bind]
  apply Polling.live_openStream hsock hcommand hcommandFrame
  by_cases hfits : ∀ p ∈ payloads, p.length ≤ c.maxMessageSize
  · refine wpm_mono (Polling.live_items_iff (c := { c with requestInFlight := true }) hinterval hsock
      rounds rfl hpayloads hfits hscript fun _ => hrounds) ?_
    intro r c' s' ⟨items, failure, hr, hiff⟩
    exact ⟨items, failure, hr, hiff.trans (and_iff_right hfits).symm⟩
  · refine wpm_mono (Polling.live_items_any (c := { c with requestInFlight := true }) hinterval hsock
      rounds rfl) ?_
    intro r c' s' ⟨items, failure, hr, _, hall⟩
    refine ⟨items, failure, hr, fun heq => absurd ?_ hfits, fun h => absurd h.1 hfits⟩
    rw [← heq]
    exact hall

/-- A subscription on socket 3, polled as the clients do. -/
def polledSubscription : Polling := ⟨3, streamPollInterval⟩

/-- An event of one byte, all of it in time. -/
def wholeEvent : Arrivals := [none, some 0, some 0, some 0, some 1, some 7]

/-- The same event, with a poll interval that ends between its header and its body. -/
def cutEvent : Arrivals := [some 0, some 0, some 0, some 1, none, some 7]

theorem polledSubscription_interval : 0 < polledSubscription.interval := by
  norm_num [polledSubscription, streamPollInterval]

theorem carries_wholeEvent : wholeEvent.Carries [[7]] := by
  unfold Arrivals.Carries
  decide

theorem carries_cutEvent : cutEvent.Carries [[7]] := by
  unfold Arrivals.Carries
  decide

theorem whole_event_is_yielded :
    Ends polledSubscription.world (Polling.openPolled ⟨encodeUtf8 "STREAM".toList, true⟩
      polledSubscription.interval 6 Connection.pooled) (fun out _ => ∃ items failure,
        out.1 = .ok (items, failure) ∧ items.filterMap id = [[7]]) ⟨wholeEvent, 0, .idle⟩ := by
  have hends := polled_frames_intact_iff polledSubscription Connection.pooled
    ⟨encodeUtf8 "STREAM".toList, true⟩ [[7]] wholeEvent 0 6 rfl polledSubscription_interval
    (by decide) (by decide) (by decide) carries_wholeEvent (by decide)
  refine Ends.mono hends ?_
  intro out s ⟨items, failure, hout, hiff⟩
  refine ⟨items, failure, hout, hiff.mpr ⟨by decide, ?_⟩⟩
  have hnil : Arrivals.Carries [] [] := rfl
  have hbetween := (Arrivals.carries_nil hnil).1
  exact Arrivals.betweenFrames_none.mpr (Arrivals.betweenFrames_frame.mpr hbetween)

/-- The event that was sent never comes. -/
theorem cut_event_is_lost :
    Ends polledSubscription.world (Polling.openPolled ⟨encodeUtf8 "STREAM".toList, true⟩
      polledSubscription.interval 6 Connection.pooled) (fun out _ => ∃ items failure,
        out.1 = .ok (items, failure) ∧ items.filterMap id ≠ [[7]]) ⟨cutEvent, 0, .idle⟩ := by
  apply ends_of_live
  change wpm _ (Polling.openPolled _ _ 6) (fun r _ _ => ∃ items failure,
    r = .ok (items, failure) ∧ items.filterMap id ≠ [[7]]) _ _
  unfold Polling.openPolled
  rw [wpm_bind]
  apply Polling.live_openStream (x := polledSubscription) rfl (by decide) (by decide)
  have hfits : ∀ p ∈ ([[7]] : List Bytes), p.length ≤ 4096 := by decide
  refine wpm_mono (Polling.live_items_iff (x := polledSubscription) polledSubscription_interval rfl 6
    rfl (by decide) hfits carries_cutEvent fun _ => by decide) ?_
  intro r c s ⟨items, failure, hr, hiff⟩
  have hsplit : ([0, 0, 0, 1] : Bytes) ++ [7] = frameOf [7] := by decide
  have hcut : ¬ cutEvent.BetweenFrames [[7]] :=
    Arrivals.not_betweenFrames_of_part hsplit (by decide) (by decide)
  exact ⟨items, failure, hr, fun heq => hcut (hiff.mp heq)⟩

end FqClient
