import FqClient.Effects.Tasks
import FqClient.HeldLines

namespace FqClient.PooledLines

open Effects HeldLines

/-! ## A pool whose connections go from one task to another -/

/-- Where a socket is. Only the proof keeps it. -/
inductive Place (ι : Type)
  | unopened
  | pooled
  | held (i : ι)
  | closed
  deriving DecidableEq

theorem held_ne_pooled {ι : Type} (i : ι) : Place.held i ≠ .pooled := by
  intro h
  cases h

/-- The slots of a pool, the lines of all sockets, and what is noted of each task. -/
structure Shared (ι L N : Type) where
  slots : List (Option Connection)
  line : SockId → L
  place : SockId → Place ι
  note : ι → N

/-- The socket of the connection in a slot. -/
def slotSocket (slot : Option Connection) : Option SockId := slot.bind Connection.sock

def socketsOf (slots : List (Option Connection)) : List SockId := slots.filterMap slotSocket

theorem socketsOf_of_some {slot : Option Connection} {sock : SockId} (h : slotSocket slot = some sock)
    (slots : List (Option Connection)) : socketsOf (slot :: slots) = sock :: socketsOf slots :=
  List.filterMap_cons_some h

theorem socketsOf_of_none {slot : Option Connection} (h : slotSocket slot = none)
    (slots : List (Option Connection)) : socketsOf (slot :: slots) = socketsOf slots :=
  List.filterMap_cons_none h

variable {ι L N : Type} [DecidableEq ι]

namespace Shared

/-- The sockets in the queue. -/
def pooled (s : Shared ι L N) : List SockId := socketsOf s.slots

/-- The state with the socket of a slot elsewhere. -/
def moved (s : Shared ι L N) (slot : Option Connection) (place : Place ι) : SockId → Place ι :=
  match slotSocket slot with
  | some sock => Function.update s.place sock place
  | none => s.place

/-- A transfer by task `i` on a socket. -/
def Transfers (wire : Wire ι L N) (i : ι) (sock : SockId) (op : NetOp) (a : op.Answer)
    (s s' : Shared ι L N) : Prop :=
  ∃ l n, wire.transfer i op a (s.line sock) (s.note i) l n ∧
    s' = { s with line := Function.update s.line sock l, note := Function.update s.note i n }

end Shared

/-- What the operations of task `i` do. A socket is opened once, the pool hands out the slot that was put
back last, and whether the pool is closed may change at any time. -/
def step (wire : Wire ι L N) (i : ι) (s : Shared ι L N) :
    (op : NetOp) → op.Answer → Shared ι L N → Prop
  | .createConnection _ _ _, .ok sock, s' | .openConnection _ _ _, .ok sock, s' =>
    s.place sock = .unopened ∧ s' = { s with
      line := Function.update s.line sock wire.fresh, place := Function.update s.place sock (.held i) }
  | .sendall sock data, a, s' => s.Transfers wire i sock (.sendall sock data) a s'
  | .recv sock size, a, s' => s.Transfers wire i sock (.recv sock size) a s'
  | .writeDrain sock data, a, s' => s.Transfers wire i sock (.writeDrain sock data) a s'
  | .readexactly sock size, a, s' => s.Transfers wire i sock (.readexactly sock size) a s'
  | .closeSocket sock, _, s' => s' = { s with place := Function.update s.place sock .closed }
  | .getSlot _, some slot, s' | .awaitSlot, .ok slot, s' =>
    ∃ slots, s.slots = slot :: slots ∧ s' = { s with slots := slots, place := s.moved slot (.held i) }
  | .putSlot slot, _, s' => s' = { s with slots := slot :: s.slots, place := s.moved slot .pooled }
  | _, _, s' => s' = s

/-- A task uses, closes and puts back only what it holds. -/
def permits (i : ι) (s : Shared ι L N) : NetOp → Prop
  | .sendall sock _ | .recv sock _ | .writeDrain sock _ | .readexactly sock _ | .closeSocket sock =>
    s.place sock = .held i
  | .putSlot slot => ∀ sock, slotSocket slot = some sock → s.place sock = .held i
  | _ => True

def env (wire : Wire ι L N) (i : ι) : World Net (Shared ι L N) where
  permits := permits i
  step := step wire i

/-- What is put back into the pool is a connection on which nothing more arrives. -/
def Settled (wire : Wire ι L N) (s : Shared ι L N) : NetOp → Prop
  | .putSlot slot => ∀ sock, slotSocket slot = some sock → ¬ wire.Owed (s.line sock)
  | _ => True

/-- The environment of a task in the runs in which this is so. -/
def settled (wire : Wire ι L N) (i : ι) : World Net (Shared ι L N) :=
  (env wire i).given (Settled wire)

/-! ## The part of a task -/

def own (i : ι) (s : Shared ι L N) : Own L N where
  lines sock := if s.place sock = .held i then some (s.line sock) else none
  note := s.note i

section Own
variable {wire : Wire ι L N} {i : ι} {s s' : Shared ι L N} {sock : SockId} {op : NetOp} {a : op.Answer}

theorem own_lines_eq_some {l : L} :
    (own i s).lines sock = some l ↔ s.place sock = .held i ∧ s.line sock = l := by
  unfold own
  dsimp only
  split
  next h => exact ⟨fun heq => ⟨h, Option.some.inj heq⟩, fun heq => congrArg some heq.2⟩
  next h => exact ⟨fun heq => (Option.some_ne_none _ heq.symm).elim, fun heq => absurd heq.1 h⟩

theorem own_lines_of_held (h : s.place sock = .held i) : (own i s).lines sock = some (s.line sock) :=
  own_lines_eq_some.mpr ⟨h, rfl⟩

theorem own_lines_of_not_held (h : s.place sock ≠ .held i) : (own i s).lines sock = none := if_neg h

/-- What happens to one socket changes that line only. -/
theorem own_eq {l : Option L} {n : N}
    (h : ∀ sock' ≠ sock, s'.line sock' = s.line sock' ∧ s'.place sock' = s.place sock')
    (hline : (own i s').lines sock = l) (hnote : s'.note i = n) :
    own i s' = ⟨Function.update (own i s).lines sock l, n⟩ := by
  apply Own.ext
  · funext sock'
    dsimp only
    by_cases heq : sock' = sock
    · rw [heq, hline, Function.update_self]
    · rw [Function.update_of_ne heq]
      unfold own
      dsimp only
      rw [(h sock' heq).1, (h sock' heq).2]
  · exact hnote

/-- What happens to a socket in other hands does not concern a task. -/
theorem own_same (h : ∀ sock' ≠ sock, s'.line sock' = s.line sock' ∧ s'.place sock' = s.place sock')
    (hbefore : s.place sock ≠ .held i) (hafter : s'.place sock ≠ .held i)
    (hnote : s'.note i = s.note i) : own i s' = own i s := by
  rw [own_eq h (own_lines_of_not_held hafter) hnote, ← own_lines_of_not_held hbefore,
    Function.update_eq_self]
  rfl

theorem own_opens (l : L) :
    own i { s with line := Function.update s.line sock l, place := Function.update s.place sock (.held i) } =
      ⟨Function.update (own i s).lines sock (some l), s.note i⟩ := by
  apply own_eq
  · intro sock' hne
    exact ⟨Function.update_of_ne hne _ _, Function.update_of_ne hne _ _⟩
  · exact own_lines_eq_some.mpr ⟨Function.update_self _ _ _, Function.update_self _ _ _⟩
  · rfl

theorem own_transfers (hheld : s.place sock = .held i) (l : L) (n : N) :
    own i { s with line := Function.update s.line sock l, note := Function.update s.note i n } =
      ⟨Function.update (own i s).lines sock (some l), n⟩ := by
  apply own_eq
  · intro sock' hne
    exact ⟨Function.update_of_ne hne _ _, rfl⟩
  · exact own_lines_eq_some.mpr ⟨hheld, Function.update_self _ _ _⟩
  · exact Function.update_self _ _ _

/-- A socket that leaves the hands of a task. -/
theorem own_drops (place : Place ι) (hplace : place ≠ .held i) :
    own i { s with place := Function.update s.place sock place } =
      ⟨Function.update (own i s).lines sock none, s.note i⟩ := by
  apply own_eq
  · intro sock' hne
    exact ⟨rfl, Function.update_of_ne hne _ _⟩
  · apply own_lines_of_not_held
    dsimp only
    rw [Function.update_self]
    exact hplace
  · rfl

end Own

/-! ## The invariant -/

/-- Every connection in the queue has a socket of its own, which no task holds and on which nothing more
arrives. -/
structure Inv (wire : Wire ι L N) (s : Shared ι L N) : Prop where
  distinct : s.pooled.Nodup
  idle : ∀ sock ∈ s.pooled, s.place sock = .pooled
  clean : ∀ sock ∈ s.pooled, ¬ wire.Owed (s.line sock)

section Inv
variable {wire : Wire ι L N} {i j : ι} {s s' : Shared ι L N} {sock : SockId}
  {op : NetOp} {a : op.Answer}
  {slot : Option Connection} {slots : List (Option Connection)}

omit [DecidableEq ι] in
/-- What happens elsewhere does not concern the queue. -/
theorem Inv.elsewhere (hs : Inv wire s) (hpooled : s'.pooled = s.pooled)
    (hplace : ∀ sock ∈ s.pooled, s'.place sock = s.place sock)
    (hline : ∀ sock ∈ s.pooled, s'.line sock = s.line sock) : Inv wire s' := by
  constructor
  · rw [hpooled]
    exact hs.distinct
  · intro sock hmem
    rw [hpooled] at hmem
    exact (hplace sock hmem).trans (hs.idle sock hmem)
  · intro sock hmem
    rw [hpooled] at hmem
    rw [hline sock hmem]
    exact hs.clean sock hmem

omit [DecidableEq ι] in
theorem Inv.ne_of_mem (hs : Inv wire s) {sock' : SockId} (hmem : sock' ∈ s.pooled)
    (hplace : s.place sock ≠ .pooled) : sock' ≠ sock := by
  intro heq
  exact hplace (heq ▸ hs.idle sock' hmem)

omit [DecidableEq ι] in
theorem Inv.update (hs : Inv wire s) (hplace : s.place sock ≠ .pooled) (place : Place ι) (l : L) :
    Inv wire { s with
      line := Function.update s.line sock l, place := Function.update s.place sock place } := by
  refine hs.elsewhere rfl ?_ ?_
  · intro sock' hmem
    exact Function.update_of_ne (hs.ne_of_mem hmem hplace) _ _
  · intro sock' hmem
    exact Function.update_of_ne (hs.ne_of_mem hmem hplace) _ _

omit [DecidableEq ι] in
/-- The slot that is handed out. -/
theorem Inv.take (hs : Inv wire s) (hslots : s.slots = slot :: slots) (i : ι) :
    Inv wire { s with slots := slots, place := s.moved slot (.held i) } := by
  have hpooled : s.pooled = socketsOf (slot :: slots) := congrArg socketsOf hslots
  unfold Shared.moved
  cases hsock : slotSocket slot with
  | none =>
    rw [socketsOf_of_none hsock] at hpooled
    exact hs.elsewhere hpooled.symm (fun _ _ => rfl) fun _ _ => rfl
  | some sock =>
    rw [socketsOf_of_some hsock] at hpooled
    have hdistinct := hs.distinct
    rw [hpooled] at hdistinct
    have hmem : ∀ sock' ∈ socketsOf slots, sock' ∈ s.pooled := by
      intro sock' h
      rw [hpooled]
      exact List.mem_cons_of_mem _ h
    constructor
    · exact hdistinct.of_cons
    · intro sock' h
      have hne : sock' ≠ sock := fun heq => (List.nodup_cons.mp hdistinct).1 (heq ▸ h)
      exact (Function.update_of_ne hne _ _).trans (hs.idle sock' (hmem sock' h))
    · exact fun sock' h => hs.clean sock' (hmem sock' h)

omit [DecidableEq ι] in
/-- A slot that is put back. -/
theorem Inv.put (hs : Inv wire s) (hheld : ∀ sock, slotSocket slot = some sock → s.place sock = .held i)
    (hclean : ∀ sock, slotSocket slot = some sock → ¬ wire.Owed (s.line sock)) :
    Inv wire { s with slots := slot :: s.slots, place := s.moved slot .pooled } := by
  unfold Shared.moved
  cases hsock : slotSocket slot with
  | none =>
    exact hs.elsewhere (socketsOf_of_none hsock s.slots) (fun _ _ => rfl) fun _ _ => rfl
  | some sock =>
    have hpooled := socketsOf_of_some hsock s.slots
    have hplace : s.place sock ≠ .pooled := by
      rw [hheld sock hsock]
      exact held_ne_pooled i
    constructor
    · unfold Shared.pooled
      dsimp only
      rw [hpooled]
      exact List.nodup_cons.mpr ⟨fun h => hs.ne_of_mem h hplace rfl, hs.distinct⟩
    · intro sock' hmem
      rw [Shared.pooled, hpooled] at hmem
      rcases List.mem_cons.mp hmem with rfl | hmem
      · exact Function.update_self _ _ _
      · exact (Function.update_of_ne (hs.ne_of_mem hmem hplace) _ _).trans (hs.idle sock' hmem)
    · intro sock' hmem
      rw [Shared.pooled, hpooled] at hmem
      rcases List.mem_cons.mp hmem with rfl | hmem
      · exact hclean sock' hsock
      · exact hs.clean sock' hmem

theorem Inv.transfer (hs : Inv wire s) (hheld : s.place sock = .held i)
    (h : s.Transfers wire j sock op a s') : Inv wire s' := by
  obtain ⟨l, n, _, rfl⟩ := h
  have hplace : s.place sock ≠ .pooled := by
    rw [hheld]
    exact held_ne_pooled i
  refine hs.elsewhere rfl ?_ ?_
  · exact fun _ _ => rfl
  · intro sock' hmem
    exact Function.update_of_ne (hs.ne_of_mem hmem hplace) _ _

omit [DecidableEq ι] in
theorem Inv.opens (hs : Inv wire s) (hplace : s.place sock = .unopened) :
    Inv wire { s with
      line := Function.update s.line sock wire.fresh,
        place := Function.update s.place sock (.held i) } := by
  apply hs.update
  rw [hplace]
  intro h
  cases h

omit [DecidableEq ι] in
theorem Inv.closes (hs : Inv wire s) (hplace : s.place sock = .held i) :
    Inv wire { s with place := Function.update s.place sock .closed } := by
  have hne : s.place sock ≠ .pooled := by
    rw [hplace]
    exact held_ne_pooled i
  refine hs.elsewhere rfl ?_ ?_
  · intro sock' hmem
    exact Function.update_of_ne (hs.ne_of_mem hmem hne) _ _
  · exact fun _ _ => rfl

/-- What a step makes of the invariant, when what it puts back is settled. -/
theorem inv_of_step (hs : Inv wire s) (hpermits : permits i s op) (hsettled : Settled wire s op)
    (h : step wire i s op a s') : Inv wire s' := by
  cases op with
  | createConnection host port timeout =>
    cases a with
    | error fault => exact (show s' = s from h) ▸ hs
    | ok sock => exact h.2 ▸ hs.opens h.1
  | openConnection host port hostname =>
    cases a with
    | error fault => exact (show s' = s from h) ▸ hs
    | ok sock => exact h.2 ▸ hs.opens h.1
  | sendall | recv | writeDrain | readexactly => exact hs.transfer hpermits h
  | closeSocket sock => exact (show s' = _ from h) ▸ hs.closes hpermits
  | getSlot timeout =>
    cases a with
    | none => exact (show s' = s from h) ▸ hs
    | some slot =>
      obtain ⟨slots, hslots, h⟩ := h
      exact h ▸ hs.take hslots i
  | awaitSlot =>
    cases a with
    | error fault => exact (show s' = s from h) ▸ hs
    | ok slot =>
      obtain ⟨slots, hslots, h⟩ := h
      exact h ▸ hs.take hslots i
  | putSlot slot => exact (show s' = _ from h) ▸ hs.put hpermits hsettled
  | _ => exact (show s' = s from h) ▸ hs

theorem permits_of_own (h : (own i s).permits op) : permits i s op := by
  cases op with
  | sendall | recv | writeDrain | readexactly | closeSocket =>
    obtain ⟨l, hl⟩ := h
    exact (own_lines_eq_some.mp hl).1
  | putSlot => exact h.elim
  | _ => trivial

theorem own_transfer (hheld : s.place sock = .held i) (h : s.Transfers wire i sock op a s') :
    (own i s).Transfers wire i sock op a (own i s') := by
  obtain ⟨l, n, hwire, rfl⟩ := h
  exact ⟨s.line sock, l, n, own_lines_of_held hheld, hwire, own_transfers hheld l n⟩

theorem own_unopened (h : s.place sock = .unopened) : (own i s).lines sock = none := by
  apply own_lines_of_not_held
  rw [h]
  intro h
  cases h

/-- A task with a connection goes on as if it were alone. -/
theorem own_step (hs : Inv wire s) (hown : (own i s).permits op) (h : step wire i s op a s') :
    Inv wire s' ∧ Own.step wire i (own i s) op a (own i s') := by
  have hpermits := permits_of_own hown
  have hsettled : Settled wire s op := by
    cases op with
    | putSlot => exact hown.elim
    | _ => trivial
  refine ⟨inv_of_step hs hpermits hsettled h, ?_⟩
  cases op with
  | createConnection host port timeout =>
    cases a with
    | error fault => exact congrArg (own i) h
    | ok sock => exact h.2 ▸ ⟨own_unopened h.1, own_opens wire.fresh⟩
  | openConnection host port hostname =>
    cases a with
    | error fault => exact congrArg (own i) h
    | ok sock => exact h.2 ▸ ⟨own_unopened h.1, own_opens wire.fresh⟩
  | sendall | recv | writeDrain | readexactly => exact own_transfer hpermits h
  | closeSocket sock =>
    rw [show s' = _ from h]
    apply own_drops
    intro heq
    cases heq
  | getSlot | awaitSlot | putSlot => exact hown.elim
  | _ => exact congrArg (own i) h

omit [DecidableEq ι] in
theorem held_ne_held {i j : ι} (hj : j ≠ i) {place : Place ι}
    (h : place = .held i) : place ≠ .held j := by
  intro heq
  cases heq.symm.trans h
  exact hj rfl

/-- A slot that changes hands among others. -/
theorem own_of_moved {place : Place ι}
    (hbefore : ∀ sock, slotSocket slot = some sock → s.place sock ≠ .held j) (hafter : place ≠ .held j)
    (slots : List (Option Connection)) :
    own j { s with slots := slots, place := s.moved slot place } = own j s := by
  unfold Shared.moved
  cases hsock : slotSocket slot with
  | none => rfl
  | some sock =>
    apply own_same
    · intro sock' hne
      exact ⟨rfl, Function.update_of_ne hne _ _⟩
    · exact hbefore sock hsock
    · dsimp only
      rw [Function.update_self]
      exact hafter
    · rfl

omit [DecidableEq ι] in
theorem place_of_slot (hs : Inv wire s) (hslots : s.slots = slot :: slots)
    (hsock : slotSocket slot = some sock) : s.place sock = .pooled := by
  apply hs.idle
  rw [Shared.pooled, hslots, socketsOf_of_some hsock]
  exact List.mem_cons_self

theorem own_of_taken (hj : j ≠ i) (hs : Inv wire s) (hslots : s.slots = slot :: slots) :
    own j { s with slots := slots, place := s.moved slot (.held i) } = own j s := by
  apply own_of_moved
  · intro sock hsock
    rw [place_of_slot hs hslots hsock]
    exact (held_ne_pooled j).symm
  · exact held_ne_held hj rfl

theorem own_of_opened (hj : j ≠ i) (hplace : s.place sock = .unopened) :
    own j { s with
      line := Function.update s.line sock wire.fresh,
      place := Function.update s.place sock (.held i) } = own j s := by
  apply own_same
  · intro sock' hne
    exact ⟨Function.update_of_ne hne _ _, Function.update_of_ne hne _ _⟩
  · rw [hplace]
    intro heq
    cases heq
  · exact held_ne_held hj (Function.update_self _ _ _)
  · rfl

theorem own_of_transfer (hj : j ≠ i) (hheld : s.place sock = .held i)
    (h : s.Transfers wire i sock op a s') : own j s' = own j s := by
  obtain ⟨l, n, _, rfl⟩ := h
  apply own_same
  · intro sock' hne
    exact ⟨Function.update_of_ne hne _ _, rfl⟩
  · exact held_ne_held hj hheld
  · exact held_ne_held hj hheld
  · exact Function.update_of_ne hj _ _

/-- What a task does is nothing to the others. -/
theorem own_of_step (hj : j ≠ i) (hs : Inv wire s) (hpermits : permits i s op)
    (h : step wire i s op a s') : own j s' = own j s := by
  cases op with
  | createConnection host port timeout =>
    cases a with
    | error fault => exact congrArg (own j) h
    | ok sock => exact h.2 ▸ own_of_opened hj h.1
  | openConnection host port hostname =>
    cases a with
    | error fault => exact congrArg (own j) h
    | ok sock => exact h.2 ▸ own_of_opened hj h.1
  | sendall | recv | writeDrain | readexactly => exact own_of_transfer hj hpermits h
  | closeSocket sock =>
    rw [show s' = _ from h]
    apply own_same
    -- the other sockets are where they were, and this one was not held by task `j`
    · intro sock' hne
      exact ⟨rfl, Function.update_of_ne hne _ _⟩
    · exact held_ne_held hj hpermits
    · dsimp only
      rw [Function.update_self]
      intro heq
      cases heq
    · rfl
  | getSlot timeout =>
    cases a with
    | none => exact congrArg (own j) h
    | some slot =>
      obtain ⟨slots, hslots, h⟩ := h
      exact h ▸ own_of_taken hj hs hslots
  | awaitSlot =>
    cases a with
    | error fault => exact congrArg (own j) h
    | ok slot =>
      obtain ⟨slots, hslots, h⟩ := h
      exact h ▸ own_of_taken hj hs hslots
  | putSlot slot =>
    rw [show s' = _ from h]
    apply own_of_moved
    · exact fun sock hsock => held_ne_held hj (hpermits sock hsock)
    · exact (held_ne_pooled j).symm
  | _ => exact congrArg (own j) h

end Inv

/-! ## The pool -/

/-- The environment of a task with the other tasks in it. -/
abbrev among (wire : Wire ι L N) (i : ι) : World Net (Shared ι L N) :=
  (settled wire i).cooperative (fun _ => True) (Inv wire) (own i)

section Task
variable {wire : Wire ι L N} {i : ι} {s : Shared ι L N} {c : Connection}

/-- The connection that the pool hands out. -/
theorem has_taken (hs : Inv wire s) {slots : List (Option Connection)}
    (hslots : s.slots = some c :: slots) : Has (fun l => ¬ wire.Owed l) c
      (own i { s with slots := slots, place := s.moved (some c) (.held i) }) := by
  intro sock hsock
  have hsocket : slotSocket (some c) = some sock := hsock
  have hmem : sock ∈ s.pooled := by
    rw [Shared.pooled, hslots, socketsOf_of_some hsocket]
    exact List.mem_cons_self
  refine ⟨s.line sock, own_lines_eq_some.mpr ⟨?_, rfl⟩, hs.clean sock hmem⟩
  unfold Shared.moved
  rw [hsocket]
  exact Function.update_self _ _ _

/-- A task that meets its contract with what it holds alone meets it among the others. -/
theorem wpm_own {κ α : Type} {m : Method Net κ Exc α} {Q : Except Exc α → κ → Own L N → Prop} {k : κ}
    (hs : Inv wire s) (h : wpm (Own.world wire i) m Q k (own i s)) :
    wpm (among wire i) m (fun r k' s' => Inv wire s' ∧ Q r k' (own i s')) k s := by
  have hlocal : ∀ s op, Inv wire s → (Own.world wire i).permits (own i s) op →
      (settled wire i).permits s op ∧ ∀ a s', (settled wire i).step s op a s' →
        Inv wire s' ∧ (Own.world wire i).step (own i s) op a (own i s') := by
    intro s op hs hown
    exact ⟨permits_of_own hown, fun a s' hstep => own_step hs hown hstep.2⟩
  exact @wp_cooperative_of_own Net _ _ _ (fun _ => True) (Inv wire) (own i) (settled wire i)
    (Own.world wire i) id hlocal (fun rc : Except Exc α × κ => Q rc.1 rc.2) (m k) s hs h

/-- An operation of the pool, with what the others did before it. -/
theorem wpm_among {κ : Type} {op : NetOp} {Q : Except Exc op.Answer → κ → Shared ι L N → Prop} {k : κ}
    (hs : Inv wire s) (h : ∀ s₁, Inv wire s₁ → own i s₁ = own i s → permits i s₁ op ∧
      ∀ a s', Settled wire s₁ op → step wire i s₁ op a s' → Q (.ok a) k s') :
    wpm (among wire i) (perform op) Q k s := by
  rw [wpm_perform_op]
  refine (cooperative_await trivial).mpr ⟨hs, fun s₁ hs₁ hown => ?_⟩
  obtain ⟨hpermits, hstep⟩ := h s₁ hs₁ hown
  exact ⟨hpermits, fun a s' ha => hstep a s' ha.1 ha.2⟩

/-- What the pool hands out. -/
def Handed (wire : Wire ι L N) (i : ι) (r : Except Exc (Option Connection)) (s : Shared ι L N) : Prop :=
  ∀ c, r = .ok (some c) → Has (fun l => ¬ wire.Owed l) c (own i s)

theorem handed_error {e : Exc} : Handed wire i (.error e) s := by
  intro c h
  cases h

theorem handed_slot (hs : Inv wire s) {slot : Option Connection} {slots : List (Option Connection)}
    (hslots : s.slots = slot :: slots) :
    Handed wire i (.ok slot) { s with slots := slots, place := s.moved slot (.held i) } := by
  intro c h
  rw [Except.ok.inj h] at hslots ⊢
  exact has_taken hs hslots

theorem wpm_take (p : Package) (d : Deadline) (hs : Inv wire s) :
    wpm (among wire i) (p.transport.take d) (fun r _ s' => Inv wire s' ∧ Handed wire i r s') () s := by
  apply wpm_take_of (J := Inv wire) p
  · refine wpm_mono (wpm_own hs (wpm_of_leaves
      (keeps_aside (fun _ => NetOp.Setting.aside) fun _ => True)
      (clocks_remaining d).sets trivial)) ?_
    intro r _ s₁ hpost
    cases r with
    | error e => exact ⟨hpost.1, handed_error⟩
    | ok _ => exact hpost.1
  · intro timeout s₁ hs₁
    apply wpm_among hs₁
    intro s₂ hs₂ _
    refine ⟨trivial, fun slot s₃ _ h => ?_⟩
    cases slot with
    | none => exact ⟨(show s₃ = s₂ from h) ▸ hs₂, handed_error⟩
    | some slot =>
      obtain ⟨slots, hslots, h⟩ := h
      rw [h]
      exact ⟨hs₂.take hslots i, handed_slot hs₂ hslots⟩
  · intro delay s₁ hs₁
    apply wpm_among hs₁
    intro s₂ hs₂ _
    refine ⟨trivial, fun _ s₃ _ h => ?_⟩
    have hs₃ : Inv wire s₃ := (show s₃ = s₂ from h) ▸ hs₂
    apply wpm_among hs₃
    intro s₄ hs₄ _
    refine ⟨trivial, fun slot s₅ _ h => ?_⟩
    cases slot with
    | error fault =>
      have hs₅ : Inv wire s₅ := (show s₅ = s₄ from h) ▸ hs₄
      cases fault <;> exact ⟨hs₅, handed_error⟩
    | ok slot =>
      obtain ⟨slots, hslots, h⟩ := h
      rw [h]
      exact ⟨hs₄.take hslots i, handed_slot hs₄ hslots⟩

theorem wpm_release {c : Connection} (hs : Inv wire s) (hc : Holds c (own i s)) :
    wpm (among wire i) (Transport.release c)
      (fun _ _ s' => Inv wire s' ∧ s'.note i = s.note i) () s := by
  apply wpm_release_of (J := fun s' => Inv wire s' ∧ own i s' = own i s)
  · apply wpm_among hs
    intro s₁ hs₁ hown
    refine ⟨trivial, fun flag s₂ _ h => ?_⟩
    rw [show s₂ = s₁ from h]
    exact ⟨hs₁, hown⟩
  · intro s₁ ⟨hs₁, hown⟩
    rw [← hown] at hc
    refine wpm_mono (wpm_own hs₁ (wpm_close (Q := fun _ _ o' => o'.note = (own i s₁).note) hc
      fun _ => id)) ?_
    intro _ _ s₂ hpost
    exact ⟨hpost.1, Eq.trans hpost.2 (congrArg Own.note hown)⟩
  · intro s₁ ⟨hs₁, hown₁⟩
    apply wpm_among hs₁
    intro s₂ hs₂ hown₂
    have hown : own i s₂ = own i s := hown₂.trans hown₁
    have hheld : permits i s₂ (.putSlot (if c.closed = true then none else some c)) := by
      intro sock hsock
      rw [← hown] at hc
      have hsome : c.sock = some sock := by
        split at hsock
        · cases hsock
        · exact hsock
      obtain ⟨l, hl, _⟩ := hc sock hsome
      exact (own_lines_eq_some.mp hl).1
    refine ⟨hheld, fun _ s₃ hsettled h => ⟨inv_of_step hs₂ hheld hsettled h, ?_⟩⟩
    rw [show s₃ = _ from h]
    exact congrArg Own.note hown

section Connected
variable {p : Package} {good : L → Prop} {settings : Settings}
  (hclean : ∀ l, ¬ wire.Owed l → good l)
  (hconnect : ∀ o, wpm (Own.world wire i) p.transport.connect (fun _ c' o' => Has good c' o')
    (Connection.new settings) o)
include hclean hconnect

theorem wpm_acquire (d : Deadline) (hs : Inv wire s) :
    wpm (among wire i) (p.transport.acquire settings d) (fun r _ s' => Inv wire s' ∧
      ∀ c, r = .ok c → Has good c (own i s')) () s := by
  have hfailed : ∀ {e : Exc} {s' : Shared ι L N}, Inv wire s' → Inv wire s' ∧
      ∀ c, (Except.error e : Except Exc Connection) = .ok c → Has good c (own i s') := by
    intro e s' hs'
    exact ⟨hs', fun c h => by cases h⟩
  apply wpm_acquire_of (J := Inv wire)
  · apply wpm_among hs
    intro s₁ hs₁ _
    refine ⟨trivial, fun flag s₂ _ h => ?_⟩
    have hs₂ : Inv wire s₂ := (show s₂ = s₁ from h) ▸ hs₁
    dsimp only
    split
    · exact hfailed hs₂
    · exact hs₂
  · intro s₁ hs₁
    refine wpm_mono (wpm_take p d hs₁) ?_
    intro r _ s₂ hpost
    obtain ⟨hs₂, hr⟩ := hpost
    cases r with
    | error e => exact hfailed hs₂
    | ok slot =>
      cases slot with
      | some connection =>
        refine ⟨hs₂, fun c heq => ?_⟩
        rw [← Except.ok.inj heq]
        exact (hr connection rfl).mono hclean
      | none =>
        refine wpm_mono (wpm_own hs₂ (hconnect (own i s₂))) ?_
        intro outcome connection s₃ hpost
        obtain ⟨hs₃, hgood⟩ := hpost
        cases outcome with
        | ok _ =>
          refine ⟨hs₃, fun c heq => ?_⟩
          rw [← Except.ok.inj heq]
          exact hgood
        | error e =>
          apply wpm_among hs₃
          intro s₄ hs₄ _
          -- an empty slot has no socket to put back
          have hnone : permits i s₄ (.putSlot none) := by
            intro sock h
            cases h
          refine ⟨hnone, fun _ s₅ hsettled h => hfailed ?_⟩
          exact inv_of_step hs₄ hnone hsettled h

/-- A connection is taken, used and put back. -/
theorem wpm_withConnection {α : Type} {body : ConnM α} {P : α → N → Prop} (d : Deadline)
    (hbody : ∀ c o, Has good c o → wpm (Own.world wire i) body (fun r c' o' =>
      Holds c' o' ∧ ∀ a, r = .ok a → P a o'.note) c o) (hs : Inv wire s) :
    wpm (among wire i) (p.transport.withConnection settings d body) (fun r _ s' => Inv wire s' ∧
      ∀ a, r = .ok a → P a (s'.note i)) () s := by
  apply wpm_withConnection_of
  refine wpm_mono (wpm_acquire hclean hconnect d hs) ?_
  intro r _ s₁ hpost
  obtain ⟨hs₁, hr⟩ := hpost
  cases r with
  | error e => exact ⟨hs₁, fun a h => by cases h⟩
  | ok c =>
    refine wpm_mono (wpm_own hs₁ (hbody c (own i s₁) (hr c rfl))) ?_
    intro outcome c₂ s₂ hpost
    obtain ⟨hs₂, hheld, hanswered⟩ := hpost
    refine wpm_mono (wpm_release hs₂ hheld) ?_
    intro r _ s₃ hpost
    obtain ⟨hs₃, hnote⟩ := hpost
    cases r with
    | error e => exact ⟨hs₃, fun a h => by cases h⟩
    | ok _ =>
      refine ⟨hs₃, fun a h => ?_⟩
      rw [hnote]
      exact hanswered a h

end Connected

/-- A unary call over the pool. -/
theorem wpm_request {p : Package} {good : L → Prop} {Answered : Command → Bytes → N → Prop}
    (h : Answers wire i p.transport good Answered) (config : ClientConfig) (rounds : ℕ)
    (command : Command) (timeout : Timeout) (hs : Inv wire s) :
    wpm (among wire i) (p.transport.request config rounds command timeout) (fun r _ s' => Inv wire s' ∧
      ∀ payload, r = .ok payload → Answered command payload (s'.note i)) () s := by
  unfold Transport.request
  rw [wpm_bind]
  refine wpm_mono (wpm_own hs (wpm_of_leaves (keeps_aside (fun _ => NetOp.Setting.aside) fun _ => True)
    (clocks_start _).sets trivial)) ?_
  intro r _ s₁ hpost
  obtain ⟨hs₁, _⟩ := hpost
  cases r with
  | error e => exact ⟨hs₁, fun payload heq => by cases heq⟩
  | ok d =>
    exact wpm_withConnection h.clean (fun o => h.connect rfl) d
      (fun c o hc => h.withRetry config.reconnect command d rounds hc) hs₁

end Task

/-! ## Every interleaving -/

/-- A pool of connections that are open and of slots for others; nothing has been noted. -/
def Shared.start (wire : Wire ι L N) (n : N) (opened : List Connection) (empty : ℕ) : Shared ι L N where
  slots := opened.zipIdx.map (fun entry => some { entry.1 with sock := some entry.2 }) ++
    List.replicate empty none
  line _ := wire.fresh
  place sock := if sock < opened.length then .pooled else .unopened
  note _ := n

/-- An environment in which no socket is opened: transfers end as `answer` says, and what does not concern
sockets or slots as `aside` says. -/
def serve (aside : (op : NetOp) → op.Answer) (answer : (op : NetOp) → L → N → op.Answer × L × N) (i : ι)
    (s : Shared ι L N) : (op : NetOp) → op.Answer × Shared ι L N
  | .createConnection _ _ _ => (.error .other, s)
  | .openConnection _ _ _ => (.error .other, s)
  | .sendall sock data => transfer sock (answer (.sendall sock data) (s.line sock) (s.note i))
  | .recv sock size => transfer sock (answer (.recv sock size) (s.line sock) (s.note i))
  | .writeDrain sock data => transfer sock (answer (.writeDrain sock data) (s.line sock) (s.note i))
  | .readexactly sock size => transfer sock (answer (.readexactly sock size) (s.line sock) (s.note i))
  | .closeSocket sock => ((), { s with place := Function.update s.place sock .closed })
  | .getSlot _ => match s.slots with
    | [] => (none, s)
    | slot :: slots => (some slot, { s with slots := slots, place := s.moved slot (.held i) })
  | .awaitSlot => match s.slots with
    | [] => (.error .timeout, s)
    | slot :: slots => (.ok slot, { s with slots := slots, place := s.moved slot (.held i) })
  | .putSlot slot => ((), { s with slots := slot :: s.slots, place := s.moved slot .pooled })
  | op => (aside op, s)
where
  transfer {A : Type} (sock : SockId) (done : A × L × N) : A × Shared ι L N :=
    (done.1, { s with
      line := Function.update s.line sock done.2.1, note := Function.update s.note i done.2.2 })

theorem step_serve {wire : Wire ι L N} {aside : (op : NetOp) → op.Answer}
    {answer : (op : NetOp) → L → N → op.Answer × L × N} {i : ι}
    (h : ∀ op l n, wire.transfer i op (answer op l n).1 l n (answer op l n).2.1 (answer op l n).2.2)
    (s : Shared ι L N) (op : NetOp) :
    (env wire i).step s op (serve aside answer i s op).1 (serve aside answer i s op).2 := by
  cases op with
  | sendall | recv | writeDrain | readexactly => exact ⟨_, _, h _ _ _, rfl⟩
  | getSlot timeout =>
    obtain ⟨slots, line, place, note⟩ := s
    cases slots with
    | nil => exact rfl
    | cons slot slots => exact ⟨slots, rfl, rfl⟩
  | awaitSlot =>
    obtain ⟨slots, line, place, note⟩ := s
    cases slots with
    | nil => exact rfl
    | cons slot slots => exact ⟨slots, rfl, rfl⟩
  | _ => exact rfl

/-- The condition on what is put back, where it can be computed. -/
def settledNow (clean : L → Bool) (s : Shared ι L N) : NetOp → Bool
  | .putSlot slot => (slotSocket slot).all fun sock => clean (s.line sock)
  | _ => true

omit [DecidableEq ι] in
theorem settled_of_now {wire : Wire ι L N} {clean : L → Bool}
    (hclean : ∀ l, clean l = true → ¬ wire.Owed l) (s : Shared ι L N) (op : NetOp)
    (h : settledNow clean s op = true) : Settled wire s op := by
  cases op with
  | putSlot slot =>
    intro sock hsock
    unfold settledNow at h
    dsimp only at h
    rw [hsock] at h
    exact hclean _ h
  | _ => trivial

/-- The environment, as long as nothing is put back but what is settled. -/
def serveSettled (clean : L → Bool) (aside : (op : NetOp) → op.Answer)
    (answer : ι → (op : NetOp) → L → N → op.Answer × L × N) (i : ι) (s : Shared ι L N) (op : NetOp) :
    Option (op.Answer × Shared ι L N) :=
  if settledNow clean s op = true then some (serve aside (answer i) i s op) else none

theorem step_serveSettled {wire : Wire ι L N} {clean : L → Bool} {aside : (op : NetOp) → op.Answer}
    {answer : ι → (op : NetOp) → L → N → op.Answer × L × N}
    (hanswer : ∀ i op l n,
      wire.transfer i op (answer i op l n).1 l n (answer i op l n).2.1 (answer i op l n).2.2)
    (hclean : ∀ l, clean l = true → ¬ wire.Owed l) (i : ι) (s : Shared ι L N)
    (op : NetOp) (a : op.Answer)
    (s' : Shared ι L N) (h : serveSettled clean aside answer i s op = some (a, s')) :
    (settled wire i).step s op a s' := by
  obtain ⟨hnow, h⟩ := Option.ite_none_right_eq_some.mp h
  have hstep : (env wire i).step s op (serve aside (answer i) i s op).1
      (serve aside (answer i) i s op).2 :=
    step_serve (hanswer i) s op
  rw [Option.some.inj h] at hstep
  exact ⟨settled_of_now hclean s op hnow, hstep⟩

section Runs
variable {wire : Wire ι L N}

omit [DecidableEq ι] in
theorem pooled_start (n : N) (opened : List Connection) (empty : ℕ) :
    (Shared.start wire n opened empty).pooled = List.range opened.length := by
  have hempty : socketsOf (List.replicate empty none) = [] := by
    induction empty with
    | zero => rfl
    | succ empty ih => exact ih
  have hopened : socketsOf (opened.zipIdx.map
      (fun entry => some { entry.1 with sock := some entry.2 })) =
      opened.zipIdx.map Prod.snd := by
    unfold socketsOf
    rw [List.filterMap_map]
    exact congrFun List.filterMap_eq_map _
  calc (Shared.start wire n opened empty).pooled
      = socketsOf (opened.zipIdx.map (fun entry => some { entry.1 with sock := some entry.2 })) ++
          socketsOf (List.replicate empty none) := List.filterMap_append
    _ = List.range opened.length := by
        rw [hempty, hopened, List.append_nil, List.zipIdx_map_snd, List.range_eq_range']

omit [DecidableEq ι] in
theorem inv_start (hfresh : ¬ wire.Owed wire.fresh) (n : N) (opened : List Connection) (empty : ℕ) :
    Inv wire (Shared.start wire n opened empty) := by
  constructor
  · rw [pooled_start]
    exact List.nodup_range
  · intro sock hmem
    rw [pooled_start] at hmem
    exact if_pos (List.mem_range.mp hmem)
  · exact fun _ _ => hfresh

/-- Where all tasks keep their contracts among the others, they keep them in every interleaving in which
what is put back is settled. -/
theorem sound_of_reaches {α : Type} {Q : ι → α → Own L N → Prop} {t t' : Tasks Net ι α (Shared ι L N)}
    (hinv : Inv wire t.state) (hstart : ∀ i s, Inv wire s →
      wp (among wire i) (t.prog i) (fun a s' => Inv wire s' ∧ Q i a (own i s')) s)
    (h : Tasks.Reaches (settled wire) (fun _ => True) t t') :
    Inv wire t'.state ∧ t'.Sound (settled wire) (fun _ => True) (Inv wire) own Q := by
  have hframe : ∀ i j s (op : NetOp) (a : op.Answer) s', j ≠ i → (True → Inv wire s) →
      (settled wire i).permits s op → (settled wire i).step s op a s' → own j s' = own j s := by
    intro i j s op a s' hj hs hpermits hstep
    exact own_of_step hj (hs trivial) hpermits hstep.2
  have hbegin : ∀ i s, Inv wire s → own i s = own i t.state →
      Keeping (settled wire) (fun _ => True) (Inv wire) own Q i (t.prog i) s :=
    fun i s hs _ => hstart i s hs
  have hkeeps : ∀ i s (op : NetOp) (a : op.Answer) s', Inv wire s → (settled wire i).permits s op →
      (settled wire i).step s op a s' → Inv wire s' := by
    intro i s op a s' hs hpermits hstep
    exact inv_of_step hs hpermits hstep.1 hstep.2
  exact ⟨Tasks.inv_of_reaches hframe hkeeps hinv hbegin h, Tasks.sound_of_reaches hframe hinv hbegin h⟩

end Runs

end FqClient.PooledLines
