import FqClient.ClientMethods
import FqClient.PooledLines
import FqClient.SocketCustody
import Mathlib.Data.List.Perm.Subperm

namespace FqClient.SocketLedger

open Effects PooledLines SocketCustody

/-! ## A pool with the sockets of its tasks -/

/-- The slots of a pool, the tasks that have taken one, where every socket is, and which tasks have found
the pool closed. -/
structure Ledger (ι : Type) where
  slots : List (Option Connection)
  takers : List ι
  place : SockId → Place ι
  saw : ι → Bool

variable {ι : Type} [DecidableEq ι]

namespace Ledger

/-- The state with the socket of a slot elsewhere. -/
def moved (s : Ledger ι) (slot : Option Connection) (place : Place ι) : SockId → Place ι :=
  match slotSocket slot with
  | some sock => Function.update s.place sock place
  | none => s.place

def Open (s : Ledger ι) (sock : SockId) : Prop := s.place sock ≠ .unopened ∧ s.place sock ≠ .closed

end Ledger

/-- What the operations of task `i` do. A socket is opened once, and the pool may be closed at any time. -/
def step (i : ι) (s : Ledger ι) : (op : NetOp) → op.Answer → Ledger ι → Prop
  | .createConnection _ _ _, .ok sock, s' | .openConnection _ _ _, .ok sock, s' =>
    s.place sock = .unopened ∧ s' = { s with place := Function.update s.place sock (.held i) }
  | .closeSocket sock, _, s' => s' = { s with place := Function.update s.place sock .closed }
  | .getSlot _, some slot, s' | .awaitSlot, .ok slot, s' => ∃ slots, s.slots = slot :: slots ∧
    s' = { s with slots := slots, takers := i :: s.takers, place := s.moved slot (.held i) }
  | .putSlot slot, _, s' => s' = { s with
      slots := slot :: s.slots, takers := s.takers.erase i, place := s.moved slot .pooled }
  | .poolClosed, flag, s' => s' = { s with saw := Function.update s.saw i (s.saw i || flag) }
  | _, _, s' => s' = s

/-- A task opens a socket for a slot and while it holds no other, uses and closes the one it holds, and
puts it back. -/
def permits (i : ι) (s : Ledger ι) : NetOp → Prop
  | .createConnection _ _ _ | .openConnection _ _ _ => i ∈ s.takers ∧ ∀ sock, s.place sock ≠ .held i
  | .sendall sock _ | .recv sock _ | .writeDrain sock _ | .readexactly sock _ | .closeSocket sock =>
    s.place sock = .held i
  | .getSlot _ | .awaitSlot => i ∉ s.takers
  | .putSlot slot => i ∈ s.takers ∧ ∀ sock, s.place sock = .held i ↔ slotSocket slot = some sock
  | _ => True

def env (i : ι) : World Net (Ledger ι) where
  permits := permits i
  step := step i

/-! ## The invariant -/

/-- Every slot is in the queue or taken, an open socket is in a slot of the queue or held by a task that
has taken one, and such a task holds no other. -/
structure Inv (size : ℕ) (s : Ledger ι) : Prop where
  size : s.slots.length + s.takers.length = size
  takers : s.takers.Nodup
  distinct : (socketsOf s.slots).Nodup
  pooled : ∀ sock, s.place sock = .pooled ↔ sock ∈ socketsOf s.slots
  taken : ∀ sock i, s.place sock = .held i → i ∈ s.takers
  single : ∀ sock sock' i, s.place sock = .held i → s.place sock' = .held i → sock' = sock

section Inv
variable {size : ℕ} {s s' : Ledger ι} {i : ι} {sock : SockId} {slot : Option Connection}
  {slots : List (Option Connection)}

omit [DecidableEq ι] in
/-- No more sockets are open than there are slots. -/
theorem Inv.length_le (hs : Inv size s) {socks : List SockId} (hnodup : socks.Nodup)
    (hopen : ∀ sock ∈ socks, s.Open sock) : socks.length ≤ size := by
  -- an open socket counts for the slot it is in, or for the slot of the task that holds it
  let part : SockId → SockId ⊕ ι := fun sock => match s.place sock with
    | .held i => .inr i
    | _ => .inl sock
  have hcases : ∀ sock ∈ socks, (s.place sock = .pooled ∧ part sock = .inl sock) ∨
      ∃ i, s.place sock = .held i ∧ part sock = .inr i := by
    intro sock hmem
    obtain ⟨hunopened, hclosed⟩ := hopen sock hmem
    simp only [part]
    cases hplace : s.place sock with
    | unopened => exact (hunopened hplace).elim
    | closed => exact (hclosed hplace).elim
    | pooled => exact Or.inl ⟨rfl, rfl⟩
    | held i => exact Or.inr ⟨i, rfl, rfl⟩
  have hinj : ∀ sock ∈ socks, ∀ sock' ∈ socks, part sock = part sock' → sock = sock' := by
    intro sock hmem sock' hmem' heq
    rcases hcases sock hmem with ⟨_, hsock⟩ | ⟨i, hheld, hsock⟩ <;>
      rcases hcases sock' hmem' with ⟨_, hsock'⟩ | ⟨j, hheld', hsock'⟩
    · exact Sum.inl.inj (hsock.symm.trans (heq.trans hsock'))
    · cases hsock.symm.trans (heq.trans hsock')
    · cases hsock.symm.trans (heq.trans hsock')
    · obtain rfl : i = j := Sum.inr.inj (hsock.symm.trans (heq.trans hsock'))
      exact hs.single _ _ _ hheld' hheld
  have hsubset : socks.map part ⊆ (socketsOf s.slots).map Sum.inl ++ s.takers.map Sum.inr := by
    intro x hx
    obtain ⟨sock, hmem, rfl⟩ := List.mem_map.mp hx
    rcases hcases sock hmem with ⟨hpooled, hpart⟩ | ⟨i, hheld, hpart⟩
    · rw [hpart]
      exact List.mem_append_left _ (List.mem_map_of_mem ((hs.pooled sock).mp hpooled))
    · rw [hpart]
      exact List.mem_append_right _ (List.mem_map_of_mem (hs.taken sock i hheld))
  calc socks.length
      = (socks.map part).length := (List.length_map _).symm
    _ ≤ ((socketsOf s.slots).map Sum.inl ++ s.takers.map Sum.inr).length :=
        (List.Nodup.subperm (List.Nodup.map_on hinj hnodup) hsubset).length_le
    _ = (socketsOf s.slots).length + s.takers.length := by simp
    _ ≤ s.slots.length + s.takers.length := Nat.add_le_add_right (List.length_filterMap_le _ _) _
    _ = size := hs.size

omit [DecidableEq ι] in
theorem moved_apply (s : Ledger ι) (slot : Option Connection) (place : Place ι) (sock : SockId) :
    s.moved slot place sock = if slotSocket slot = some sock then place else s.place sock := by
  unfold Ledger.moved
  cases slotSocket slot with
  | none => simp
  | some sock' => simp [Function.update_apply, eq_comm]

omit [DecidableEq ι] in
theorem mem_socketsOf_cons : sock ∈ socketsOf (slot :: slots) ↔
    slotSocket slot = some sock ∨ sock ∈ socketsOf slots := by
  simp [socketsOf, List.mem_filterMap]

omit [DecidableEq ι] in
theorem Inv.not_held (hs : Inv size s) (hi : i ∉ s.takers) (sock : SockId) : s.place sock ≠ .held i :=
  fun hheld => hi (hs.taken sock i hheld)

omit [DecidableEq ι] in
theorem Inv.opens (hs : Inv size s) (hplace : s.place sock = .unopened) (hi : i ∈ s.takers)
    (hnone : ∀ sock, s.place sock ≠ .held i) :
    Inv size { s with place := Function.update s.place sock (.held i) } where
  size := hs.size
  takers := hs.takers
  distinct := hs.distinct
  pooled x := by
    dsimp only
    rw [Function.update_apply, ← hs.pooled]
    split
    next heq => simp [heq, hplace]
    next => rfl
  taken x j hheld := by
    dsimp only at hheld ⊢
    rw [Function.update_apply] at hheld
    split at hheld
    · cases hheld
      exact hi
    · exact hs.taken x j hheld
  single x y j hx hy := by
    dsimp only at hx hy
    rw [Function.update_apply] at hx hy
    split at hx <;> split at hy
    next hx' hy' => exact hy'.trans hx'.symm
    next =>
      cases hx
      exact (hnone y hy).elim
    next =>
      cases hy
      exact (hnone x hx).elim
    next => exact hs.single x y j hx hy

omit [DecidableEq ι] in
theorem Inv.closes (hs : Inv size s) (hplace : s.place sock = .held i) :
    Inv size { s with place := Function.update s.place sock .closed } where
  size := hs.size
  takers := hs.takers
  distinct := hs.distinct
  pooled x := by
    dsimp only
    rw [Function.update_apply, ← hs.pooled]
    split
    next heq => simp [heq, hplace]
    next => rfl
  taken x j hheld := by
    dsimp only at hheld ⊢
    rw [Function.update_apply] at hheld
    split at hheld
    · cases hheld
    · exact hs.taken x j hheld
  single x y j hx hy := by
    dsimp only at hx hy
    rw [Function.update_apply] at hx hy
    split at hx <;> split at hy
    next => cases hx
    next => cases hx
    next => cases hy
    next => exact hs.single x y j hx hy

omit [DecidableEq ι] in
theorem Inv.takes (hs : Inv size s) (hslots : s.slots = slot :: slots) (hi : i ∉ s.takers) :
    Inv size { s with slots := slots, takers := i :: s.takers, place := s.moved slot (.held i) } := by
  have hsize := hs.size
  have hdistinct := hs.distinct
  have hpooled : ∀ x, s.place x = .pooled ↔ slotSocket slot = some x ∨ x ∈ socketsOf slots := by
    intro x
    rw [hs.pooled, hslots, mem_socketsOf_cons]
  have hapart : ∀ x, slotSocket slot = some x → x ∉ socketsOf slots := by
    intro x hx
    rw [hslots, socketsOf_of_some hx] at hdistinct
    exact (List.nodup_cons.mp hdistinct).1
  constructor
  · rw [hslots] at hsize
    simp only [List.length_cons] at hsize ⊢
    omega
  · exact List.nodup_cons.mpr ⟨hi, hs.takers⟩
  · dsimp only
    rw [hslots] at hdistinct
    cases hsocket : slotSocket slot with
    | none => rwa [socketsOf_of_none hsocket] at hdistinct
    | some x =>
      rw [socketsOf_of_some hsocket] at hdistinct
      exact (List.nodup_cons.mp hdistinct).2
  · intro x
    dsimp only
    rw [moved_apply]
    split
    next hx => simp [hapart x hx]
    next hx =>
      rw [hpooled]
      simp [hx]
  · intro x j hheld
    dsimp only at hheld ⊢
    rw [moved_apply] at hheld
    split at hheld
    · cases hheld
      exact List.mem_cons_self
    · exact List.mem_cons_of_mem _ (hs.taken x j hheld)
  · intro x y j hx hy
    dsimp only at hx hy
    rw [moved_apply] at hx hy
    split at hx <;> split at hy
    next hx' hy' => exact Option.some.inj (hy'.symm.trans hx')
    next =>
      cases hx
      exact (hs.not_held hi y hy).elim
    next =>
      cases hy
      exact (hs.not_held hi x hx).elim
    next => exact hs.single x y j hx hy

theorem Inv.puts (hs : Inv size s) (hi : i ∈ s.takers)
    (hslot : ∀ sock, s.place sock = .held i ↔ slotSocket slot = some sock) :
    Inv size { s with
      slots := slot :: s.slots, takers := s.takers.erase i, place := s.moved slot .pooled } := by
  have hsize := hs.size
  have hpos : 0 < s.takers.length := List.length_pos_of_mem hi
  -- what the task holds goes into the slot, so every socket left over is another task's
  have hkeeps : ∀ {x j}, slotSocket slot ≠ some x → s.place x = .held j → j ≠ i := by
    intro x j hx hheld heq
    rw [heq] at hheld
    exact hx ((hslot x).mp hheld)
  constructor
  · simp only [List.length_cons, List.length_erase_of_mem hi]
    omega
  · exact hs.takers.erase i
  · dsimp only
    cases hsocket : slotSocket slot with
    | none =>
      rw [socketsOf_of_none hsocket]
      exact hs.distinct
    | some x =>
      rw [socketsOf_of_some hsocket]
      refine List.nodup_cons.mpr ⟨fun hmem => ?_, hs.distinct⟩
      have hheld := (hslot x).mpr hsocket
      rw [(hs.pooled x).mpr hmem] at hheld
      cases hheld
  · intro x
    dsimp only
    rw [moved_apply, mem_socketsOf_cons]
    split
    next hx => simp [hx]
    next hx => simp [hx, hs.pooled]
  · intro x j hheld
    dsimp only at hheld ⊢
    rw [moved_apply] at hheld
    split at hheld
    · cases hheld
    next hx => exact (List.mem_erase_of_ne (hkeeps hx hheld)).mpr (hs.taken x j hheld)
  · intro x y j hx hy
    dsimp only at hx hy
    rw [moved_apply] at hx hy
    split at hx <;> split at hy
    next => cases hx
    next => cases hx
    next => cases hy
    next => exact hs.single x y j hx hy

/-- What an operation can do to the pool. -/
theorem step_cases {op : NetOp} {a : op.Answer} (hpermits : permits i s op) (h : step i s op a s') :
    s' = s ∨
    (∃ sock, s.place sock = .unopened ∧ (i ∈ s.takers ∧ ∀ sock, s.place sock ≠ .held i) ∧
      s' = { s with place := Function.update s.place sock (.held i) }) ∨
    (∃ sock, s.place sock = .held i ∧ s' = { s with place := Function.update s.place sock .closed }) ∨
    (∃ slot slots, i ∉ s.takers ∧ s.slots = slot :: slots ∧
      s' = { s with slots := slots, takers := i :: s.takers, place := s.moved slot (.held i) }) ∨
    (∃ slot, i ∈ s.takers ∧ (∀ sock, s.place sock = .held i ↔ slotSocket slot = some sock) ∧
      s' = { s with
        slots := slot :: s.slots, takers := s.takers.erase i, place := s.moved slot .pooled }) ∨
    ∃ flag, s' = { s with saw := Function.update s.saw i flag } := by
  cases op with
  | createConnection host port timeout =>
    cases a with
    | error fault => exact .inl h
    | ok sock => exact .inr (.inl ⟨sock, h.1, hpermits, h.2⟩)
  | openConnection host port hostname =>
    cases a with
    | error fault => exact .inl h
    | ok sock => exact .inr (.inl ⟨sock, h.1, hpermits, h.2⟩)
  | closeSocket sock => exact .inr (.inr (.inl ⟨sock, hpermits, h⟩))
  | getSlot timeout =>
    cases a with
    | none => exact .inl h
    | some slot =>
      obtain ⟨slots, htaken⟩ := h
      exact .inr (.inr (.inr (.inl ⟨slot, slots, hpermits, htaken⟩)))
  | awaitSlot =>
    cases a with
    | error fault => exact .inl h
    | ok slot =>
      obtain ⟨slots, htaken⟩ := h
      exact .inr (.inr (.inr (.inl ⟨slot, slots, hpermits, htaken⟩)))
  | putSlot slot => exact .inr (.inr (.inr (.inr (.inl ⟨slot, hpermits.1, hpermits.2, h⟩))))
  | poolClosed => exact .inr (.inr (.inr (.inr (.inr ⟨_, h⟩))))
  | _ => exact .inl h

theorem inv_of_step (i : ι) (s : Ledger ι) (op : NetOp) (a : op.Answer) (s' : Ledger ι)
    (hs : Inv size s)
    (hpermits : permits i s op) (h : step i s op a s') : Inv size s' := by
  rcases step_cases hpermits h with rfl | ⟨sock, hplace, ⟨hi, hnone⟩, rfl⟩ | ⟨sock, hplace, rfl⟩ |
    ⟨slot, slots, hi, hslots, rfl⟩ | ⟨slot, hi, hslot, rfl⟩ | ⟨flag, rfl⟩
  · exact hs
  · exact hs.opens hplace hi hnone
  · exact hs.closes hplace
  · exact hs.takes hslots hi
  · exact hs.puts hi hslot
  · exact ⟨hs.size, hs.takers, hs.distinct, hs.pooled, hs.taken, hs.single⟩

end Inv

/-! ## The part of a task -/

/-- The sockets that a task holds, whether it has taken a slot, and whether it has found the pool closed. -/
@[ext] structure Part where
  held : Set SockId
  taken : Prop
  saw : Bool

/-- The socket of a slot. -/
def ofSlot (slot : Option Connection) : Set SockId := {sock | slotSocket slot = some sock}

def own (i : ι) (s : Ledger ι) : Part := ⟨{sock | s.place sock = .held i}, i ∈ s.takers, s.saw i⟩

namespace Part

/-- What the operations of a task make of its own part. -/
def step (o : Part) : (op : NetOp) → op.Answer → Part → Prop
  | .createConnection _ _ _, .ok sock, o' | .openConnection _ _ _, .ok sock, o' =>
      o' = { o with held := {sock} }
  | .closeSocket sock, _, o' => o' = { o with held := o.held \ {sock} }
  | .getSlot _, some slot, o' | .awaitSlot, .ok slot, o' =>
      o' = { o with held := ofSlot slot, taken := True }
  | .putSlot _, _, o' => o' = { o with held := ∅, taken := False }
  | .poolClosed, flag, o' => o' = { o with saw := o.saw || flag }
  | _, _, o' => o' = o

def permits (o : Part) : NetOp → Prop
  | .createConnection _ _ _ | .openConnection _ _ _ => o.taken ∧ o.held = ∅
  | .sendall sock _ | .recv sock _ | .writeDrain sock _ | .readexactly sock _ | .closeSocket sock =>
    sock ∈ o.held
  | .getSlot _ | .awaitSlot => ¬ o.taken
  | .putSlot slot => o.taken ∧ o.held = ofSlot slot
  | _ => True

/-- The environment of a task alone. -/
def world : World Net Part where
  permits := permits
  step := step

end Part

section Own
variable {size : ℕ} {s s' : Ledger ι} {i : ι} {op : NetOp} {a : op.Answer}

omit [DecidableEq ι] in
theorem permits_of_own (h : (own i s).permits op) : permits i s op := by
  cases op with
  | createConnection | openConnection =>
    obtain ⟨htaken, hheld⟩ := h
    exact ⟨htaken, fun sock hsock => Set.eq_empty_iff_forall_notMem.mp hheld sock hsock⟩
  | putSlot slot =>
    obtain ⟨htaken, hheld⟩ := h
    exact ⟨htaken, fun sock => Set.ext_iff.mp hheld sock⟩
  | _ => exact h

theorem own_step (hs : Inv size s) (hpermits : permits i s op) (h : step i s op a s') :
    (own i s).step op a (own i s') := by
  have hsame : s' = s → own i s' = own i s := fun heq => congrArg (own i) heq
  have hopens : ∀ {sock}, (i ∈ s.takers ∧ ∀ sock, s.place sock ≠ .held i) → (s.place sock = .unopened ∧
      s' = { s with place := Function.update s.place sock (.held i) }) →
      own i s' = { own i s with held := {sock} } := by
    intro sock hallowed hopened
    obtain ⟨_, hnone⟩ := hallowed
    obtain ⟨_, rfl⟩ := hopened
    refine Part.ext (Set.ext fun x => ?_) rfl rfl
    simp [own, Function.update_apply, hnone]
  have htakes : ∀ {slot : Option Connection}, i ∉ s.takers → (∃ slots, s.slots = slot :: slots ∧
      s' = { s with slots := slots, takers := i :: s.takers, place := s.moved slot (.held i) }) →
      own i s' = { own i s with held := ofSlot slot, taken := True } := by
    intro slot hi htaken
    obtain ⟨slots, _, rfl⟩ := htaken
    refine Part.ext (Set.ext fun x => ?_) (propext (by simp [own])) rfl
    simp [own, ofSlot, moved_apply, hs.not_held hi]
  cases op with
  | createConnection host port timeout =>
    cases a with
    | error fault => exact hsame h
    | ok sock => exact hopens hpermits h
  | openConnection host port hostname =>
    cases a with
    | error fault => exact hsame h
    | ok sock => exact hopens hpermits h
  | closeSocket sock =>
    rw [show s' = _ from h]
    refine Part.ext (Set.ext fun x => ?_) rfl rfl
    by_cases hx : x = sock <;> simp [own, Function.update_apply, hx]
  | getSlot timeout =>
    cases a with
    | none => exact hsame h
    | some slot => exact htakes hpermits h
  | awaitSlot =>
    cases a with
    | error fault => exact hsame h
    | ok slot => exact htakes hpermits h
  | putSlot slot =>
    rw [show s' = _ from h]
    refine Part.ext (Set.ext fun x => ?_) (propext ?_) rfl
    · by_cases hx : slotSocket slot = some x <;> simp [own, moved_apply, hpermits.2 x, hx]
    · simp [own, hs.takers.mem_erase_iff]
  | poolClosed =>
    rw [show s' = _ from h]
    refine Part.ext rfl rfl ?_
    exact Function.update_self _ _ _
  | _ => exact hsame h

omit [DecidableEq ι] in
theorem held_of_update {sock : SockId} {place : Place ι} (hbefore : s.place sock ≠ .held i)
    (hafter : place ≠ .held i) :
    {x | Function.update s.place sock place x = .held i} = {x | s.place x = .held i} := by
  ext x
  by_cases hx : x = sock <;> simp [Function.update_apply, hx, hbefore, hafter]

omit [DecidableEq ι] in
theorem held_of_moved {slot : Option Connection} {place : Place ι}
    (hbefore : ∀ sock, slotSocket slot = some sock → s.place sock ≠ .held i)
    (hafter : place ≠ .held i) :
    {x | s.moved slot place x = .held i} = {x | s.place x = .held i} := by
  ext x
  by_cases hx : slotSocket slot = some x
  · simp [moved_apply, hx, hbefore x hx, hafter]
  · simp [moved_apply, hx]

/-- The operations of another task leave the part of a task alone. -/
theorem own_of_step {j : ι} (hj : j ≠ i) (hs : Inv size s) (hpermits : permits i s op)
    (h : step i s op a s') : own j s' = own j s := by
  have hheld : Place.held i ≠ .held j := held_ne_held hj rfl
  rcases step_cases hpermits h with rfl | ⟨sock, hplace, _, rfl⟩ | ⟨sock, hplace, rfl⟩ |
    ⟨slot, slots, _, hslots, rfl⟩ | ⟨slot, _, hslot, rfl⟩ | ⟨flag, rfl⟩
  · rfl
  · refine Part.ext (held_of_update ?_ hheld) rfl rfl
    simp [hplace]
  · refine Part.ext (held_of_update ?_ ?_) rfl rfl
    · rw [hplace]
      exact hheld
    · simp
  · refine Part.ext (held_of_moved (fun sock hsock => ?_) hheld) (propext (by simp [hj, own])) rfl
    have hmem : sock ∈ socketsOf s.slots := by
      rw [hslots, mem_socketsOf_cons]
      exact Or.inl hsock
    simp [(hs.pooled sock).mpr hmem]
  · refine Part.ext (held_of_moved (fun sock hsock => ?_) ?_) (propext ?_) rfl
    · rw [(hslot sock).mpr hsock]
      exact hheld
    · simp
    · exact List.mem_erase_of_ne hj
  · refine Part.ext rfl rfl ?_
    exact Function.update_of_ne hj _ _

end Own

/-! ## Contracts -/

section Contracts
variable {o : Part} {c : Connection} {slot : Option Connection}

/-- A task has taken a slot, and holds the socket of its connection and no other. -/
def Holds (sock : Option SockId) (o : Part) : Prop := o.held = {x | sock = some x} ∧ o.taken

theorem keeps_aside (J : Part → Prop) : Keeps Part.world NetOp.Aside J := by
  intro o op hop ho
  cases op <;> first
    | exact hop.elim
    | exact ⟨trivial, fun a o' hstep => (show o' = o from hstep) ▸ ho⟩

theorem custody : Custody Part.world Holds where
  halts := trivial
  aside sock := keeps_aside (Holds sock)
  transfer sock := by
    intro o op hop ho
    have hmem : sock ∈ o.held := by
      rw [ho.1]
      rfl
    cases op with
    | sendall | recv | writeDrain | readexactly =>
      rw [show _ = sock from hop]
      exact ⟨hmem, fun a o' hstep => (show o' = o from hstep) ▸ ho⟩
    | _ => exact hop.elim
  dialer := by
    have hnone : ∀ {o : Part}, Holds none o → o.taken ∧ o.held = ∅ := by
      intro o ho
      refine ⟨ho.2, ho.1.trans ?_⟩
      simp
    have hopened : ∀ {o o' : Part} {sock}, Holds none o → o' = { o with held := {sock} } →
        Holds (some sock) o' := by
      intro o o' sock ho heq
      rw [heq]
      refine ⟨Set.ext fun x => ?_, ho.2⟩
      simp [eq_comm]
    constructor
    · intro o delay ho
      exact ⟨trivial, fun _ o' hstep => (show o' = o from hstep) ▸ ho⟩
    · intro o host port timeout ho
      refine ⟨hnone ho, fun a o' hstep => ?_⟩
      cases a with
      | error fault => exact (show o' = o from hstep) ▸ ho
      | ok sock => exact hopened ho hstep
    · intro o host port hostname ho
      refine ⟨hnone ho, fun a o' hstep => ?_⟩
      cases a with
      | error fault => exact (show o' = o from hstep) ▸ ho
      | ok sock => exact hopened ho hstep
    · intro o sock hostname ho
      exact ⟨trivial, fun _ o' hstep => (show o' = o from hstep) ▸ ho⟩
    · intro o sock ho
      obtain ⟨hheld, htaken⟩ := ho
      refine ⟨?_, fun _ o' hstep => ?_⟩
      · change sock ∈ o.held
        rw [hheld]
        rfl
      · rw [show o' = _ from hstep]
        refine ⟨Set.ext fun x => ?_, htaken⟩
        simp [hheld]

/-- A task that holds nothing. -/
def Idle (o : Part) : Prop := o.held = ∅ ∧ ¬ o.taken

/-- A task that has ended. The slot that it has not put back is one of a pool that it has found closed. -/
def Rests (o : Part) : Prop := o.held = ∅ ∧ (o.taken → o.saw = true)

theorem Idle.rests (h : Idle o) : Rests o := ⟨h.1, fun htaken => absurd htaken h.2⟩

/-- A slot is put back with the socket that is held. -/
theorem wpm_put {κ : Type} {Q : Except Exc Unit → κ → Part → Prop} {k : κ} (slot : Option Connection)
    (ho : Holds (slotSocket slot) o) (h : ∀ o', Idle o' → Q (.ok ()) k o') :
    wpm Part.world (perform (.putSlot slot)) Q k o := by
  rw [wpm_perform_op]
  refine ⟨⟨ho.2, ho.1⟩, fun _ o' hstep => h o' ?_⟩
  rw [show o' = _ from hstep]
  exact ⟨rfl, id⟩

theorem wpm_clocks {κ α : Type} {J : Part → Prop} {m : Method Net κ Exc α} (hm : Clocks m) {k : κ}
    (ho : J o) : wpm Part.world m (fun _ k' o' => k' = k ∧ J o') k o := by
  refine wpm_mono (wpm_of_leaves ((keeps_aside J).mono fun op hop => ?_) hm ho) ?_
  · rw [show op = .monotonic from hop]
    trivial
  · exact fun _ _ _ hpost => ⟨hpost.1.1, hpost.2⟩

theorem wpm_take (p : Package) (d : Deadline) (ho : Idle o) :
    wpm Part.world (p.transport.take d) (fun r _ o' => match r with
      | .ok slot => Holds (slotSocket slot) o'
      | .error _ => Rests o') () o := by
  apply wpm_take_of (J := Idle) p
  · refine wpm_mono (wpm_clocks (clocks_remaining d) ho) ?_
    intro r _ o₁ hpost
    cases r with
    | ok _ => exact hpost.2
    | error e => exact hpost.2.rests
  · intro timeout o₁ ho₁
    rw [wpm_perform_op]
    refine ⟨ho₁.2, fun slot o₂ hstep => ?_⟩
    cases slot with
    | none => exact (show o₂ = o₁ from hstep) ▸ ho₁.rests
    | some slot =>
      rw [show o₂ = _ from hstep]
      exact ⟨rfl, trivial⟩
  · intro delay o₁ ho₁
    rw [wpm_perform_op]
    refine ⟨trivial, fun _ o₂ hstep => ?_⟩
    rw [wpm_perform_op, show o₂ = o₁ from hstep]
    refine ⟨ho₁.2, fun slot o₃ hstep => ?_⟩
    cases slot with
    | error fault =>
      have hrests : Rests o₃ := (show o₃ = o₁ from hstep) ▸ ho₁.rests
      cases fault <;> exact hrests
    | ok slot =>
      rw [show o₃ = _ from hstep]
      exact ⟨rfl, trivial⟩

theorem wpm_acquire (p : Package) (settings : Settings) (d : Deadline) (ho : Idle o) :
    wpm Part.world (p.transport.acquire settings d) (fun r _ o' => match r with
      | .ok connection => Holds connection.sock o'
      | .error _ => Rests o') () o := by
  apply wpm_acquire_of (J := Idle)
  · rw [wpm_perform_op]
    refine ⟨trivial, fun flag o₁ hstep => ?_⟩
    have ho₁ : Idle o₁ := by
      rw [show o₁ = _ from hstep]
      exact ho
    dsimp only
    split
    · exact ho₁.rests
    · exact ho₁
  · intro o₁ ho₁
    refine wpm_mono (wpm_take p d ho₁) ?_
    intro r _ o₂ hr
    cases r with
    | error e => exact hr
    | ok slot =>
      cases slot with
      | some connection => exact hr
      | none =>
        refine wpm_mono (custody.connect p (c := Connection.new settings) rfl hr) ?_
        intro outcome connection o₃ hpost
        obtain ⟨ho₃, hclosed⟩ := hpost
        cases outcome with
        | ok _ => exact ho₃
        | error e =>
          -- the factory has failed: the slot goes back empty
          rw [hclosed e rfl] at ho₃
          exact wpm_put none ho₃ fun o₄ ho₄ => ho₄.rests

theorem wpm_release (ho : Holds c.sock o) :
    wpm Part.world (Transport.release c) (fun r _ o' => r = .ok () ∧ Rests o') () o := by
  unfold Transport.release
  rw [wpm_bind, wpm_perform_op]
  refine ⟨trivial, fun flag o₁ hstep => ?_⟩
  have ho₁ : Holds c.sock o₁ ∧ (flag = true → o₁.saw = true) := by
    rw [show o₁ = _ from hstep]
    exact ⟨ho, fun hflag => by simp [hflag]⟩
  dsimp only
  rw [wpm_ite]
  split
  next hflag =>
    obtain ⟨⟨hheld, _⟩, hsaw⟩ := ho₁
    rw [wpm_bind, wpm_on]
    apply wpm_close_of
    · intro sock hsock
      rw [hsock] at hheld
      refine ⟨?_, fun o₂ hstep => ⟨rfl, ?_⟩⟩
      · change sock ∈ o₁.held
        rw [hheld]
        rfl
      · rw [show o₂ = _ from hstep]
        refine ⟨?_, fun _ => hsaw hflag⟩
        rw [hheld]
        ext x
        simp
    · intro hsock
      rw [hsock] at hheld
      refine ⟨rfl, ?_, fun _ => hsaw hflag⟩
      rw [hheld]
      simp
  next hflag =>
    -- a closed connection goes back as `None`, which has no socket either
    have hslot : slotSocket (if c.closed = true then none else some c) = c.sock := by
      unfold Connection.closed
      cases hsock : c.sock <;> simp [slotSocket, hsock]
    exact wpm_put _ (hslot ▸ ho₁.1) fun o₂ ho₂ => ⟨rfl, ho₂.rests⟩

/-- A connection is taken, used and put back. -/
theorem wpm_withConnection {α : Type} (p : Package) (settings : Settings)
    (d : Deadline) {body : ConnM α}
    (hbody : Safe Part.world Holds body) (ho : Idle o) :
    wpm Part.world (p.transport.withConnection settings d body) (fun _ _ o' => Rests o') () o := by
  apply wpm_withConnection_of
  refine wpm_mono (wpm_acquire p settings d ho) ?_
  intro r _ o₁ hr
  cases r with
  | error e => exact hr
  | ok connection =>
    refine wpm_mono (hbody connection o₁ hr) ?_
    intro outcome connection' o₂ ho₂
    refine wpm_mono (wpm_release ho₂) ?_
    intro r _ o₃ hpost
    obtain ⟨rfl, ho₃⟩ := hpost
    exact ho₃

/-- A deadline of its own comes first. -/
theorem wpm_timed {α β : Type} {m : ClientM β} (hm : Clocks m) {f : β → ClientM α}
    (hf : ∀ b o, Idle o → wpm Part.world (f b) (fun _ _ o' => Rests o') () o) (ho : Idle o) :
    wpm Part.world (m >>= f) (fun _ _ o' => Rests o') () o := by
  rw [wpm_bind]
  refine wpm_mono (wpm_clocks hm ho) ?_
  intro r _ o₁ hpost
  obtain ⟨_, ho₁⟩ := hpost
  cases r with
  | error e => exact ho₁.rests
  | ok b => exact hf b o₁ ho₁

end Contracts

/-! ## Every interleaving -/

/-- What a task does with the pool. -/
inductive Work
  | execute (command : Command) (timeout : Timeout)
  | inspect (section' : InspectSection) (timeout : Timeout)
  | subscribe (subscription : Subscription) (polled : Bool)

def Work.method (p : Package) (config : ClientConfig) (loads : Bytes → Except LoadFault Json)
    (rounds : ℕ) :
    Work → ClientM Unit
  | .execute command timeout => (fun _ => ()) <$> p.transport.request config rounds command timeout
  | .inspect section' timeout => (fun _ => ()) <$> p.transport.inspect config rounds
      loads section' timeout
  | .subscribe subscription polled => p.transport.subscribe config rounds subscription polled

theorem wpm_work (p : Package) (config : ClientConfig) (loads : Bytes → Except LoadFault Json)
    (rounds : ℕ)
    (work : Work) {o : Part} (ho : Idle o) :
    wpm Part.world (work.method p config loads rounds) (fun _ _ o' => Rests o') () o := by
  have hdeadline : ∀ timeout, Clocks (config.deadline timeout) := fun _ => clocks_start _
  cases work with
  | execute command timeout =>
    change wpm Part.world ((fun _ => ()) <$> p.transport.request config rounds command timeout) _ () o
    rw [wpm_map]
    have hrequest := wpm_timed (hdeadline timeout)
      (fun d o₁ ho₁ => wpm_withConnection p config.settings d
        (custody.withRetry p config.reconnect command d (custody.send p command d) rounds 0) ho₁) ho
    refine wpm_mono hrequest ?_
    intro r _ o' ho'
    cases r <;> exact ho'
  | inspect section' timeout =>
    change wpm Part.world
      ((fun _ => ()) <$> p.transport.inspect config rounds loads section' timeout) _ () o
    rw [wpm_map]
    have hinspect : wpm Part.world (p.transport.inspect config rounds loads section' timeout)
        (fun _ _ o' => Rests o') () o := by
      unfold Transport.inspect
      refine wpm_timed (hdeadline timeout) (fun d o₁ ho₁ => ?_) ho
      rw [wpm_bind]
      have hbody : ∀ command, Safe Part.world Holds (p.transport.withRetry config.reconnect command d
          (p.transport.sendChunked rounds) rounds 0) :=
        fun command => custody.withRetry p _ command d (custody.sendChunked p rounds command d) rounds 0
      refine wpm_mono (wpm_withConnection p config.settings d
        ((Method.Preserves.ofExcept _).bind fun command => hbody command) ho₁) ?_
      intro r _ o' ho'
      cases r <;> exact ho'
    refine wpm_mono hinspect ?_
    intro r _ o' ho'
    cases r <;> exact ho'
  | subscribe subscription polled =>
    change wpm Part.world (p.transport.subscribe config rounds subscription polled) _ () o
    unfold Transport.subscribe
    rw [wpm_bind, wpm_ofExcept]
    cases subscription.command with
    | error e => exact ho.rests
    | ok command =>
      exact wpm_timed (clocks_start _) (fun d o₁ ho₁ => wpm_withConnection p config.settings d
        (custody.streamLoop p config.reconnect command subscription.parse polled rounds .opening 0)
          ho₁) ho

/-- A pool with these slots, before anything was done. -/
def Ledger.start (slots : List (Option Connection)) : Ledger ι where
  slots := slots
  takers := []
  place sock := if sock ∈ socketsOf slots then .pooled else .unopened
  saw _ := false

def tasks (p : Package) (config : ClientConfig) (loads : Bytes → Except LoadFault Json)
    (works : ι → Work)
    (rounds : ι → ℕ) (slots : List (Option Connection)) (first : ι) :
    Tasks Net ι (Except Exc Unit × Unit) (Ledger ι) where
  running := first
  prog i := (works i).method p config loads (rounds i) ()
  state := .start slots

omit [DecidableEq ι] in
theorem inv_start {slots : List (Option Connection)} (hslots : (socketsOf slots).Nodup) :
    Inv slots.length (Ledger.start slots : Ledger ι) where
  size := rfl
  takers := List.nodup_nil
  distinct := hslots
  pooled sock := by
    unfold Ledger.start
    dsimp only
    split
    next hmem => simp [hmem]
    next hmem => simp [hmem]
  taken sock i hheld := by
    unfold Ledger.start at hheld
    dsimp only at hheld
    split at hheld <;> cases hheld
  single sock sock' i hheld := by
    unfold Ledger.start at hheld
    dsimp only at hheld
    split at hheld <;> cases hheld

omit [DecidableEq ι] in
theorem idle_start (slots : List (Option Connection)) (i : ι) : Idle (own i (Ledger.start slots)) := by
  refine ⟨Set.eq_empty_iff_forall_notMem.mpr fun sock hheld => ?_, List.not_mem_nil⟩
  change (if sock ∈ socketsOf slots then Place.pooled else .unopened) = Place.held i at hheld
  split at hheld <;> cases hheld

/-- In every interleaving of calls and streams over one pool no more sockets are open than it has slots,
and every task only opens a socket for a slot while it holds no other, and only uses the one it holds. A
task that has ended holds no socket, and has put its slot back unless it found the pool closed; when all
have ended, the open sockets are those in the queue. -/
theorem sockets_accounted (p : Package) (config : ClientConfig) (loads : Bytes → Except LoadFault Json)
    (works : ι → Work) (rounds : ι → ℕ) {slots : List (Option Connection)}
    (hslots : (socketsOf slots).Nodup) (first : ι) (awaits : NetOp → Prop)
    {t : Tasks Net ι (Except Exc Unit × Unit) (Ledger ι)}
    (h : Tasks.Reaches env awaits (tasks p config loads works rounds slots first) t) :
    (∀ socks : List SockId, socks.Nodup → (∀ sock ∈ socks, t.state.Open sock) →
      socks.length ≤ slots.length) ∧
    (∀ i op k, t.prog i = .call op k → permits i t.state op) ∧
    (∀ i r, t.prog i = .pure r → (∀ sock, t.state.place sock ≠ .held i) ∧
      (t.state.saw i = false → i ∉ t.state.takers)) ∧
    ((∀ i, ∃ r, t.prog i = .pure r) → (∀ sock, t.state.Open sock ↔ sock ∈ socketsOf t.state.slots) ∧
      ((∀ i, t.state.saw i = false) → t.state.slots.length = slots.length)) := by
  let Q : ι → Except Exc Unit × Unit → Part → Prop := fun _ _ o => Rests o
  have hstart : ∀ i s, Inv slots.length s → own i s = own i (Ledger.start slots) →
      Keeping env (fun _ => True) (Inv slots.length) own Q i
        ((tasks p config loads works rounds slots first).prog i) s := by
    intro i s hs hown
    have hlocal : ∀ s op, Inv slots.length s → (own i s).permits op → (env i).permits s op ∧
        ∀ a s', (env i).step s op a s' → Inv slots.length s' ∧ (own i s).step op a (own i s') := by
      intro s op hs hpermits
      have hallowed := permits_of_own hpermits
      exact ⟨hallowed, fun a s' hstep =>
        ⟨inv_of_step i s op a s' hs hallowed hstep, own_step hs hallowed hstep⟩⟩
    have hwork := wpm_work p config loads (rounds i) (works i) (o := own i s)
      (hown ▸ idle_start slots i)
    exact wp_cooperative_of_own (V := Part.world) (W := env i) (Q := fun _ o => Rests o)
      id hlocal hs hwork
  have hreaches : Tasks.Reaches env (fun _ => True) (tasks p config loads works rounds slots first) t :=
    h.mono fun _ _ => trivial
  have hframe : ∀ (i j : ι) s (op : NetOp) (a : op.Answer) s', j ≠ i → (True → Inv slots.length s) →
      (env i).permits s op → (env i).step s op a s' → own j s' = own j s := by
    intro i j s op a s' hj hs hpermits hstep
    exact own_of_step hj (hs trivial) hpermits hstep
  have hinv : Inv slots.length t.state :=
    Tasks.inv_of_reaches hframe inv_of_step (inv_start hslots) hstart hreaches
  have hsound := Tasks.sound_of_reaches hframe (inv_start hslots) hstart hreaches
  have hended : ∀ i r, t.prog i = .pure r → (∀ sock, t.state.place sock ≠ .held i) ∧
      (t.state.saw i = false → i ∉ t.state.takers) := by
    intro i r hend
    obtain ⟨hheld, hsaw⟩ : Rests (own i t.state) := hsound.ended_of_inv hinv hend
    refine ⟨fun sock => Set.eq_empty_iff_forall_notMem.mp hheld sock, fun hopen htaken => ?_⟩
    rw [show t.state.saw i = true from hsaw htaken] at hopen
    cases hopen
  refine ⟨fun socks => hinv.length_le, fun i op k => hsound.permits_of_inv hinv, hended, fun hall => ?_⟩
  constructor
  · intro sock
    rw [← hinv.pooled]
    unfold Ledger.Open
    cases hplace : t.state.place sock with
    | held i =>
      obtain ⟨r, hr⟩ := hall i
      exact ((hended i r hr).1 sock hplace).elim
    | _ => simp
  · intro hopen
    have hnone : t.state.takers = [] := by
      apply List.eq_nil_iff_forall_not_mem.mpr
      intro i
      obtain ⟨r, hr⟩ := hall i
      exact (hended i r hr).2 (hopen i)
    have hsize := hinv.size
    rw [hnone] at hsize
    exact hsize

/-! ## A server that answers nothing -/

/-- Socket 0 is the next to be opened. It is closed by the server, and on the other sockets the time to
answer passes. -/
def answer (i : Bool) (s : Ledger Bool) : (op : NetOp) → Option (op.Answer × Ledger Bool)
  | .createConnection _ _ _ =>
    if s.place 0 = .unopened then
      some (.ok 0, { s with place := Function.update s.place 0 (.held i) })
    else none
  | .openConnection _ _ _ | .awaitSlot => none
  | .recv sock size => some (if sock = 0 then (NetOp.recv sock size).calm else .error .timeout, s)
  | .closeSocket sock => some ((), { s with place := Function.update s.place sock .closed })
  | .getSlot _ =>
    match s.slots with
    | slot :: slots =>
      some (some slot, { s with slots := slots, takers := i :: s.takers, place := s.moved slot (.held i) })
    | [] => none
  | .putSlot slot =>
    some ((), { s with slots := slot :: s.slots, takers := s.takers.erase i, place := s.moved slot .pooled })
  | .poolClosed => some (false, { s with saw := Function.update s.saw i (s.saw i || false) })
  | op => some (op.calm, s)

theorem step_answer (i : Bool) (s : Ledger Bool) (op : NetOp) (a : op.Answer) (s' : Ledger Bool)
    (h : answer i s op = some (a, s')) : (env i).step s op a s' := by
  cases op with
  | createConnection host port timeout =>
    obtain ⟨hplace, h⟩ := Option.ite_none_right_eq_some.mp h
    cases h
    exact ⟨hplace, rfl⟩
  | openConnection | awaitSlot => cases h
  | getSlot timeout =>
    cases hslots : s.slots with
    | nil => simp [answer, hslots] at h
    | cons slot slots =>
      simp only [answer, hslots] at h
      cases h
      exact ⟨slots, hslots, rfl⟩
  | _ =>
    cases h
    exact rfl

/-- Two calls over a pool that has one open connection and room for another. -/
def twoCalls : Tasks Net Bool (Except Exc Unit × Unit) (Ledger Bool) :=
  tasks .sync { settings := Connection.pooled.settings } (fun _ => .error .valueError)
    (fun _ => .execute Command.getHit (.seconds 1)) (fun _ => 5) [some .pooled, none] false

/-- Both have their connections before either ends. -/
def turns : List (Bool × ℕ) := [(false, 6), (true, 10), (false, 8), (true, 6)]

/-- Both calls have failed. The one has put its connection back open, the other has closed its own. -/
def keepsOne (t : Tasks Net Bool (Except Exc Unit × Unit) (Ledger Bool)) : Bool :=
  t.ended false (.error (.timeoutError .whileReading), ()) &&
    t.ended true (.error (.connectionError .closedByServer), ()) &&
    decide (t.state.place 3 = .pooled ∧ t.state.place 0 = .closed ∧ ∀ i, t.state.saw i = false)

theorem two_calls_accounted : ∃ t : Tasks Net Bool (Except Exc Unit × Unit) (Ledger Bool),
    t.state.place 3 = .pooled ∧ t.state.place 0 = .closed ∧
      (∀ sock, t.state.Open sock ↔ sock ∈ socketsOf t.state.slots) ∧ t.state.slots.length = 2 := by
  have hplays : (twoCalls.play answer turns).any keepsOne = true := by decide +kernel
  obtain ⟨t, hreaches, hkeeps⟩ := Tasks.exists_of_plays step_answer hplays
  obtain ⟨hends, hplaces⟩ := (Bool.and_eq_true _ _).mp hkeeps
  obtain ⟨hfalse, htrue⟩ := (Bool.and_eq_true _ _).mp hends
  obtain ⟨hpooled, hclosed, hsaw⟩ := of_decide_eq_true hplaces
  have hslots : (socketsOf [some Connection.pooled, none]).Nodup := by decide
  have hended : ∀ i, ∃ r, t.prog i = .pure r := by
    intro i
    cases i with
    | false => exact ⟨_, Tasks.prog_of_ended hfalse⟩
    | true => exact ⟨_, Tasks.prog_of_ended htrue⟩
  obtain ⟨hopen, hlength⟩ := (sockets_accounted _ _ _ _ _ hslots _ _ hreaches).2.2.2 hended
  exact ⟨t, hpooled, hclosed, hopen, hlength hsaw⟩

end FqClient.SocketLedger
