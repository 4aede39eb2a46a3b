import FqClient.Linearization
import FqClient.ResponseRoundTrip
import Mathlib.Data.Finset.Card

namespace FqClient.SequentialCalls

open Effects HeldLines OwnResponses PooledLines Linearization

variable {ι D : Type}

/-! ## What a server is for -/

/-- What a call does to the database, and what its caller is told. -/
abbrev Spec (D : Type) := (call : ClientCall) → D → Except Exc call.Result × D

/-- The frame that a call sends. -/
def request (x : Invocation) : Except Exc Bytes := do
  encodeFrame (← x.call.encoded.encode).payload

theorem asks_iff (x : Invocation) (frame : Bytes) : x.Asks frame ↔ request x = .ok frame := by
  unfold Invocation.Asks request
  cases x.call.encoded.encode with
  | error e => simp [bind, Except.bind]
  | ok command => simp [bind, Except.bind]

instance (x : Invocation) (frame : Bytes) : Decidable (x.Asks frame) :=
  decidable_of_iff _ (asks_iff x frame).symm

theorem asks_unique {x : Invocation} {frame frame' : Bytes} (h : x.Asks frame) (h' : x.Asks frame') :
    frame = frame' :=
  Except.ok.inj (((asks_iff x frame).mp h).symm.trans ((asks_iff x frame').mp h'))

/-- A call that is not safe to repeat sends no request of a handshake. -/
theorem not_asks_of_greets {x : Invocation} {frame : Bytes} (hmutates : x.Mutates)
    (hgreets : Greets frame) : ¬ x.Asks frame := by
  intro ⟨command, hcommand, hframe⟩
  obtain ⟨token, hello, hhello, hsame⟩ := hgreets
  exact hello_frame_ne hcommand (hmutates command hcommand) hframe token hello hhello hsame

/-- A handshake changes nothing, and a call does what it is for: the caller makes the answer of the
response. -/
structure Serves (serve : Bytes → D → Bytes × D) (spec : Spec D) (calls : ι → Invocation) : Prop where
  greeted : ∀ frame db, Greets frame → (serve frame db).2 = db
  answered : ∀ i frame db, (calls i).Asks frame →
    (calls i).call.parse (serve frame db).1 = (spec (calls i).call db).1
  changed : ∀ i frame db, (calls i).Asks frame → (serve frame db).2 = (spec (calls i).call db).2

/-! ## The calls in their order -/

section Order
variable (spec : Spec D) (calls : ι → Invocation)

/-- The database after calls that are made one after another. -/
def after (order : List ι) (db : D) : D := order.foldl (fun db i => (spec (calls i).call db).2) db

/-- The calls whose requests the server has handled, as it has handled them. -/
def order (handled : List (Handled ι)) : List ι :=
  (handled.filter fun e => (calls e.task).Asks e.frame).map Handled.task

theorem order_append (handled handled' : List (Handled ι)) :
    order calls (handled ++ handled') = order calls handled ++ order calls handled' := by
  simp [order]

theorem order_cons_of_asks {e : Handled ι} (handled : List (Handled ι))
    (h : (calls e.task).Asks e.frame) : order calls (e :: handled) = e.task :: order calls handled := by
  simp [order, h]

theorem order_cons_of_not_asks {e : Handled ι} (handled : List (Handled ι))
    (h : ¬ (calls e.task).Asks e.frame) : order calls (e :: handled) = order calls handled := by
  simp [order, h]

theorem order_mono {handled handled' : List (Handled ι)} (h : handled <+: handled') :
    order calls handled <+: order calls handled' := (h.filter _).map _

theorem mem_order {handled : List (Handled ι)} {i : ι} (h : i ∈ order calls handled) :
    ∃ e ∈ handled, e.task = i ∧ (calls i).Asks e.frame := by
  obtain ⟨e, he, rfl⟩ := List.mem_map.mp h
  obtain ⟨hmem, hasks⟩ := List.mem_filter.mp he
  exact ⟨e, hmem, rfl, of_decide_eq_true hasks⟩

/-- A call is in the order as often as the server has handled its request. -/
theorem count_order [DecidableEq ι] (handled : List (Handled ι)) {i : ι} {frame : Bytes}
    (h : (calls i).Asks frame) : (order calls handled).count i = requests i frame handled := by
  unfold order requests
  rw [List.count, List.countP_map, List.countP_filter]
  apply List.countP_congr
  intro e _
  simp only [Function.comp_apply, Bool.and_eq_true, beq_iff_eq, decide_eq_true_eq]
  constructor
  · rintro ⟨rfl, hasks⟩
    exact ⟨rfl, asks_unique hasks h⟩
  · rintro ⟨rfl, rfl⟩
    exact ⟨rfl, h⟩

variable {spec calls} {serve : Bytes → D → Bytes × D}

theorem explains_append {db db' : D} {handled handled' : List (Handled ι)} :
    Explains serve db (handled ++ handled') db' ↔
      ∃ db₁, Explains serve db handled db₁ ∧ Explains serve db₁ handled' db' := by
  induction handled generalizing db with
  | nil => exact ⟨fun h => ⟨db, rfl, h⟩, fun ⟨db₁, h, h'⟩ => (show db₁ = db from h) ▸ h'⟩
  | cons e handled ih =>
    simp only [List.cons_append, Explains, ih, and_assoc, exists_and_left]

/-- The calls in their order leave the database as the requests have left it. -/
theorem after_order {db db' : D} {handled : List (Handled ι)} (hserves : Serves serve spec calls)
    (hown : ∀ e ∈ handled, (calls e.task).Asks e.frame ∨ Greets e.frame)
    (h : Explains serve db handled db') : after spec calls (order calls handled) db = db' := by
  induction handled generalizing db with
  | nil => exact (show db' = db from h).symm
  | cons e handled ih =>
    obtain ⟨hfirst, hrest⟩ := List.forall_mem_cons.mp hown
    have htail := ih hrest h.2
    by_cases hasks : (calls e.task).Asks e.frame
    · rw [hserves.changed e.task e.frame db hasks] at htail
      rw [order_cons_of_asks calls handled hasks]
      exact htail
    · rw [hserves.greeted e.frame db (hfirst.resolve_left hasks)] at htail
      rw [order_cons_of_not_asks calls handled hasks]
      exact htail

end Order

/-! ## A sequence of calls -/

variable [DecidableEq ι]

/-- What a task ends with: the call, with its result. -/
abbrev Ended := Except Exc ((call : ClientCall) × call.Result) × Unit

/-- The tasks and the database are those of calls made one after another: their results are those of
the sequence, and what is not safe to repeat is in it once at most. -/
structure Sequential {I : Interface} (spec : Spec D) (calls : ι → Invocation) (db₀ : D) (order : List ι)
    (prog : ι → Prog I Ended) (db : D) (begun : ι → Prop) : Prop where
  state : db = after spec calls order db₀
  returned : ∀ i result, prog i = .pure (.ok ⟨(calls i).call, result⟩, ()) →
    ∃ earlier later, order = earlier ++ i :: later ∧
      (spec (calls i).call (after spec calls earlier db₀)).1 = .ok result
  once : ∀ i, (calls i).Mutates → order.count i ≤ 1
  begun : ∀ i ∈ order, begun i

/-- The calls of a run that the server has handled, in their order. -/
def served (calls : ι → Invocation) (t : Tasks Net ι Ended (System ι D)) : List ι :=
  order calls t.state.backend.handled

/-- A task has performed an operation. -/
def Begun (t : Tasks Net ι Ended (System ι D)) (i : ι) : Prop := t.state.backend.events i ≠ []

section Runs
variable {serve : Bytes → D → Bytes × D} {spec : Spec D} {p : Package} {config : ClientConfig}
  {calls : ι → Invocation} {opened : List Connection} {empty : ℕ} {first : ι} {db₀ : D}
  {t : Tasks Net ι Ended (System ι D)}

theorem sequential_of_reaches (hserves : Serves serve spec calls)
    (h : Tasks.Reaches (world serve) (fun _ => True) (tasks p config calls opened empty first db₀) t) :
    Sequential spec calls db₀ (served calls t) t.prog t.state.backend.db (Begun t) := by
  have hexplains := (ledger_of_reaches h).explains
  have hown : ∀ e ∈ t.state.backend.handled, (calls e.task).Asks e.frame ∨ Greets e.frame :=
    fun e he => handled_own h he
  constructor
  · exact (after_order hserves hown hexplains).symm
  · intro i result hreturned
    obtain ⟨e, he, rfl, hasks, hparse⟩ := result_of_returned h hreturned
    obtain ⟨before, rest, hsplit⟩ := List.append_of_mem he
    rw [hsplit] at hexplains hown
    obtain ⟨db₁, hbefore, hresponse, _⟩ := explains_append.mp hexplains
    have hdb₁ : after spec calls (order calls before) db₀ = db₁ :=
      after_order hserves (fun e he => hown e (List.mem_append_left _ he)) hbefore
    refine ⟨order calls before, order calls rest, ?_, ?_⟩
    · rw [served, hsplit, order_append, order_cons_of_asks calls rest hasks]
    · rw [hdb₁, ← hserves.answered e.task e.frame db₁ hasks, ← hresponse]
      exact hparse
  · intro i hmutates
    by_cases hmem : i ∈ served calls t
    · obtain ⟨e, _, _, hasks⟩ := mem_order calls hmem
      rw [served, count_order calls _ hasks]
      exact handled_once h hmutates hasks
    · rw [List.count_eq_zero.mpr hmem]
      exact Nat.zero_le 1
  · intro i hi
    obtain ⟨e, he, rfl, _⟩ := mem_order calls hi
    exact (ledger_of_reaches h).begun he

/-- What follows extends the sequence. -/
theorem served_mono {t' : Tasks Net ι Ended (System ι D)}
    (ht' : Tasks.Reaches (world serve) (fun _ => True) t t') : served calls t <+: served calls t' :=
  order_mono calls (handled_of_reaches ht')

end Runs

/-! ## Concurrent increments -/

/-- The call increments the counter of the key. -/
def Hits (key : CappingKey) (x : Invocation) : Prop := x.call = .keyed (.incr key)

instance (key : CappingKey) (x : Invocation) : Decidable (Hits key x) :=
  inferInstanceAs (Decidable (x.call = .keyed (.incr key)))

/-- INCR adds one to a counter and tells the sum, and no other call changes the counter. -/
structure Counts (spec : Spec D) (calls : ι → Invocation) (key : CappingKey)
    (value : D → ℕ) : Prop where
  hit : ∀ db, value (spec (.keyed (.incr key)) db).2 = value db + 1
  told : ∀ db n, (spec (.keyed (.incr key)) db).1 = .ok n → n = value db + 1
  other : ∀ i db, ¬ Hits key (calls i) → value (spec (calls i).call db).2 = value db

/-- A task has returned a number. -/
def Told {I : Interface} (key : CappingKey) (prog : ι → Prog I Ended) (i : ι) (n : ℕ) : Prop :=
  prog i = .pure (.ok ⟨.keyed (.incr key), n⟩, ())

omit [DecidableEq ι] in
theorem value_after {spec : Spec D} {calls : ι → Invocation} {key : CappingKey} {value : D → ℕ}
    (hcounts : Counts spec calls key value) (order : List ι) (db : D) :
    value (after spec calls order db) = value db + order.countP fun i => Hits key (calls i) := by
  induction order generalizing db with
  | nil => rfl
  | cons i order ih =>
    rw [after, List.foldl_cons, ← after, ih, List.countP_cons]
    by_cases hi : Hits key (calls i)
    · rw [show (calls i).call = _ from hi, hcounts.hit, decide_eq_true hi, if_pos rfl]
      omega
    · rw [hcounts.other i db hi, decide_eq_false hi, if_neg Bool.false_ne_true]
      omega

/-- Where an increment is in the order. -/
structure Placed (key : CappingKey) (calls : ι → Invocation) (order : List ι) (i : ι) (rank : ℕ) :
    Prop where
  hits : Hits key (calls i)
  split : ∃ earlier later, order = earlier ++ i :: later ∧
    earlier.countP (fun j => Hits key (calls j)) = rank

section Placed
variable {key : CappingKey} {calls : ι → Invocation} {order order' : List ι} {i j : ι} {m n : ℕ}

omit [DecidableEq ι] in
theorem Placed.lt (h : Placed key calls order i m) :
    m < order.countP fun j => Hits key (calls j) := by
  obtain ⟨earlier, later, rfl, rfl⟩ := h.split
  rw [List.countP_append, List.countP_cons, decide_eq_true h.hits, if_pos rfl]
  omega

omit [DecidableEq ι] in
theorem Placed.unique (hi : Placed key calls order i n) (hj : Placed key calls order j n) : i = j := by
  obtain ⟨earlier, later, hsplit, hrank⟩ := hi.split
  obtain ⟨earlier', later', hsplit', hrank'⟩ := hj.split
  rcases List.append_eq_append_iff.mp (hsplit.symm.trans hsplit') with ⟨between, heq, htail⟩ |
    ⟨between, heq, htail⟩
  · cases between with
    | nil => exact (List.cons.inj htail).1
    | cons k between =>
      obtain ⟨rfl, _⟩ := List.cons.inj htail
      rw [heq, List.countP_append, List.countP_cons, decide_eq_true hi.hits, if_pos rfl] at hrank'
      omega
  · cases between with
    | nil => exact (List.cons.inj htail).1.symm
    | cons k between =>
      obtain ⟨rfl, _⟩ := List.cons.inj htail
      rw [heq, List.countP_append, List.countP_cons, decide_eq_true hj.hits, if_pos rfl] at hrank
      omega

omit [DecidableEq ι] in
/-- An increment that is new in a longer order is after all of the shorter one. -/
theorem Placed.later (hi : Placed key calls order i m) (hextends : order <+: order') (hnew : j ∉ order)
    (hj : Placed key calls order' j n) : m < n := by
  obtain ⟨earlier, later, hsplit, rfl⟩ := hj.split
  have hbefore : order <+: earlier := by
    rcases List.prefix_or_prefix_of_prefix hextends (hsplit ▸ List.prefix_append earlier _) with h | h
    · exact h
    · obtain ⟨between, rfl⟩ := h
      obtain ⟨rest, hrest⟩ := hextends
      rw [hsplit, List.append_assoc] at hrest
      have htail := List.append_cancel_left hrest
      cases between with
      | nil => exact ⟨[], by simp⟩
      | cons k between =>
        obtain ⟨rfl, _⟩ := List.cons.inj htail
        exact absurd (List.mem_append_right _ List.mem_cons_self) hnew
  exact hi.lt.trans_le (List.Sublist.countP_le hbefore.sublist)

end Placed

section Increments
variable {spec : Spec D} {key : CappingKey} {value : D → ℕ} {calls : ι → Invocation} {db₀ : D}
  {order : List ι} {I : Interface} {prog : ι → Prog I Ended} {db : D} {begun : ι → Prop}

theorem mutates_of_hits {x : Invocation} (h : Hits key x) : x.Mutates := by
  intro command hcommand
  rw [show x.call = _ from h] at hcommand
  exact (payload_of_mutating hcommand).2

omit [DecidableEq ι] in
theorem result_of_call (spec : Spec D) {call call' : ClientCall} (h : call = call')
    (result : call'.Result) :
    ∃ result' : call.Result, (⟨call', result⟩ : (c : ClientCall) × c.Result) = ⟨call, result'⟩ ∧
      ∀ db, (spec call db).1 = .ok result' → (spec call' db).1 = .ok result := by
  subst h
  exact ⟨result, rfl, fun _ h => h⟩

theorem placed_of_told (hsequential : Sequential spec calls db₀ order prog db begun)
    (hcounts : Counts spec calls key value) {i : ι} {n : ℕ} (hi : Hits key (calls i))
    (htold : Told key prog i n) : ∃ rank, Placed key calls order i rank ∧ n = value db₀ + rank + 1 := by
  obtain ⟨result, heq, hspec⟩ := result_of_call spec hi (n : ℕ)
  unfold Told at htold
  rw [heq] at htold
  obtain ⟨earlier, later, hsplit, hanswer⟩ := hsequential.returned i result htold
  refine ⟨_, ⟨hi, earlier, later, hsplit, rfl⟩, ?_⟩
  rw [hcounts.told _ n (hspec _ hanswer), value_after hcounts]

/-- The increments of a sequence, each once. -/
theorem nodup_hits (hsequential : Sequential spec calls db₀ order prog db begun) :
    (order.filter fun i => Hits key (calls i)).Nodup := by
  rw [List.nodup_iff_count_le_one]
  intro i
  by_cases hi : Hits key (calls i)
  · rw [List.count_filter (p := fun i => decide (Hits key (calls i))) (decide_eq_true hi)]
    exact hsequential.once i (mutates_of_hits hi)
  · have hnot : i ∉ order.filter fun i => Hits key (calls i) :=
      fun hmem => hi (of_decide_eq_true (List.mem_filter.mp hmem).2)
    rw [List.count_eq_zero.mpr hnot]
    exact Nat.zero_le 1

theorem card_hits (hsequential : Sequential spec calls db₀ order prog db begun) :
    (order.filter fun i => Hits key (calls i)).toFinset.card =
      order.countP fun i => Hits key (calls i) := by
  rw [List.toFinset_card_of_nodup (nodup_hits hsequential), List.countP_eq_length_filter]

/-- The counter is behind by no increment that has returned, and ahead by none that has not begun. -/
structure Exact {I : Interface} (key : CappingKey) (calls : ι → Invocation) (value : D → ℕ) (db₀ : D)
    (prog : ι → Prog I Ended) (db : D) (begun : ι → Prop) : Prop where
  distinct : ∀ i j n, Hits key (calls i) → Hits key (calls j) → Told key prog i n →
    Told key prog j n → i = j
  told : ∀ i n, Hits key (calls i) → Told key prog i n → value db₀ < n ∧ n ≤ value db
  kept : ∀ done : Finset ι, (∀ i ∈ done, Hits key (calls i) ∧ ∃ n, Told key prog i n) →
    value db₀ + done.card ≤ value db
  once : ∀ some : Finset ι, (∀ i, Hits key (calls i) → begun i → i ∈ some) →
    value db ≤ value db₀ + some.card

theorem exact_of_sequential (hsequential : Sequential spec calls db₀ order prog db begun)
    (hcounts : Counts spec calls key value) : Exact key calls value db₀ prog db begun := by
  have hvalue : value db = value db₀ + order.countP fun i => Hits key (calls i) := by
    rw [hsequential.state, value_after hcounts]
  constructor
  · intro i j n hi hj htold htold'
    obtain ⟨rank, hplaced, hn⟩ := placed_of_told hsequential hcounts hi htold
    obtain ⟨rank', hplaced', hn'⟩ := placed_of_told hsequential hcounts hj htold'
    obtain rfl : rank = rank' := by omega
    exact hplaced.unique hplaced'
  · intro i n hi htold
    obtain ⟨rank, hplaced, hn⟩ := placed_of_told hsequential hcounts hi htold
    have hlt := hplaced.lt
    omega
  · intro done hdone
    have hsubset : done ⊆ (order.filter fun i => Hits key (calls i)).toFinset := by
      intro i hi
      obtain ⟨hhits, n, htold⟩ := hdone i hi
      obtain ⟨_, hplaced, _⟩ := placed_of_told hsequential hcounts hhits htold
      obtain ⟨earlier, later, hsplit, _⟩ := hplaced.split
      simp [hsplit, hhits]
    have hcard := Finset.card_le_card hsubset
    rw [card_hits hsequential] at hcard
    omega
  · intro some hsome
    have hsubset : (order.filter fun i => Hits key (calls i)).toFinset ⊆ some := by
      intro i hi
      obtain ⟨hmem, hhits⟩ := List.mem_filter.mp (List.mem_toFinset.mp hi)
      exact hsome i (of_decide_eq_true hhits) (hsequential.begun i hmem)
    have hcard := Finset.card_le_card hsubset
    rw [card_hits hsequential] at hcard
    omega

/-- An increment that has not begun is told a greater number than one that has returned. -/
theorem later_of_sequential {order' : List ι} {prog' : ι → Prog I Ended} {db' : D} {begun' : ι → Prop}
    (hsequential : Sequential spec calls db₀ order prog db begun)
    (hsequential' : Sequential spec calls db₀ order' prog' db' begun') (hextends : order <+: order')
    (hcounts : Counts spec calls key value) {i j : ι} {m n : ℕ} (hi : Hits key (calls i))
    (hj : Hits key (calls j)) (htold : Told key prog i m) (hnew : ¬ begun j)
    (htold' : Told key prog' j n) : m < n := by
  obtain ⟨rank, hplaced, hm⟩ := placed_of_told hsequential hcounts hi htold
  obtain ⟨rank', hplaced', hn⟩ := placed_of_told hsequential' hcounts hj htold'
  have hlater := hplaced.later hextends (fun hmem => hnew (hsequential.begun j hmem)) hplaced'
  omega

end Increments

/-! ## Two increments at once -/

def hit : CappingKey := ⟨"hit".toList, 60⟩

def increments (_ : Bool) : Invocation := ⟨.keyed (.incr hit), .unlimited, 1⟩

/-- A server with one counter. -/
def tallying (frame : Bytes) (n : ℕ) : Bytes × ℕ :=
  if (increments true).Asks frame then (okPayload (valueParts (n + 1)), n + 1)
  else (encodeUtf8 "err|1|unknown".toList, n)

def counter : Spec ℕ := fun call n =>
  if call = .keyed (.incr hit) then (call.parse (okPayload (valueParts (n + 1))), n + 1)
  else (.error .valueError, n)

theorem parseUint_ok {field : Bytes} {limit n : ℕ} (h : parseUint field limit = .ok n) :
    n = digitsValue field := by
  unfold parseUint at h
  split at h
  · cases h
  · split at h
    · cases h
    · exact (Except.ok.inj h).symm

theorem serves_tallying : Serves tallying counter increments := by
  have hcall : ∀ i, (increments i).call = .keyed (.incr hit) := fun _ => rfl
  constructor
  · intro frame n hgreets
    have hhits : Hits hit (increments true) := rfl
    unfold tallying
    rw [if_neg (not_asks_of_greets (mutates_of_hits hhits) hgreets)]
  · intro i frame n (hasks : (increments true).Asks frame)
    rw [tallying, if_pos hasks, counter, if_pos (hcall i)]
  · intro i frame n (hasks : (increments true).Asks frame)
    rw [tallying, if_pos hasks, counter, if_pos (hcall i)]

theorem counts_tallying : Counts counter increments hit id := by
  constructor
  · intro n
    rfl
  · intro n m h
    have hparse : parseUint (numberField (n + 1)) = .ok m := by
      have hvalue : parseValue (okPayload (valueParts (n + 1))) = .ok m := by
        rw [counter, if_pos rfl] at h
        exact h
      rw [parseValue, okPayload, okData_ok, valueParts, List.intercalate_singleton] at hvalue
      exact hvalue
    rw [parseUint_ok hparse, digitsValue_eq]
    exact (isNumber_numberField _).2.2.symm
  · intro i n hnot
    exact absurd rfl hnot

def twoTasks : Tasks Net Bool Ended (System Bool ℕ) :=
  tasks .sync { settings := Connection.pooled.settings } increments [.pooled, .pooled] 0 false 0

/-- The request of the first task is overtaken by that of the second. -/
def overtaken (i : Bool) (frame : Bytes) (n : ℕ) : Bytes := (tallying frame (if i then n else n + 1)).1

theorem two_run : ∃ t, Tasks.Reaches (world tallying) (fun _ => True) twoTasks t ∧
    Told hit t.prog false 2 ∧ Told hit t.prog true 1 := by
  have hplays : (twoTasks.play (host tallying overtaken) turns).any (fun t =>
      t.ended false (incremented 2) && t.ended true (incremented 1)) = true := by decide +kernel
  obtain ⟨t, hreaches, hends⟩ := Tasks.exists_of_plays (step_host tallying overtaken) hplays
  obtain ⟨hfalse, htrue⟩ := (Bool.and_eq_true _ _).mp hends
  exact ⟨t, hreaches, Tasks.prog_of_ended hfalse, Tasks.prog_of_ended htrue⟩

/-! ## Every interleaving -/

section Interleavings
variable {serve : Bytes → D → Bytes × D} {spec : Spec D} {p : Package} {config : ClientConfig}
  {calls : ι → Invocation} {opened : List Connection} {empty : ℕ} {first : ι} {db₀ : D}
  {t : Tasks Net ι Ended (System ι D)}

/-- However the calls over one pool interleave, and whatever is lost with connections, as long as no
connection is put back while a response to it is outstanding they are a sequence of calls to what the
server is for; what follows extends that sequence, so a call that begins after another has returned is
after it. -/
theorem concurrent_calls_sequential (hserves : Serves serve spec calls)
    (h : Tasks.Reaches (world serve) (fun _ => True) (tasks p config calls opened empty first db₀) t) :
    Sequential spec calls db₀ (served calls t) t.prog t.state.backend.db (Begun t) ∧
      ∀ t', Tasks.Reaches (world serve) (fun _ => True) t t' → served calls t <+: served calls t' :=
  ⟨sequential_of_reaches hserves h, fun _ ht' => served_mono ht'⟩

theorem two_increments_sequential : ∃ t, Told hit t.prog false 2 ∧ Told hit t.prog true 1 ∧
    Sequential counter increments 0 (served increments t) t.prog t.state.backend.db (Begun t) := by
  obtain ⟨t, hreaches, hfalse, htrue⟩ := two_run
  exact ⟨t, hfalse, htrue, (concurrent_calls_sequential serves_tallying hreaches).1⟩

/-- However concurrent calls interleave and fail, as long as no connection is put back while a response to
it is outstanding, no increment is lost, none is counted twice, no two are told one number, and one that
begins after another has returned is told a greater number. -/
theorem increments_exact {key : CappingKey} {value : D → ℕ} (hserves : Serves serve spec calls)
    (hcounts : Counts spec calls key value)
    (h : Tasks.Reaches (world serve) (fun _ => True) (tasks p config calls opened empty first db₀) t) :
    Exact key calls value db₀ t.prog t.state.backend.db (Begun t) ∧
      ∀ t', Tasks.Reaches (world serve) (fun _ => True) t t' →
        ∀ i j m n, Hits key (calls i) → Hits key (calls j) → Told key t.prog i m → ¬ Begun t j →
          Told key t'.prog j n → m < n := by
  have hsequential := sequential_of_reaches hserves h
  refine ⟨exact_of_sequential hsequential hcounts, ?_⟩
  intro t' ht' i j m n hi hj htold hnew htold'
  exact later_of_sequential hsequential (sequential_of_reaches hserves (h.trans ht')) (served_mono ht')
    hcounts hi hj htold hnew htold'

theorem two_increments_exact : ∃ t : Tasks Net Bool Ended (System Bool ℕ),
    Told hit t.prog false 2 ∧ Told hit t.prog true 1 ∧
      Exact hit increments id 0 t.prog t.state.backend.db (Begun t) := by
  obtain ⟨t, hreaches, hfalse, htrue⟩ := two_run
  exact ⟨t, hfalse, htrue, (increments_exact serves_tallying counts_tallying hreaches).1⟩

end Interleavings

end FqClient.SequentialCalls
