import FqClient.ResponseGrammar

namespace FqClient

open Effects

/-! ## The fields of each response -/

def ValueFields (parts : List Bytes) (value : ℕ) : Prop :=
  ∃ field, parts = [field] ∧ IsNumber field value

def BoolFields (parts : List Bytes) (flag : Bool) : Prop := ∃ field, parts = [field] ∧ IsFlag field flag

def ValuesFields (parts : List Bytes) (values : List ℕ) : Prop := List.Forall₂ IsNumber parts values

def HelloFields : List Bytes → HelloInfo → Prop
  | [version, size, auth, role], info => IsNumber version info.version ∧
      IsNumber size info.maxMessageSize ∧ 0 < info.maxMessageSize ∧
      IsFlag auth info.authRequired ∧ info.role = text role
  | _, _ => False

def RateLimitFields : List Bytes → RateLimitResult → Prop
  | [allowed, current, remaining, resetAfter], result => IsFlag allowed result.allowed ∧
      IsNumber current result.current ∧ IsNumber remaining result.remaining ∧
      IsNumber resetAfter result.resetAfter
  | _, _ => False

def QuotaAcquireFields : List Bytes → QuotaAcquireResult → Prop
  | [acquired, allocated, used, remaining, expiresAfter], result =>
      IsFlag acquired result.acquired ∧ IsNumber allocated result.allocated ∧
      IsNumber used result.used ∧ IsNumber remaining result.remaining ∧
      IsNumber expiresAfter result.expiresAfter
  | _, _ => False

/-- Triples of a client, its amount and the end of its reservation. -/
def ClientFields : List Bytes → List QuotaClientInfo → Prop
  | [], [] => True
  | client :: amount :: expires :: parts, info :: clients => info.clientId = text client ∧
      IsNumber amount info.amount ∧ IsNumber expires info.expiresAt ∧ ClientFields parts clients
  | _, _ => False

def QuotaInfoFields : List Bytes → QuotaInfo → Prop
  | limit :: used :: remaining :: parts, info => IsNumber limit info.limit ∧
      IsNumber used info.used ∧ IsNumber remaining info.remaining ∧ ClientFields parts info.clients
  | _, _ => False

/-- Pairs of a key and its window. -/
def KeyFields : List Bytes → List ScanKey → Prop
  | [], [] => True
  | key :: window :: parts, found :: keys => found.key = text key ∧ IsNumber window found.window ∧
      KeyFields parts keys
  | _, _ => False

def ScanFields : List Bytes → ScanResult → Prop
  | cursor :: parts, result => result.cursor = text cursor ∧ KeyFields parts result.keys
  | _, _ => False

def LimitEventFields : List Bytes → LimitEvent → Prop
  | [key, window, current, resetAfter], event => event.key = text key ∧
      IsNumber window event.window ∧ IsNumber current event.current ∧
      IsNumber resetAfter event.resetAfter
  | _, _ => False

def QuotaEventFields : List Bytes → QuotaEvent → Prop
  | [event, name, client, amount, used, remaining, expires], result => result.event = text event ∧
      result.name = text name ∧ result.clientId = text client ∧ IsNumber amount result.amount ∧
      IsNumber used result.used ∧ IsNumber remaining result.remaining ∧
      IsNumber expires result.expiresAt
  | _, _ => False

/-! ## The decoders meet them -/

/-- A body with a fixed number of fields. -/
theorem documented_of_fields {α : Type} (expected : ℕ) {run : List Bytes → Except Exc α}
    {Fits : List Bytes → α → Prop} (hlength : ∀ parts result, Fits parts result →
      parts.length = expected)
    (hvalue : ∀ parts result, parts.length = expected → (run parts = .ok result ↔
      Fits parts result))
    (hother : ∀ parts, Raises Exc.Corrupted (run parts)) :
    Documented (fun payload => okData payload 0 >>= fun data => fields data expected >>= run)
      Fits := by
  refine @documented_of_body α (fun _ data => fields data expected >>= run) Fits ?_ ?_
  · intro _ data result
    unfold fields
    by_cases hparts : (data.splitOn fieldDelimiter).length = expected
    · rw [if_neg (not_not.mpr hparts)]
      exact hvalue _ result hparts
    · rw [if_pos hparts]
      constructor
      · intro h
        cases h
      · intro h
        exact absurd (hlength _ _ h) hparts
  · intro _ data
    exact (corrupted_fields data expected).bind hother

/-- A body that is one field. -/
theorem one_field_iff {P : Bytes → Prop} (hfree : ∀ data, P data → fieldDelimiter ∉ data)
    (data : Bytes) : P data ↔ ∃ field, data.splitOn fieldDelimiter = [field] ∧ P field := by
  constructor
  · intro h
    exact ⟨data, List.splitOn_eq_singleton (hfree data h), h⟩
  · intro ⟨field, hsplit, h⟩
    have hdata : [fieldDelimiter].intercalate (data.splitOn fieldDelimiter) = data :=
      List.intercalate_splitOn _
    rw [hsplit, List.intercalate_singleton] at hdata
    rw [← hdata]
    exact h

theorem documented_parseValue : Documented (parseValue · 0) ValueFields := by
  refine @documented_of_body ℕ (fun _ data => parseUint data 0) ValueFields ?_ ?_
  · intro _ data value
    rw [parseUint_ok_iff]
    exact one_field_iff (fun _ h => not_fieldDelimiter_of_number h) data
  · exact fun _ data => corrupted_parseUint data

theorem documented_parseBool : Documented (parseBool · 0) BoolFields := by
  refine @documented_of_body Bool (fun _ data => parseBoolField data) BoolFields ?_ ?_
  · intro _ data flag
    rw [parseBoolField_ok_iff]
    exact one_field_iff (fun _ h => not_fieldDelimiter_of_flag h) data
  · exact fun _ data => corrupted_parseBoolField data

theorem documented_parseValues : Documented (parseValues · 0) ValuesFields := by
  refine @documented_of_body (List ℕ)
    (fun _ data => (data.splitOn fieldDelimiter).mapM fun field => parseUint field 0)
    ValuesFields ?_ ?_
  · intro _ data values
    exact mapM_ok_iff fun field value => parseUint_ok_iff field value
  · exact fun _ data => raises_mapM (fun field => corrupted_parseUint field) _

/-- A list of a known length. -/
theorem exists_four {α : Type} {l : List α} (h : l.length = 4) : ∃ a b c d, l = [a, b, c, d] :=
  match l, h with
  | [a, b, c, d], _ => ⟨a, b, c, d, rfl⟩

theorem documented_parseHello : Documented (parseHello · 0) HelloFields := by
  apply documented_of_fields 4
  · intro parts info h
    match parts, h with
    | [_, _, _, _], _ => rfl
  · intro parts info hlength
    obtain ⟨version, size, auth, role, rfl⟩ := exists_four hlength
    simp only [List.getD_cons_zero, List.getD_cons_succ, bind_ok_iff, parseUint_ok_iff,
      HelloFields]
    constructor
    · intro ⟨n, hsize, h⟩
      split at h
      · cases h
      · rename_i hn
        simp only [bind_ok_iff, parseUint_ok_iff, parseBoolField_ok_iff] at h
        obtain ⟨_, hversion, _, hauth, heq⟩ := h
        rw [← Except.ok.inj heq]
        exact ⟨hversion, hsize, Nat.pos_of_ne_zero hn, hauth, rfl⟩
    · intro ⟨hversion, hsize, hpos, hauth, hrole⟩
      refine ⟨info.maxMessageSize, hsize, ?_⟩
      rw [if_neg (Nat.ne_of_gt hpos)]
      simp only [bind_ok_iff, parseUint_ok_iff, parseBoolField_ok_iff]
      refine ⟨_, hversion, _, hauth, ?_⟩
      rw [← hrole]
      rfl
  · intro parts
    refine (corrupted_parseUint _).bind fun size => .ite (raises_error ⟨_, rfl⟩) ?_
    refine (corrupted_parseUint _).bind fun _ => (corrupted_parseBoolField _).bind fun _ => ?_
    exact raises_ok _

theorem documented_parseRateLimit : Documented (parseRateLimit · 0) RateLimitFields := by
  apply documented_of_fields 4
  · intro parts result h
    match parts, h with
    | [_, _, _, _], _ => rfl
  · intro parts result hlength
    obtain ⟨allowed, current, remaining, resetAfter, rfl⟩ := exists_four hlength
    simp only [List.getD_cons_zero, List.getD_cons_succ, bind_ok_iff, parseUint_ok_iff,
      parseBoolField_ok_iff, RateLimitFields]
    constructor
    · intro ⟨_, hallowed, _, hcurrent, _, hremaining, _, hreset, heq⟩
      rw [← Except.ok.inj heq]
      exact ⟨hallowed, hcurrent, hremaining, hreset⟩
    · intro ⟨hallowed, hcurrent, hremaining, hreset⟩
      exact ⟨_, hallowed, _, hcurrent, _, hremaining, _, hreset, rfl⟩
  · intro parts
    exact (corrupted_parseBoolField _).bind fun _ => (corrupted_parseUint _).bind fun _ =>
      (corrupted_parseUint _).bind fun _ => (corrupted_parseUint _).bind fun _ => raises_ok _

theorem exists_five {α : Type} {l : List α} (h : l.length = 5) :
    ∃ a b c d e, l = [a, b, c, d, e] :=
  match l, h with
  | [a, b, c, d, e], _ => ⟨a, b, c, d, e, rfl⟩

theorem documented_parseQuotaAcquire : Documented (parseQuotaAcquire · 0) QuotaAcquireFields := by
  apply documented_of_fields 5
  · intro parts result h
    match parts, h with
    | [_, _, _, _, _], _ => rfl
  · intro parts result hlength
    obtain ⟨acquired, allocated, used, remaining, expires, rfl⟩ := exists_five hlength
    simp only [List.getD_cons_zero, List.getD_cons_succ, bind_ok_iff, parseUint_ok_iff,
      parseBoolField_ok_iff, QuotaAcquireFields]
    constructor
    · intro ⟨_, hacquired, _, hallocated, _, hused, _, hremaining, _, hexpires, heq⟩
      rw [← Except.ok.inj heq]
      exact ⟨hacquired, hallocated, hused, hremaining, hexpires⟩
    · intro ⟨hacquired, hallocated, hused, hremaining, hexpires⟩
      exact ⟨_, hacquired, _, hallocated, _, hused, _, hremaining, _, hexpires, rfl⟩
  · intro parts
    exact (corrupted_parseBoolField _).bind fun _ => (corrupted_parseUint _).bind fun _ =>
      (corrupted_parseUint _).bind fun _ => (corrupted_parseUint _).bind fun _ =>
      (corrupted_parseUint _).bind fun _ => raises_ok _

theorem documented_parseLimitEvent : Documented (parseLimitEvent · 0) LimitEventFields := by
  apply documented_of_fields 4
  · intro parts event h
    match parts, h with
    | [_, _, _, _], _ => rfl
  · intro parts event hlength
    obtain ⟨key, window, current, reset, rfl⟩ := exists_four hlength
    simp only [List.getD_cons_zero, List.getD_cons_succ, bind_ok_iff, parseUint_ok_iff,
      LimitEventFields]
    constructor
    · intro ⟨_, hwindow, _, hcurrent, _, hreset, heq⟩
      rw [← Except.ok.inj heq]
      exact ⟨rfl, hwindow, hcurrent, hreset⟩
    · intro ⟨hkey, hwindow, hcurrent, hreset⟩
      refine ⟨_, hwindow, _, hcurrent, _, hreset, ?_⟩
      rw [← hkey]
      rfl
  · intro parts
    exact (corrupted_parseUint _).bind fun _ => (corrupted_parseUint _).bind fun _ =>
      (corrupted_parseUint _).bind fun _ => raises_ok _

theorem exists_seven {α : Type} {l : List α} (h : l.length = 7) :
    ∃ a b c d e f g, l = [a, b, c, d, e, f, g] :=
  match l, h with
  | [a, b, c, d, e, f, g], _ => ⟨a, b, c, d, e, f, g, rfl⟩

theorem documented_parseQuotaEvent : Documented (parseQuotaEvent · 0) QuotaEventFields := by
  apply documented_of_fields 7
  · intro parts result h
    match parts, h with
    | [_, _, _, _, _, _, _], _ => rfl
  · intro parts result hlength
    obtain ⟨event, name, client, amount, used, remaining, expires, rfl⟩ := exists_seven hlength
    simp only [List.getD_cons_zero, List.getD_cons_succ, bind_ok_iff, parseUint_ok_iff,
      QuotaEventFields]
    constructor
    · intro ⟨_, hamount, _, hused, _, hremaining, _, hexpires, heq⟩
      rw [← Except.ok.inj heq]
      exact ⟨rfl, rfl, rfl, hamount, hused, hremaining, hexpires⟩
    · intro ⟨hevent, hname, hclient, hamount, hused, hremaining, hexpires⟩
      refine ⟨_, hamount, _, hused, _, hremaining, _, hexpires, ?_⟩
      rw [← hevent, ← hname, ← hclient]
      rfl
  · intro parts
    exact (corrupted_parseUint _).bind fun _ => (corrupted_parseUint _).bind fun _ =>
      (corrupted_parseUint _).bind fun _ => (corrupted_parseUint _).bind fun _ => raises_ok _

/-! ## Records at a stride -/

/-- Reading the records at `start`, `start + stride` and so on is reading them one after another. -/
theorem mapM_strided_ok_iff {α : Type} {stride : ℕ} {read : List Bytes → Except Exc α}
    {Fits : List Bytes → List α → Prop} (hnil : ∀ found, Fits [] found ↔ found = [])
    (hcons : ∀ parts found, stride ≤ parts.length → (Fits parts found ↔
      ∃ first rest, found = first :: rest ∧ read parts = .ok first ∧
        Fits (parts.drop stride) rest)) {count : ℕ} {parts : List Bytes} {start : ℕ}
    (hlength : parts.length = start + stride * count) {found : List α} :
    (List.range' start count stride).mapM (fun index => read (parts.drop index)) = .ok found ↔
      Fits (parts.drop start) found := by
  induction count generalizing start found with
  | zero =>
    rw [List.drop_eq_nil_of_le (by omega), hnil, List.range'_zero, List.mapM_nil]
    constructor
    · intro h
      exact (Except.ok.inj h).symm
    · intro h
      rw [h]
      rfl
  | succ count ih =>
    have hrest : parts.length = start + stride + stride * count := by
      rw [hlength, Nat.mul_succ]
      omega
    have hhead : stride ≤ (parts.drop start).length := by
      rw [List.length_drop]
      omega
    rw [hcons _ _ hhead, List.drop_drop, List.range'_succ, List.mapM_cons]
    simp only [bind_ok_iff, ih hrest]
    constructor
    · intro ⟨first, hfirst, rest, hfits, heq⟩
      exact ⟨first, rest, (Except.ok.inj heq).symm, hfirst, hfits⟩
    · intro ⟨first, rest, heq, hfirst, hfits⟩
      exact ⟨first, hfirst, rest, hfits, congrArg Except.ok heq.symm⟩

theorem getD_drop (parts : List Bytes) (start index : ℕ) :
    parts.getD (start + index) [] = (parts.drop start).getD index [] := by
  rw [List.getD_eq_getElem?_getD, List.getD_eq_getElem?_getD, List.getElem?_drop]

theorem length_of_keyFields {parts : List Bytes} {keys : List ScanKey} (h : KeyFields parts keys) :
    parts.length = 2 * keys.length := by
  fun_induction KeyFields parts keys with
  | case1 => rfl
  | case2 key window parts found keys ih =>
    rw [List.length_cons, List.length_cons, List.length_cons, ih h.2.2]
    omega
  | case3 => exact absurd h not_false

theorem length_of_clientFields {parts : List Bytes} {clients : List QuotaClientInfo}
    (h : ClientFields parts clients) : parts.length = 3 * clients.length := by
  fun_induction ClientFields parts clients with
  | case1 => rfl
  | case2 client amount expires parts info clients ih =>
    rw [List.length_cons, List.length_cons, List.length_cons, List.length_cons, ih h.2.2.2]
    omega
  | case3 => exact absurd h not_false

/-- One pair of a scan response. -/
def readKey (limit : ℕ) (parts : List Bytes) : Except Exc ScanKey := do
  return ⟨text (parts.getD 0 []), ← parseUint (parts.getD 1 []) limit⟩

/-- One triple of a quota info response. -/
def readClient (limit : ℕ) (parts : List Bytes) : Except Exc QuotaClientInfo := do
  return ⟨text (parts.getD 0 []), ← parseUint (parts.getD 1 []) limit,
    ← parseUint (parts.getD 2 []) limit⟩

theorem readKey_cons_iff {parts : List Bytes} {found : List ScanKey} (hlength : 2 ≤ parts.length) :
    KeyFields parts found ↔ ∃ first rest, found = first :: rest ∧ readKey 0 parts = .ok first ∧
      KeyFields (parts.drop 2) rest := by
  match parts, hlength with
  | key :: window :: parts, _ =>
    simp only [readKey, List.getD_cons_zero, List.getD_cons_succ, bind_ok_iff, parseUint_ok_iff,
      List.drop_succ_cons, List.drop_zero]
    constructor
    · intro h
      match found, h with
      | first :: rest, h =>
        refine ⟨first, rest, rfl, ⟨first.window, h.2.1, ?_⟩, h.2.2⟩
        rw [← h.1]
        rfl
    · intro ⟨first, rest, hfound, ⟨_, hwindow, heq⟩, hrest⟩
      rw [hfound, ← Except.ok.inj heq]
      exact ⟨rfl, hwindow, hrest⟩

theorem readClient_cons_iff {parts : List Bytes} {found : List QuotaClientInfo}
    (hlength : 3 ≤ parts.length) :
    ClientFields parts found ↔ ∃ first rest, found = first :: rest ∧
      readClient 0 parts = .ok first ∧ ClientFields (parts.drop 3) rest := by
  match parts, hlength with
  | client :: amount :: expires :: parts, _ =>
    simp only [readClient, List.getD_cons_zero, List.getD_cons_succ, bind_ok_iff, parseUint_ok_iff,
      List.drop_succ_cons, List.drop_zero]
    constructor
    · intro h
      match found, h with
      | first :: rest, h =>
        refine ⟨first, rest, rfl, ⟨_, h.2.1, _, h.2.2.1, ?_⟩, h.2.2.2⟩
        rw [← h.1]
        rfl
    · intro ⟨first, rest, hfound, ⟨_, hamount, _, hexpires, heq⟩, hrest⟩
      rw [hfound, ← Except.ok.inj heq]
      exact ⟨rfl, hamount, hexpires, hrest⟩

theorem keyFields_nil (found : List ScanKey) : KeyFields [] found ↔ found = [] := by
  cases found with
  | nil => exact iff_of_true trivial rfl
  | cons first rest => exact iff_of_false not_false (List.cons_ne_nil _ _)

theorem clientFields_nil (found : List QuotaClientInfo) : ClientFields [] found ↔ found = [] := by
  cases found with
  | nil => exact iff_of_true trivial rfl
  | cons first rest => exact iff_of_false not_false (List.cons_ne_nil _ _)

/-- The body of a scan response, by its parts. -/
def scanBody (limit : ℕ) (payload data : Bytes) : Except Exc ScanResult :=
  let parts := data.splitOn fieldDelimiter
  if (parts.length - 1) % 2 ≠ 0 then .error (.corruptedResponse (.scan payload))
  else do
    let keys ← (List.range' 1 ((parts.length - 1) / 2) 2).mapM fun index =>
      readKey limit (parts.drop index)
    return ⟨text (parts.getD 0 []), keys⟩

theorem parseScan_eq (limit : ℕ) (payload : Bytes) :
    parseScan payload limit = okData payload limit >>= scanBody limit payload := by
  unfold parseScan scanBody readKey
  simp only [← getD_drop, Nat.add_zero]
  rfl

theorem documented_parseScan : Documented (parseScan · 0) ScanFields := by
  rw [funext (parseScan_eq 0)]
  apply documented_of_body
  · intro payload data result
    obtain ⟨cursor, rest, hparts⟩ :=
      List.exists_cons_of_ne_nil (List.splitOn_ne_nil fieldDelimiter data)
    unfold scanBody
    rw [hparts]
    dsimp only
    by_cases heven : rest.length % 2 = 0
    · have hlength : (cursor :: rest).length = 1 + 2 * (rest.length / 2) := by
        rw [List.length_cons]
        omega
      rw [if_neg (by simpa using heven), List.length_cons, Nat.add_sub_cancel]
      simp only [bind_ok_iff,
        mapM_strided_ok_iff keyFields_nil (fun _ _ => readKey_cons_iff) hlength]
      constructor
      · intro ⟨keys, hkeys, heq⟩
        rw [← Except.ok.inj heq]
        exact ⟨rfl, hkeys⟩
      · intro ⟨hcursor, hkeys⟩
        refine ⟨_, hkeys, ?_⟩
        rw [List.getD_cons_zero, ← hcursor]
        rfl
    · rw [if_pos (by simpa using heven)]
      constructor
      · intro h
        cases h
      · intro h
        have hlength := length_of_keyFields h.2
        omega
  · intro payload data
    refine .ite (raises_error ⟨_, rfl⟩) ?_
    exact (raises_mapM (fun _ => (corrupted_parseUint _).bind fun _ => raises_ok _) _).bind
      fun _ => raises_ok _

/-- The body of a quota info response, by its parts. -/
def quotaInfoBody (limit : ℕ) (payload data : Bytes) : Except Exc QuotaInfo :=
  let parts := data.splitOn fieldDelimiter
  if parts.length < 3 ∨ (parts.length - 3) % 3 ≠ 0 then
    .error (.corruptedResponse (.quotaInfo payload))
  else do
    let clients ← (List.range' 3 ((parts.length - 3) / 3) 3).mapM fun index =>
      readClient limit (parts.drop index)
    return ⟨← parseUint (parts.getD 0 []) limit, ← parseUint (parts.getD 1 []) limit,
      ← parseUint (parts.getD 2 []) limit, clients⟩

theorem parseQuotaInfo_eq (limit : ℕ) (payload : Bytes) :
    parseQuotaInfo payload limit = okData payload limit >>= quotaInfoBody limit payload := by
  unfold parseQuotaInfo quotaInfoBody readClient
  simp only [← getD_drop, Nat.add_zero]
  rfl

theorem documented_parseQuotaInfo : Documented (parseQuotaInfo · 0) QuotaInfoFields := by
  rw [funext (parseQuotaInfo_eq 0)]
  apply documented_of_body
  · intro payload data result
    unfold quotaInfoBody
    generalize data.splitOn fieldDelimiter = parts
    dsimp only
    match parts with
    | [] | [_] | [_, _] =>
      rw [if_pos (by simp)]
      exact iff_of_false (by simp) not_false
    | limit :: used :: remaining :: rest =>
      have hcount : (limit :: used :: remaining :: rest).length - 3 = rest.length := rfl
      have hthree : ¬ (limit :: used :: remaining :: rest).length < 3 := by
        simp only [List.length_cons]
        omega
      rw [hcount]
      by_cases hthird : rest.length % 3 = 0
      · have hlength : (limit :: used :: remaining :: rest).length = 3 + 3 * (rest.length / 3) := by
          simp only [List.length_cons]
          omega
        rw [if_neg (not_or.mpr ⟨hthree, not_not.mpr hthird⟩)]
        simp only [bind_ok_iff, List.getD_cons_zero, List.getD_cons_succ, parseUint_ok_iff,
          mapM_strided_ok_iff clientFields_nil (fun _ _ => readClient_cons_iff) hlength]
        constructor
        · intro ⟨clients, hclients, _, hlimit, _, hused, _, hremaining, heq⟩
          rw [← Except.ok.inj heq]
          exact ⟨hlimit, hused, hremaining, hclients⟩
        · intro ⟨hlimit, hused, hremaining, hclients⟩
          exact ⟨_, hclients, _, hlimit, _, hused, _, hremaining, rfl⟩
      · rw [if_pos (Or.inr hthird)]
        constructor
        · intro h
          cases h
        · intro h
          have hlength := length_of_clientFields h.2.2.2
          omega
  · intro payload data
    refine .ite (raises_error ⟨_, rfl⟩) ?_
    refine (raises_mapM (fun _ => ?_) _).bind fun _ => ?_
    · exact (corrupted_parseUint _).bind fun _ => (corrupted_parseUint _).bind fun _ => raises_ok _
    · exact (corrupted_parseUint _).bind fun _ => (corrupted_parseUint _).bind fun _ =>
        (corrupted_parseUint _).bind fun _ => raises_ok _

end FqClient
