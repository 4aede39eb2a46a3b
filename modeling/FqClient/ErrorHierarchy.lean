import FqClient.DocumentedDecoders
import FqClient.Inspect

namespace FqClient

open Effects

/-- The exception that comes out is not an `FQError`. -/
def Escapes {α : Type} (r : Except Exc α) : Prop := ∃ e, r = .error e ∧ e.isFQError = false

theorem not_escapes_ok {α : Type} (a : α) : ¬ Escapes (.ok a : Except Exc α) := by
  intro ⟨e, he, _⟩
  cases he

theorem escapes_error_iff {α : Type} (e : Exc) :
    Escapes (.error e : Except Exc α) ↔ e.isFQError = false := by
  constructor
  · intro ⟨e', he', hfq⟩
    rw [Except.error.inj he']
    exact hfq
  · intro h
    exact ⟨e, rfl, h⟩

theorem escapes_bind_iff {α β : Type} {r : Except Exc α} {k : α → Except Exc β} :
    Escapes (r >>= k) ↔ Escapes r ∨ ∃ a, r = .ok a ∧ Escapes (k a) := by
  cases r with
  | error e =>
    change Escapes (.error e) ↔ _
    rw [escapes_error_iff, escapes_error_iff]
    constructor
    · exact Or.inl
    · intro h
      rcases h with h | ⟨a, ha, _⟩
      · exact h
      · cases ha
  | ok a =>
    change Escapes (k a) ↔ _
    constructor
    · intro h
      exact Or.inr ⟨a, rfl, h⟩
    · intro h
      rcases h with h | ⟨a', ha, h⟩
      · exact absurd h (not_escapes_ok a)
      · cases ha
        exact h

/-! ## The conversions of a response, in order -/

/-- A field that a decoder converts: to a number, to a number that must not be zero, or to a
boolean. -/
inductive Conversion
  | number (field : Bytes)
  | positive (field : Bytes)
  | flag (field : Bytes)

namespace Conversion

def IsDigits (field : Bytes) : Prop := field ≠ [] ∧ field.all byteIsDigit

/-- `int()` refuses the digits of the field for their number alone. -/
def TooLong : Conversion → Prop
  | number field | positive field => IsDigits field ∧ intMaxStrDigits < field.length
  | flag _ => False

def Passes : Conversion → Prop
  | number field => IsDigits field ∧ field.length ≤ intMaxStrDigits
  | positive field => IsDigits field ∧ field.length ≤ intMaxStrDigits ∧ digitsValue field ≠ 0
  | flag field => field = [ascii '1'] ∨ field = [ascii '0']

end Conversion

/-- A field is too long, and those before it pass. -/
def Chokes : List Conversion → Prop
  | [] => False
  | c :: cs => c.TooLong ∨ c.Passes ∧ Chokes cs

theorem chokes_append {cs cs' : List Conversion} :
    Chokes (cs ++ cs') ↔ Chokes cs ∨ (∀ c ∈ cs, c.Passes) ∧ Chokes cs' := by
  induction cs with
  | nil => simp [Chokes]
  | cons c cs ih =>
    rw [List.cons_append, Chokes, Chokes, ih, List.forall_mem_cons]
    tauto

/-- What a computation converts: it escapes when its conversions choke, and returns when all of
them pass. -/
structure Converts {α : Type} (r : Except Exc α) (cs : List Conversion) : Prop where
  escapes : Escapes r ↔ Chokes cs
  returns : (∃ a, r = .ok a) ↔ ∀ c ∈ cs, c.Passes

theorem converts_pure {α : Type} (a : α) : Converts (pure a) [] where
  escapes := iff_of_false (not_escapes_ok a) not_false
  returns := iff_of_true ⟨a, rfl⟩ (List.forall_mem_nil _)

theorem Converts.bind {α β : Type} {r : Except Exc α} {k : α → Except Exc β}
    {cs cs' : List Conversion} (hr : Converts r cs) (hk : ∀ a, Converts (k a) cs') :
    Converts (r >>= k) (cs ++ cs') where
  escapes := by
    rw [escapes_bind_iff, chokes_append, hr.escapes, ← hr.returns]
    constructor
    · intro h
      rcases h with h | ⟨a, ha, h⟩
      · exact Or.inl h
      · exact Or.inr ⟨⟨a, ha⟩, (hk a).escapes.mp h⟩
    · intro h
      rcases h with h | ⟨⟨a, ha⟩, h⟩
      · exact Or.inl h
      · exact Or.inr ⟨a, ha, (hk a).escapes.mpr h⟩
  returns := by
    rw [List.forall_mem_append, ← hr.returns]
    simp only [bind_ok_iff]
    constructor
    · intro ⟨b, a, ha, hb⟩
      exact ⟨⟨a, ha⟩, (hk a).returns.mp ⟨b, hb⟩⟩
    · intro ⟨⟨a, ha⟩, h⟩
      obtain ⟨b, hb⟩ := (hk a).returns.mpr h
      exact ⟨b, a, ha, hb⟩

section Numbers
variable {field : Bytes}

theorem parseUint_not_digits (h : ¬ Conversion.IsDigits field) :
    parseUint field = .error (.corruptedResponse (.notUnsigned field)) := by
  unfold parseUint
  rw [if_pos]
  by_cases hnil : field = []
  · exact Or.inl hnil
  · exact Or.inr fun hall => h ⟨hnil, hall⟩

theorem parseUint_digits (h : Conversion.IsDigits field) : parseUint field =
    if intMaxStrDigits < field.length then .error .valueError else .ok (digitsValue field) := by
  unfold parseUint
  rw [if_neg (not_or.mpr ⟨h.1, not_not.mpr h.2⟩)]
  simp only [show intMaxStrDigits ≠ 0 by decide, ne_eq, not_false_eq_true, true_and]

theorem parseUint_long (h : Conversion.IsDigits field) (hlong : intMaxStrDigits < field.length) :
    parseUint field = .error .valueError := by
  rw [parseUint_digits h, if_pos hlong]

theorem parseUint_short (h : Conversion.IsDigits field) (hshort : field.length ≤ intMaxStrDigits) :
    parseUint field = .ok (digitsValue field) := by
  rw [parseUint_digits h, if_neg (not_lt.mpr hshort)]

/-- The three ways a number field is read. -/
theorem number_cases (field : Bytes) : ¬ Conversion.IsDigits field ∨
    (Conversion.IsDigits field ∧ intMaxStrDigits < field.length) ∨
    (Conversion.IsDigits field ∧ field.length ≤ intMaxStrDigits) := by
  by_cases h : Conversion.IsDigits field
  · rcases lt_or_ge intMaxStrDigits field.length with hlong | hshort
    · exact Or.inr (Or.inl ⟨h, hlong⟩)
    · exact Or.inr (Or.inr ⟨h, hshort⟩)
  · exact Or.inl h

end Numbers

theorem converts_error {α : Type} {e : Exc} {c : Conversion} (hpass : ¬ c.Passes)
    (he : e.isFQError = false ↔ c.TooLong) {cs : List Conversion} :
    Converts (.error e : Except Exc α) (c :: cs) where
  escapes := by
    rw [escapes_error_iff, he, Chokes]
    tauto
  returns := by
    refine iff_of_false ?_ ?_
    · intro ⟨a, ha⟩
      cases ha
    · intro h
      exact hpass (h c List.mem_cons_self)

theorem converts_ok {α : Type} {r : Except Exc α} {a : α} {c : Conversion} (hr : r = .ok a)
    (hpass : c.Passes) (hshort : ¬ c.TooLong) : Converts r [c] := by
  rw [hr]
  constructor
  · refine iff_of_false (not_escapes_ok a) ?_
    intro h
    rcases h with h | h
    · exact hshort h
    · exact h.2
  · exact iff_of_true ⟨a, rfl⟩ (List.forall_mem_singleton.mpr hpass)

theorem converts_parseUint (field : Bytes) : Converts (parseUint field) [.number field] := by
  rcases number_cases field with hnot | ⟨hdigits, hlong⟩ | ⟨hdigits, hshort⟩
  · rw [parseUint_not_digits hnot]
    apply converts_error
    · intro h
      exact hnot h.1
    · refine iff_of_false (by simp [Exc.isFQError]) ?_
      intro h
      exact hnot h.1
  · rw [parseUint_long hdigits hlong]
    apply converts_error
    · intro h
      exact absurd hlong (not_lt.mpr h.2)
    · exact iff_of_true rfl ⟨hdigits, hlong⟩
  · apply converts_ok (parseUint_short hdigits hshort)
    · exact ⟨hdigits, hshort⟩
    · intro h
      exact absurd h.2 (not_lt.mpr hshort)

/-- The size of HELLO: zero is refused once it is converted. -/
theorem converts_positive {α : Type} {field : Bytes} {e : Exc} {k : ℕ → Except Exc α}
    {cs : List Conversion} (he : e.isFQError) (hk : ∀ n, Converts (k n) cs) :
    Converts (parseUint field >>= fun n => if n = 0 then throw e else k n)
      (.positive field :: cs) := by
  rcases number_cases field with hnot | ⟨hdigits, hlong⟩ | ⟨hdigits, hshort⟩
  · rw [parseUint_not_digits hnot]
    apply converts_error
    · intro h
      exact hnot h.1
    · refine iff_of_false (by simp [Exc.isFQError]) ?_
      intro h
      exact hnot h.1
  · rw [parseUint_long hdigits hlong]
    apply converts_error
    · intro h
      exact absurd hlong (not_lt.mpr h.2.1)
    · exact iff_of_true rfl ⟨hdigits, hlong⟩
  · have hfits : ¬ (Conversion.positive field).TooLong := fun h =>
      absurd h.2 (not_lt.mpr hshort)
    rw [parseUint_short hdigits hshort]
    change Converts (if digitsValue field = 0 then throw e else k (digitsValue field)) _
    by_cases hzero : digitsValue field = 0
    · rw [if_pos hzero]
      apply converts_error
      · intro h
        exact h.2.2 hzero
      · refine iff_of_false ?_ hfits
        rw [he]
        exact Bool.true_eq_false.mp
    · rw [if_neg hzero]
      have hpass : (Conversion.positive field).Passes := ⟨hdigits, hshort, hzero⟩
      exact (converts_ok (r := Except.ok ()) rfl hpass hfits).bind fun _ => hk _

theorem converts_parseBoolField (field : Bytes) :
    Converts (parseBoolField field) [.flag field] := by
  unfold parseBoolField
  split
  · rename_i h
    exact converts_ok rfl (Or.inl h) not_false
  · rename_i hone
    split
    · rename_i h
      exact converts_ok rfl (Or.inr h) not_false
    · rename_i hzero
      apply converts_error
      · intro h
        rcases h with h | h
        · exact hone h
        · exact hzero h
      · exact iff_of_false (by simp [Exc.isFQError]) not_false

theorem converts_mapM {α γ : Type} {f : γ → Except Exc α} {conv : γ → List Conversion}
    (h : ∀ x, Converts (f x) (conv x)) (l : List γ) : Converts (l.mapM f) (l.flatMap conv) := by
  induction l with
  | nil => exact converts_pure []
  | cons x l ih =>
    rw [List.mapM_cons, List.flatMap_cons]
    apply (h x).bind
    intro a
    rw [← List.append_nil (l.flatMap conv)]
    exact ih.bind fun as => converts_pure (a :: as)

/-- Records at a stride convert what each of them converts, one after another. -/
theorem converts_strided {α : Type} {stride : ℕ} (read : List Bytes → Except Exc α)
    (head all : List Bytes → List Conversion) (hnil : all [] = [])
    (hcons : ∀ parts, stride ≤ parts.length → all parts = head parts ++ all (parts.drop stride))
    (hread : ∀ parts, stride ≤ parts.length → Converts (read parts) (head parts)) {count : ℕ}
    {parts : List Bytes} {start : ℕ} (hlength : parts.length = start + stride * count) :
    Converts ((List.range' start count stride).mapM fun index => read (parts.drop index))
      (all (parts.drop start)) := by
  induction count generalizing start with
  | zero =>
    rw [List.drop_eq_nil_of_le (by omega), hnil]
    exact converts_pure []
  | succ count ih =>
    have hrest : parts.length = start + stride + stride * count := by
      rw [hlength, Nat.mul_succ]
      omega
    have hhead : stride ≤ (parts.drop start).length := by
      rw [List.length_drop]
      omega
    rw [hcons _ hhead, List.drop_drop, List.range'_succ, List.mapM_cons]
    apply (hread _ hhead).bind
    intro a
    rw [← List.append_nil (all (parts.drop (start + stride)))]
    exact (ih hrest).bind fun as => converts_pure (a :: as)

/-! ## The decoders -/

/-- The parsers that the client applies to a frame. -/
inductive Decoder
  | value | bool | values | bools | hello | rateLimit | quotaAcquire | quotaInfo | scan
  | limitEvent | quotaEvent

namespace Decoder

abbrev Value : Decoder → Type
  | value => ℕ
  | bool => Bool
  | values => List ℕ
  | bools => List Bool
  | hello => HelloInfo
  | rateLimit => RateLimitResult
  | quotaAcquire => QuotaAcquireResult
  | quotaInfo => QuotaInfo
  | scan => ScanResult
  | limitEvent => LimitEvent
  | quotaEvent => QuotaEvent

def decode : (decoder : Decoder) → Bytes → Except Exc decoder.Value
  | value, payload => parseValue payload
  | bool, payload => parseBool payload
  | values, payload => parseValues payload
  | bools, payload => parseBools payload
  | hello, payload => parseHello payload
  | rateLimit, payload => parseRateLimit payload
  | quotaAcquire, payload => parseQuotaAcquire payload
  | quotaInfo, payload => parseQuotaInfo payload
  | scan, payload => parseScan payload
  | limitEvent, payload => parseLimitEvent payload
  | quotaEvent, payload => parseQuotaEvent payload

end Decoder

/-- The numbers of the client triples. -/
def clientNumbers : List Bytes → List Conversion
  | _ :: amount :: expires :: parts => .number amount :: .number expires :: clientNumbers parts
  | _ => []

/-- The windows of the key pairs. -/
def keyWindows : List Bytes → List Conversion
  | _ :: window :: parts => .number window :: keyWindows parts
  | _ => []

/-- What each decoder converts of the body of an `ok|` response, in the order it does. -/
def Decoder.conversions : Decoder → List Bytes → List Conversion
  | .value, [field] => [.number field]
  | .values, parts | .bools, parts => parts.map .number
  | .hello, [version, size, auth, _] => [.positive size, .number version, .flag auth]
  | .rateLimit, [allowed, current, remaining, reset] =>
    [.flag allowed, .number current, .number remaining, .number reset]
  | .quotaAcquire, [acquired, allocated, used, remaining, expires] =>
    [.flag acquired, .number allocated, .number used, .number remaining, .number expires]
  | .quotaInfo, limit :: used :: remaining :: parts =>
    if parts.length % 3 = 0 then
      clientNumbers parts ++ [.number limit, .number used, .number remaining]
    else []
  | .scan, _ :: parts => if parts.length % 2 = 0 then keyWindows parts else []
  | .limitEvent, [_, window, current, reset] =>
    [.number window, .number current, .number reset]
  | .quotaEvent, [_, _, _, amount, used, remaining, expires] =>
    [.number amount, .number used, .number remaining, .number expires]
  | _, _ => []

/-- An error code of too many digits. -/
def LongCode (payload : Bytes) : Prop :=
  ∃ code message, payload = errPayload code message ∧ (Conversion.number code).TooLong

/-- The response has a number of too many digits where the decoder comes to convert it. -/
def Overlong (decoder : Decoder) (payload : Bytes) : Prop :=
  LongCode payload ∨ ∃ data, payload = tagOk ++ respDelimiter :: data ∧
    Chokes (decoder.conversions (data.splitOn fieldDelimiter))

theorem respDelimiter_not_digit {field : Bytes} (h : Conversion.IsDigits field) :
    respDelimiter ∉ field := by
  intro hmem
  exact absurd (List.all_eq_true.mp h.2 _ hmem) (by decide)

theorem fieldDelimiter_not_digit {field : Bytes} (h : Conversion.IsDigits field) :
    fieldDelimiter ∉ field := by
  intro hmem
  exact absurd (List.all_eq_true.mp h.2 _ hmem) (by decide)

theorem escapes_parseError_iff (body : Bytes) :
    (parseError body).isFQError = false ↔
      ∃ code message, body = code ++ respDelimiter :: message ∧
        (Conversion.number code).TooLong := by
  constructor
  · intro h
    unfold parseError at h
    split at h
    · cases h
    · rename_i code message hsplit
      refine ⟨code, message, ((partitionBytes_eq_some _ _ _).mp hsplit).1, ?_⟩
      rcases number_cases code with hnot | hlong | ⟨hdigits, hshort⟩
      · rw [parseUint_not_digits hnot] at h
        cases h
      · exact hlong
      · rw [parseUint_short hdigits hshort] at h
        dsimp only at h
        split at h <;> cases h
  · intro ⟨code, message, hbody, hdigits, hlong⟩
    have hsplit := (partitionBytes_eq_some body code message).mpr
      ⟨hbody, respDelimiter_not_digit hdigits⟩
    unfold parseError
    rw [hsplit]
    dsimp only
    rw [parseUint_long hdigits hlong]
    rfl

theorem tagOk_ne_tagErr {data body : Bytes} :
    tagOk ++ respDelimiter :: data ≠ tagErr ++ respDelimiter :: body := by
  intro h
  have hhead := congrArg List.head? h
  change some (ascii 'o') = some (ascii 'e') at hhead
  exact absurd hhead (by decide)

theorem longCode_iff (body : Bytes) : LongCode (tagErr ++ respDelimiter :: body) ↔
    (parseError body).isFQError = false := by
  rw [escapes_parseError_iff]
  constructor
  · intro ⟨code, message, heq, hlong⟩
    exact ⟨code, message, (List.cons.inj (List.append_cancel_left heq)).2, hlong⟩
  · intro ⟨code, message, heq, hlong⟩
    exact ⟨code, message, by rw [heq]; rfl, hlong⟩

theorem not_longCode_ok (data : Bytes) : ¬ LongCode (tagOk ++ respDelimiter :: data) := by
  intro ⟨code, message, heq, _⟩
  exact tagOk_ne_tagErr heq

theorem okData_cancel {data data' : Bytes}
    (h : tagOk ++ respDelimiter :: data = tagOk ++ respDelimiter :: data') : data = data' :=
  (List.cons.inj (List.append_cancel_left h)).2

/-- A decoder of the body escapes where its conversions choke. -/
theorem escapes_of_body {α : Type} {body : Bytes → Bytes → Except Exc α} {decoder : Decoder}
    (hbody : ∀ payload data, Escapes (body payload data) ↔
      Chokes (decoder.conversions (data.splitOn fieldDelimiter))) (payload : Bytes) :
    Escapes (okData payload >>= body payload) ↔ Overlong decoder payload := by
  rcases okData_cases payload intMaxStrDigits with ⟨data, hdata⟩ | ⟨data, hdata⟩ | ⟨what, hwhat⟩
  · have hbind : (okData payload >>= body payload) = body payload data := by
      conv => lhs; lhs; rw [hdata, okData_ok]
      rfl
    rw [hbind, hbody]
    unfold Overlong
    rw [hdata]
    constructor
    · intro h
      exact Or.inr ⟨data, rfl, h⟩
    · intro h
      rcases h with h | ⟨data', heq, h⟩
      · exact absurd h (not_longCode_ok data)
      · rw [okData_cancel heq]
        exact h
  · have hbind : (okData payload >>= body payload) = .error (parseError data) := by
      conv => lhs; lhs; rw [hdata, okData_err]
      rfl
    rw [hbind, escapes_error_iff, ← longCode_iff, ← hdata]
    unfold Overlong
    constructor
    · exact Or.inl
    · intro h
      rcases h with h | ⟨data', heq, _⟩
      · exact h
      · rw [hdata] at heq
        exact absurd heq.symm tagOk_ne_tagErr
  · have hbind : (okData payload >>= body payload) = .error (.corruptedResponse what) := by
      rw [hwhat]
      rfl
    rw [hbind, escapes_error_iff]
    refine iff_of_false (by simp [Exc.isFQError]) ?_
    intro h
    rcases h with ⟨code, message, heq, hlong⟩ | ⟨data, heq, _⟩
    · have hlongCode : LongCode payload := ⟨code, message, heq, hlong⟩
      rw [heq] at hwhat hlongCode
      change okData (tagErr ++ respDelimiter :: _) = _ at hwhat
      rw [okData_err] at hwhat
      have hfq := (longCode_iff _).mp hlongCode
      rw [Except.error.inj hwhat] at hfq
      cases hfq
    · rw [heq, okData_ok] at hwhat
      cases hwhat

/-- A body with a fixed number of fields. -/
theorem escapes_fields {α : Type} {expected : ℕ} {run : List Bytes → Except Exc α}
    {conv : List Bytes → List Conversion} (hother : ∀ parts, parts.length ≠ expected → conv parts = [])
    (hrun : ∀ parts, parts.length = expected → Converts (run parts) (conv parts)) (data : Bytes) :
    Escapes (fields data expected >>= run) ↔ Chokes (conv (data.splitOn fieldDelimiter)) := by
  unfold fields
  by_cases hparts : (data.splitOn fieldDelimiter).length = expected
  · rw [if_neg (not_not.mpr hparts)]
    exact (hrun _ hparts).escapes
  · rw [if_pos hparts, hother _ hparts]
    change Escapes (.error _) ↔ _
    rw [escapes_error_iff]
    exact iff_of_false (by simp [Exc.isFQError]) not_false

theorem escapes_parseRateLimit (payload : Bytes) :
    Escapes (parseRateLimit payload) ↔ Overlong .rateLimit payload := by
  apply escapes_of_body
  intro _ data
  apply escapes_fields
  · intro parts h
    unfold Decoder.conversions
    split <;> simp_all
  · intro parts h
    obtain ⟨allowed, current, remaining, reset, rfl⟩ := exists_four h
    exact (converts_parseBoolField allowed).bind fun _ => (converts_parseUint current).bind fun _ =>
      (converts_parseUint remaining).bind fun _ => (converts_parseUint reset).bind fun _ =>
      converts_pure _

theorem escapes_parseHello (payload : Bytes) :
    Escapes (parseHello payload) ↔ Overlong .hello payload := by
  apply escapes_of_body
  intro _ data
  apply escapes_fields
  · intro parts h
    unfold Decoder.conversions
    split <;> simp_all
  · intro parts h
    obtain ⟨version, size, auth, role, rfl⟩ := exists_four h
    apply converts_positive rfl
    intro n
    exact (converts_parseUint version).bind fun _ => (converts_parseBoolField auth).bind fun _ =>
      converts_pure _

theorem escapes_parseQuotaAcquire (payload : Bytes) :
    Escapes (parseQuotaAcquire payload) ↔ Overlong .quotaAcquire payload := by
  apply escapes_of_body
  intro _ data
  apply escapes_fields
  · intro parts h
    unfold Decoder.conversions
    split <;> simp_all
  · intro parts h
    obtain ⟨acquired, allocated, used, remaining, expires, rfl⟩ := exists_five h
    exact (converts_parseBoolField acquired).bind fun _ => (converts_parseUint allocated).bind
      fun _ => (converts_parseUint used).bind fun _ => (converts_parseUint remaining).bind fun _ =>
      (converts_parseUint expires).bind fun _ => converts_pure _

theorem escapes_parseLimitEvent (payload : Bytes) :
    Escapes (parseLimitEvent payload) ↔ Overlong .limitEvent payload := by
  apply escapes_of_body
  intro _ data
  apply escapes_fields
  · intro parts h
    unfold Decoder.conversions
    split <;> simp_all
  · intro parts h
    obtain ⟨key, window, current, reset, rfl⟩ := exists_four h
    exact (converts_parseUint window).bind fun _ => (converts_parseUint current).bind fun _ =>
      (converts_parseUint reset).bind fun _ => converts_pure _

theorem escapes_parseQuotaEvent (payload : Bytes) :
    Escapes (parseQuotaEvent payload) ↔ Overlong .quotaEvent payload := by
  apply escapes_of_body
  intro _ data
  apply escapes_fields
  · intro parts h
    unfold Decoder.conversions
    split <;> simp_all
  · intro parts h
    obtain ⟨event, name, client, amount, used, remaining, expires, rfl⟩ := exists_seven h
    exact (converts_parseUint amount).bind fun _ => (converts_parseUint used).bind fun _ =>
      (converts_parseUint remaining).bind fun _ => (converts_parseUint expires).bind fun _ =>
      converts_pure _

theorem escapes_parseBool (payload : Bytes) :
    Escapes (parseBool payload) ↔ Overlong .bool payload := by
  apply escapes_of_body
  intro _ data
  rw [(converts_parseBoolField data).escapes]
  simp [Chokes, Conversion.TooLong, Decoder.conversions]

theorem escapes_parseValue (payload : Bytes) :
    Escapes (parseValue payload) ↔ Overlong .value payload := by
  apply escapes_of_body
  intro _ data
  rw [(converts_parseUint data).escapes]
  have hdata : [fieldDelimiter].intercalate (data.splitOn fieldDelimiter) = data :=
    List.intercalate_splitOn _
  match hsplit : data.splitOn fieldDelimiter with
  | [] => exact absurd hsplit (List.splitOn_ne_nil _ _)
  | [field] =>
    rw [hsplit, List.intercalate_singleton] at hdata
    rw [hdata]
    rfl
  | field :: field' :: parts =>
    refine iff_of_false ?_ not_false
    intro h
    rcases h with h | ⟨_, h⟩
    · rw [List.splitOn_eq_singleton (fieldDelimiter_not_digit h.1)] at hsplit
      cases hsplit
    · exact h

theorem converts_values (parts : List Bytes) :
    Converts (parts.mapM fun field => parseUint field) (parts.map .number) := by
  rw [List.map_eq_flatMap]
  exact converts_mapM converts_parseUint parts

theorem escapes_parseValues (payload : Bytes) :
    Escapes (parseValues payload) ↔ Overlong .values payload := by
  apply escapes_of_body
  intro _ data
  exact (converts_values _).escapes

theorem escapes_parseBools (payload : Bytes) :
    Escapes (parseBools payload) ↔ Overlong .bools payload := by
  have hvalues := escapes_parseValues payload
  unfold parseBools
  rw [escapes_bind_iff, hvalues]
  constructor
  · intro h
    rcases h with h | ⟨values, _, h⟩
    · exact h
    · exact absurd h (not_escapes_ok _)
  · exact Or.inl

theorem escapes_scanBody (payload data : Bytes) :
    Escapes (scanBody intMaxStrDigits payload data) ↔
      Chokes (Decoder.scan.conversions (data.splitOn fieldDelimiter)) := by
  obtain ⟨cursor, rest, hparts⟩ :=
    List.exists_cons_of_ne_nil (List.splitOn_ne_nil fieldDelimiter data)
  unfold scanBody
  rw [hparts]
  dsimp only [Decoder.conversions]
  rw [List.length_cons, Nat.add_sub_cancel]
  by_cases heven : rest.length % 2 = 0
  · rw [if_neg (not_not.mpr heven), if_pos heven]
    have hlength : (cursor :: rest).length = 1 + 2 * (rest.length / 2) := by
      rw [List.length_cons]
      omega
    have hkeys := converts_strided (readKey intMaxStrDigits)
      (fun parts => [.number (parts.getD 1 [])]) keyWindows rfl
      (fun parts h => match parts, h with | _ :: _ :: _, _ => rfl)
      (fun parts _ => (converts_parseUint _).bind fun _ => converts_pure _) hlength
    rw [(hkeys.bind fun keys => converts_pure _).escapes, List.append_nil]
    rfl
  · rw [if_pos heven, if_neg heven, escapes_error_iff]
    exact iff_of_false (by simp [Exc.isFQError]) not_false

theorem escapes_parseScan (payload : Bytes) :
    Escapes (parseScan payload) ↔ Overlong .scan payload := by
  rw [parseScan_eq]
  apply escapes_of_body
  exact escapes_scanBody

theorem escapes_quotaInfoBody (payload data : Bytes) :
    Escapes (quotaInfoBody intMaxStrDigits payload data) ↔
      Chokes (Decoder.quotaInfo.conversions (data.splitOn fieldDelimiter)) := by
  unfold quotaInfoBody
  generalize data.splitOn fieldDelimiter = parts
  dsimp only
  match parts with
  | [] | [_] | [_, _] =>
    rw [if_pos (by simp), escapes_error_iff]
    exact iff_of_false (by simp [Exc.isFQError]) not_false
  | limit :: used :: remaining :: rest =>
    have hcount : (limit :: used :: remaining :: rest).length - 3 = rest.length := rfl
    have hthree : ¬ (limit :: used :: remaining :: rest).length < 3 := by
      simp only [List.length_cons]
      omega
    rw [hcount]
    dsimp only [Decoder.conversions]
    by_cases hthird : rest.length % 3 = 0
    · rw [if_neg (not_or.mpr ⟨hthree, not_not.mpr hthird⟩), if_pos hthird]
      have hlength : (limit :: used :: remaining :: rest).length = 3 + 3 * (rest.length / 3) := by
        simp only [List.length_cons]
        omega
      have hclients := converts_strided (readClient intMaxStrDigits)
        (fun parts => [.number (parts.getD 1 []), .number (parts.getD 2 [])]) clientNumbers rfl
        (fun parts h => match parts, h with | _ :: _ :: _ :: _, _ => rfl)
        (fun parts _ => (converts_parseUint _).bind fun _ => (converts_parseUint _).bind fun _ =>
          converts_pure _) hlength
      exact (hclients.bind fun clients => (converts_parseUint limit).bind fun _ =>
        (converts_parseUint used).bind fun _ => (converts_parseUint remaining).bind fun _ =>
        converts_pure _).escapes
    · rw [if_pos (Or.inr hthird), if_neg hthird, escapes_error_iff]
      exact iff_of_false (by simp [Exc.isFQError]) not_false

theorem escapes_parseQuotaInfo (payload : Bytes) :
    Escapes (parseQuotaInfo payload) ↔ Overlong .quotaInfo payload := by
  rw [parseQuotaInfo_eq]
  apply escapes_of_body
  exact escapes_quotaInfoBody

theorem escapes_decode (decoder : Decoder) (payload : Bytes) :
    Escapes (decoder.decode payload) ↔ Overlong decoder payload := by
  cases decoder with
  | value => exact escapes_parseValue payload
  | bool => exact escapes_parseBool payload
  | values => exact escapes_parseValues payload
  | bools => exact escapes_parseBools payload
  | hello => exact escapes_parseHello payload
  | rateLimit => exact escapes_parseRateLimit payload
  | quotaAcquire => exact escapes_parseQuotaAcquire payload
  | quotaInfo => exact escapes_parseQuotaInfo payload
  | scan => exact escapes_parseScan payload
  | limitEvent => exact escapes_parseLimitEvent payload
  | quotaEvent => exact escapes_parseQuotaEvent payload

end FqClient
