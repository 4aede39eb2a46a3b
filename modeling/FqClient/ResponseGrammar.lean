import FqClient.Delimited
import FqClient.Packages
import FqClient.TextRoundTrip
import Mathlib.Data.List.Induction
import Mathlib.Data.List.TakeWhile
import Mathlib.Data.Nat.Digits.Defs
import Mathlib.Tactic.IntervalCases

namespace FqClient

open Effects

/-! ## The documented grammar -/

/-- The decimal number of a non-empty run of ASCII digits. -/
def IsNumber (field : Bytes) (n : ℕ) : Prop :=
  field ≠ [] ∧ (∀ byte ∈ field, ascii '0' ≤ byte ∧ byte ≤ ascii '9') ∧
    n = Nat.ofDigits 10 (field.reverse.map fun byte => byte.toNat - 48)

/-- A boolean field is a single `0` or `1`. -/
def IsFlag (field : Bytes) (flag : Bool) : Prop := field = [ascii (if flag then '1' else '0')]

/-- `ok|` and the fields with `;` between them. -/
def okPayload (parts : List Bytes) : Bytes :=
  tagOk ++ respDelimiter :: [fieldDelimiter].intercalate parts

/-- `err|`, a code, `|` and a message. -/
def errPayload (code message : Bytes) : Bytes :=
  tagErr ++ respDelimiter :: (code ++ respDelimiter :: message)

/-- The fields that a payload can be cut into: at least one, and none with `;` in it. -/
def Separated (parts : List Bytes) : Prop := parts ≠ [] ∧ ∀ field ∈ parts, fieldDelimiter ∉ field

/-- The exception class of a code of at most four digits. -/
def HasClass (code : ℕ) : ProtocolErrorClass → Prop
  | .authenticationFailedError => code = 3002
  | .requestError => 1000 ≤ code ∧ code < 2000
  | .argumentError => 2000 ≤ code ∧ code < 3000
  | .authError => 3000 ≤ code ∧ code < 4000 ∧ code ≠ 3002
  | .quotaError => 4000 ≤ code ∧ code < 5000
  | .instanceStateError => 5000 ≤ code ∧ code < 6000
  | .internalError => 9000 ≤ code ∧ code < 10000
  | .protocolError => code < 1000 ∨ 6000 ≤ code ∧ code < 9000

/-- The decoder returns the records that `Fits` gives to the fields of an `ok|` payload, raises the
error of an `err|` payload, and rejects every other payload as corrupted. -/
structure Documented {α : Type} (decode : Bytes → Except Exc α) (Fits : List Bytes → α → Prop) :
    Prop where
  value : ∀ payload result, decode payload = .ok result ↔
    ∃ parts, payload = okPayload parts ∧ Separated parts ∧ Fits parts result
  error : ∀ payload e, decode payload = .error (.protocol e) ↔
    ∃ code message, payload = errPayload code message ∧ IsNumber code e.code ∧ e.code ≤ 9999 ∧
      e.message = text message ∧ HasClass e.code e.cls
  other : ∀ payload, (∃ result, decode payload = .ok result) ∨
    (∃ e, decode payload = .error (.protocol e)) ∨
    ∃ what, decode payload = .error (.corruptedResponse what)

theorem separated_splitOn (data : Bytes) : Separated (data.splitOn fieldDelimiter) :=
  ⟨List.splitOn_ne_nil _ _, fun _ h => Delimited.not_mem_of_mem_splitOn h⟩

/-! ## Numbers and flags -/

theorem digitsValue_eq (field : Bytes) :
    digitsValue field = Nat.ofDigits 10 (field.reverse.map fun byte => byte.toNat - 48) := by
  unfold digitsValue
  induction field using List.reverseRecOn with
  | nil => rfl
  | append_singleton field byte ih =>
    rw [List.foldl_append, List.reverse_append, List.reverse_singleton, List.singleton_append,
      List.map_cons, Nat.ofDigits_cons, ← ih]
    exact Nat.add_comm _ _

theorem parseUint_ok_iff (field : Bytes) (n : ℕ) :
    parseUint field 0 = .ok n ↔ IsNumber field n := by
  unfold parseUint
  split
  · rename_i h
    constructor
    · intro h'
      cases h'
    · intro hn
      rcases h with hnil | hall
      · exact absurd hnil hn.1
      · refine absurd (List.all_eq_true.mpr fun byte hbyte => ?_) hall
        exact decide_eq_true (hn.2.1 byte hbyte)
  · rename_i h
    obtain ⟨hne, hall⟩ := not_or.mp h
    rw [not_not, List.all_eq_true] at hall
    rw [if_neg fun hlimit => hlimit.1 rfl, digitsValue_eq]
    constructor
    · intro h'
      exact ⟨hne, fun byte hbyte => of_decide_eq_true (hall byte hbyte), (Except.ok.inj h').symm⟩
    · intro hn
      rw [hn.2.2]

theorem parseBoolField_ok_iff (field : Bytes) (flag : Bool) :
    parseBoolField field = .ok flag ↔ IsFlag field flag := by
  unfold parseBoolField IsFlag
  cases flag with
  | true =>
    split
    · rename_i h
      simp [h]
    · rename_i h
      split <;> simp [h]
  | false =>
    split
    · rename_i h
      simp [h, ascii]
    · rename_i h
      split
      · rename_i h'
        simp [h']
      · rename_i h'
        simp [h']

/-- Only a corrupted response. -/
def Exc.Corrupted (e : Exc) : Prop := ∃ what, e = .corruptedResponse what

theorem corrupted_parseUint (field : Bytes) : Raises Exc.Corrupted (parseUint field 0) := by
  refine .ite (raises_error ⟨_, rfl⟩) ?_
  rw [if_neg fun hlimit => hlimit.1 rfl]
  exact raises_ok _

theorem corrupted_parseBoolField (field : Bytes) : Raises Exc.Corrupted (parseBoolField field) :=
  .ite (raises_ok _) (.ite (raises_ok _) (raises_error ⟨_, rfl⟩))

theorem corrupted_fields (data : Bytes) (expected : ℕ) : Raises Exc.Corrupted (fields data expected) :=
  .ite (raises_error ⟨_, rfl⟩) (raises_ok _)

/-! ## The tag and the body -/

theorem partitionBytes_eq_some (data head rest : Bytes) :
    partitionBytes data = some (head, rest) ↔
      data = head ++ respDelimiter :: rest ∧ respDelimiter ∉ head := by
  unfold partitionBytes
  constructor
  · intro h
    cases hdrop : data.dropWhile (· ≠ respDelimiter) with
    | nil =>
      rw [hdrop] at h
      cases h
    | cons byte rest' =>
      rw [hdrop] at h
      obtain ⟨hhead, hrest⟩ := Prod.mk.inj (Option.some.inj h)
      have hbyte : byte = respDelimiter := by
        have hnot := List.head_dropWhile_not (· ≠ respDelimiter) (l := data) (by rw [hdrop]; simp)
        simp only [hdrop, List.head_cons] at hnot
        simpa using hnot
      have hsplit := List.takeWhile_append_dropWhile (p := (· ≠ respDelimiter)) (l := data)
      rw [hdrop, hbyte, hhead, hrest] at hsplit
      refine ⟨hsplit.symm, fun hmem => ?_⟩
      rw [← hhead] at hmem
      have hne := List.mem_takeWhile_imp hmem
      simp at hne
  · intro ⟨hdata, hfree⟩
    have hall : ∀ byte ∈ head, decide (byte ≠ respDelimiter) = true := by
      intro byte hbyte
      apply decide_eq_true
      intro heq
      rw [heq] at hbyte
      exact hfree hbyte
    rw [hdata, List.dropWhile_append_of_pos hall, List.takeWhile_append_of_pos hall]
    simp

theorem tagOk_free : respDelimiter ∉ tagOk := by decide

theorem tagErr_free : respDelimiter ∉ tagErr := by decide

theorem not_respDelimiter_of_number {field : Bytes} {n : ℕ} (h : IsNumber field n) :
    respDelimiter ∉ field := by
  intro hmem
  exact absurd (h.2.1 _ hmem) (by decide)

theorem not_fieldDelimiter_of_number {field : Bytes} {n : ℕ} (h : IsNumber field n) :
    fieldDelimiter ∉ field := by
  intro hmem
  exact absurd (h.2.1 _ hmem) (by decide)

theorem not_fieldDelimiter_of_flag {field : Bytes} {flag : Bool} (h : IsFlag field flag) :
    fieldDelimiter ∉ field := by
  rw [h, List.mem_singleton]
  cases flag <;> decide

theorem splitResponse_ok_iff (payload tag data : Bytes) : splitResponse payload = .ok (tag, data) ↔
    payload = tag ++ respDelimiter :: data ∧ respDelimiter ∉ tag := by
  rw [← partitionBytes_eq_some]
  unfold splitResponse
  cases partitionBytes payload with
  | none => simp
  | some parts => simp

theorem hasClass_protocolError (code : ℕ) (message : Str) (hcode : code ≤ 9999) :
    HasClass code (protocolError code message).cls := by
  unfold protocolError ErrorCode.authenticationFailed
  by_cases hauth : code = 3002
  · rw [if_pos hauth]
    exact hauth
  · rw [if_neg hauth]
    change HasClass code (errorRange (code / 1000))
    have hrange : code / 1000 < 10 := by omega
    interval_cases hthousands : code / 1000
    all_goals
      simp only [errorRange, HasClass]
      omega

theorem hasClass_unique {code : ℕ} {cls cls' : ProtocolErrorClass} (h : HasClass code cls)
    (h' : HasClass code cls') : cls = cls' := by
  cases cls <;> cases cls' <;> simp only [HasClass] at h h' <;> first | rfl | omega

theorem code_protocolError (code : ℕ) (message : Str) : (protocolError code message).code = code := by
  unfold protocolError
  split <;> rfl

theorem message_protocolError (code : ℕ) (message : Str) :
    (protocolError code message).message = message := by
  unfold protocolError
  split <;> rfl

/-- The body of an `err|` response: a code of at most four digits and a message. -/
theorem parseError_eq_protocol_iff (data : Bytes) (e : ProtocolError) :
    parseError data 0 = .protocol e ↔ ∃ code message, data = code ++ respDelimiter :: message ∧
      IsNumber code e.code ∧ e.code ≤ 9999 ∧ e.message = text message ∧ HasClass e.code e.cls := by
  constructor
  · intro h
    unfold parseError at h
    split at h
    · cases h
    · rename_i code message hsplit
      split at h
      · rename_i e' he'
        obtain ⟨what, hwhat⟩ := corrupted_parseUint code e' he'
        rw [hwhat] at h
        cases h
      · rename_i n hn
        split at h
        · cases h
        · rename_i hle
          have he : protocolError n (text message) = e := Exc.protocol.inj h
          have hcode : e.code = n := by rw [← he, code_protocolError]
          refine ⟨code, message, ((partitionBytes_eq_some _ _ _).mp hsplit).1, ?_, ?_, ?_, ?_⟩
          · rw [hcode]
            exact (parseUint_ok_iff code n).mp hn
          · omega
          · rw [← he, message_protocolError]
          · rw [hcode, ← he]
            exact hasClass_protocolError n _ (not_lt.mp hle)
  · intro ⟨code, message, hdata, hnumber, hle, hmessage, hclass⟩
    have hsplit := (partitionBytes_eq_some data code message).mpr
      ⟨hdata, not_respDelimiter_of_number hnumber⟩
    unfold parseError
    rw [hsplit]
    dsimp only
    rw [(parseUint_ok_iff code e.code).mpr hnumber]
    dsimp only
    rw [if_neg (not_lt.mpr hle)]
    have hcls : (protocolError e.code (text message)).cls = e.cls :=
      hasClass_unique (hasClass_protocolError _ _ hle) hclass
    rw [← hmessage] at hcls ⊢
    have hcode := code_protocolError e.code e.message
    have hmsg := message_protocolError e.code e.message
    generalize protocolError e.code e.message = e' at hcls hcode hmsg ⊢
    cases e
    cases e'
    simp_all

theorem parseError_cases (data : Bytes) :
    (∃ e, parseError data 0 = .protocol e) ∨ (parseError data 0).Corrupted := by
  unfold parseError
  split
  · exact Or.inr ⟨_, rfl⟩
  · split
    · rename_i e he
      exact Or.inr (corrupted_parseUint _ e he)
    · split
      · exact Or.inr ⟨_, rfl⟩
      · exact Or.inl ⟨_, rfl⟩

theorem okData_of_tag {payload tag data : Bytes} {limit : ℕ}
    (h : splitResponse payload = .ok (tag, data)) :
    okData payload limit = if tag = tagOk then .ok data
      else if tag = tagErr then .error (parseError data limit)
      else .error (.corruptedResponse (.unknownResponseTag tag)) := by
  unfold okData
  rw [h]
  rfl

theorem okData_ok (data : Bytes) (limit : ℕ) :
    okData (tagOk ++ respDelimiter :: data) limit = .ok data := by
  rw [okData_of_tag ((splitResponse_ok_iff _ _ _).mpr ⟨rfl, tagOk_free⟩), if_pos rfl]

theorem okData_err (body : Bytes) (limit : ℕ) :
    okData (tagErr ++ respDelimiter :: body) limit = .error (parseError body limit) := by
  rw [okData_of_tag ((splitResponse_ok_iff _ _ _).mpr ⟨rfl, tagErr_free⟩), if_neg (by decide),
    if_pos rfl]

/-- What a response is: a body, an error, or neither. -/
theorem okData_cases (payload : Bytes) (limit : ℕ) :
    (∃ data, payload = tagOk ++ respDelimiter :: data) ∨
    (∃ body, payload = tagErr ++ respDelimiter :: body) ∨
    ∃ what, okData payload limit = .error (.corruptedResponse what) := by
  cases hsplit : splitResponse payload with
  | error e =>
    refine Or.inr (Or.inr ?_)
    unfold splitResponse at hsplit
    split at hsplit
    · cases hsplit
    · refine ⟨.noDelimiter payload, ?_⟩
      unfold okData splitResponse
      rename_i hnone
      rw [hnone]
      rfl
  | ok parts =>
    obtain ⟨tag, data⟩ := parts
    have hpayload := ((splitResponse_ok_iff payload tag data).mp hsplit).1
    by_cases hok : tag = tagOk
    · exact Or.inl ⟨data, by rw [hpayload, hok]⟩
    · by_cases herr : tag = tagErr
      · exact Or.inr (Or.inl ⟨data, by rw [hpayload, herr]⟩)
      · refine Or.inr (Or.inr ⟨.unknownResponseTag tag, ?_⟩)
        rw [okData_of_tag hsplit, if_neg hok, if_neg herr]

/-- A decoder of the body's fields makes a decoder of the response. -/
theorem documented_of_body {α : Type} {body : Bytes → Bytes → Except Exc α}
    {Fits : List Bytes → α → Prop}
    (hvalue : ∀ payload data result, body payload data = .ok result ↔
      Fits (data.splitOn fieldDelimiter) result)
    (hother : ∀ payload data, Raises Exc.Corrupted (body payload data)) :
    Documented (fun payload => okData payload 0 >>= body payload) Fits := by
  have hok : ∀ payload data, payload = tagOk ++ respDelimiter :: data →
      (okData payload 0 >>= body payload) = body payload data := by
    intro payload data hpayload
    conv => lhs; lhs; rw [hpayload, okData_ok]
    rfl
  have herr : ∀ payload data, payload = tagErr ++ respDelimiter :: data →
      (okData payload 0 >>= body payload) = .error (parseError data 0) := by
    intro payload data hpayload
    conv => lhs; lhs; rw [hpayload, okData_err]
    rfl
  have hcorrupted : ∀ {payload what}, okData payload 0 = .error (.corruptedResponse what) →
      (okData payload 0 >>= body payload) = .error (.corruptedResponse what) := by
    intro payload what h
    rw [h]
    rfl
  -- what is a value, what a protocol error, and that there is nothing else
  constructor
  · intro payload result
    constructor
    · intro h
      rcases okData_cases payload 0 with ⟨data, hdata⟩ | ⟨data, hdata⟩ | ⟨what, hwhat⟩
      · rw [hok _ _ hdata] at h
        refine ⟨data.splitOn fieldDelimiter, ?_, separated_splitOn data,
          (hvalue payload data result).mp h⟩
        rw [hdata, okPayload, List.intercalate_splitOn]
      · rw [herr _ _ hdata] at h
        cases h
      · rw [hcorrupted hwhat] at h
        cases h
    · intro ⟨parts, hpayload, hparts, hfits⟩
      rw [hok _ _ hpayload, hvalue, List.splitOn_intercalate _ hparts.2 hparts.1]
      exact hfits
  · intro payload e
    constructor
    · intro h
      rcases okData_cases payload 0 with ⟨data, hdata⟩ | ⟨data, hdata⟩ | ⟨what, hwhat⟩
      · rw [hok _ _ hdata] at h
        obtain ⟨what, hwhat⟩ := hother payload data _ h
        cases hwhat
      · rw [herr _ _ hdata] at h
        obtain ⟨code, message, hbody, hrest⟩ :=
          (parseError_eq_protocol_iff data e).mp (Except.error.inj h)
        exact ⟨code, message, by rw [hdata, hbody]; rfl, hrest⟩
      · rw [hcorrupted hwhat] at h
        cases h
    · intro ⟨code, message, hpayload, hrest⟩
      rw [herr _ _ hpayload]
      exact congrArg Except.error ((parseError_eq_protocol_iff _ e).mpr ⟨code, message, rfl, hrest⟩)
  · intro payload
    rcases okData_cases payload 0 with ⟨data, hdata⟩ | ⟨data, hdata⟩ | ⟨what, hwhat⟩
    · rw [hok _ _ hdata]
      cases hbody : body payload data with
      | ok result => exact Or.inl ⟨result, rfl⟩
      | error e =>
        obtain ⟨what, hwhat⟩ := hother payload data e hbody
        exact Or.inr (Or.inr ⟨what, by rw [hwhat]⟩)
    · rw [herr _ _ hdata]
      rcases parseError_cases data with ⟨e, he⟩ | ⟨what, hwhat⟩
      · exact Or.inr (Or.inl ⟨e, by rw [he]⟩)
      · exact Or.inr (Or.inr ⟨what, by rw [hwhat]⟩)
    · exact Or.inr (Or.inr ⟨what, hcorrupted hwhat⟩)

end FqClient
