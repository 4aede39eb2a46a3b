import FqClient.ErrorHierarchy

namespace FqClient

open Effects

/-- `mdelete` of `Client` and of `AsyncClient`. -/
def Transport.mdelete (t : Transport) (config : ClientConfig) (rounds : ℕ) (keys : List CappingKey)
    (timeout : Timeout) : ClientM (List Bool) := do
  let command ← Method.ofExcept (Commands.mdelete keys)
  t.execute config rounds command parseBools timeout

namespace DeletedKeys

/-! ## Answers for so many keys -/

/-- `ok|` and one `0` or `1` for each key. -/
def Answers (count : ℕ) (payload : Bytes) (flags : List Bool) : Prop :=
  ∃ parts, payload = okPayload parts ∧ List.Forall₂ IsFlag parts flags ∧ flags.length = count

/-- What `mdelete` may make of a payload: the flags of its fields, or a corrupted response. -/
structure Matched (count : ℕ) (payload : Bytes) (r : Except Exc (List Bool)) : Prop where
  flags : ∀ flags, r = .ok flags → Answers count payload flags
  rejected : (∀ flags, ¬ Answers count payload flags) → ∃ what, r = .error (.corruptedResponse what)

/-- A field is no number, and those before it are numbers that `int` converts. -/
def NoNumber : List Bytes → Prop
  | [] => False
  | field :: parts => ¬ Conversion.IsDigits field ∨
      (Conversion.number field).Passes ∧ NoNumber parts

/-- The payload is no `ok|` response, or a field of it is no number, or it answers for the keys. -/
def Strict (count : ℕ) (payload : Bytes) : Prop :=
  ∀ data, payload = tagOk ++ respDelimiter :: data →
    NoNumber (data.splitOn fieldDelimiter) ∨ ∃ flags, Answers count payload flags

/-! ## The fields of an answer -/

theorem digits_of_flag {field : Bytes} {flag : Bool} (h : IsFlag field flag) :
    (Conversion.number field).Passes ∧ (digitsValue field == 1) = flag := by
  rw [show field = _ from h]
  cases flag <;> exact ⟨⟨⟨List.cons_ne_nil _ _, by decide⟩, by decide⟩, by decide⟩

theorem parseUint_passes {field : Bytes} (h : (Conversion.number field).Passes) :
    parseUint field = .ok (digitsValue field) := parseUint_short h.1 h.2

/-- The fields before one that is no number are converted, and it is rejected. -/
theorem noNumber_iff (parts : List Bytes) : NoNumber parts ↔
    ∃ what, (parts.mapM fun field => parseUint field) = .error (.corruptedResponse what) := by
  induction parts with
  | nil =>
    constructor
    · exact False.elim
    · intro ⟨what, h⟩
      cases h
  | cons field parts ih =>
    rw [List.mapM_cons]
    rcases number_cases field with hnot | ⟨hdigits, hlong⟩ | ⟨hdigits, hshort⟩
    · rw [parseUint_not_digits hnot]
      exact iff_of_true (Or.inl hnot) ⟨_, rfl⟩
    · rw [parseUint_long hdigits hlong]
      refine iff_of_false ?_ ?_
      · intro h
        rcases h with h | ⟨hpasses, _⟩
        · exact h hdigits
        · exact absurd hpasses.2 (not_le.mpr hlong)
      · intro ⟨what, h⟩
        cases h
    · rw [parseUint_short hdigits hshort]
      have hcons : NoNumber (field :: parts) ↔ NoNumber parts := by
        constructor
        · intro h
          exact h.elim (fun h => absurd hdigits h) And.right
        · intro h
          exact Or.inr ⟨⟨hdigits, hshort⟩, h⟩
      rw [hcons, ih]
      cases parts.mapM fun field => parseUint field with
      | error e => exact Iff.rfl
      | ok values =>
        refine iff_of_false ?_ ?_
        · intro ⟨what, h⟩
          cases h
        · intro ⟨what, h⟩
          cases h

theorem parseBools_ok (data : Bytes) : parseBools (tagOk ++ respDelimiter :: data) =
    ((data.splitOn fieldDelimiter).mapM fun field => parseUint field).map
      (List.map fun value => value == 1) := by
  unfold parseBools parseValues
  rw [okData_ok]
  change ((data.splitOn fieldDelimiter).mapM fun field => parseUint field) >>= _ = _
  generalize ((data.splitOn fieldDelimiter).mapM fun field => parseUint field) = r
  cases r <;> rfl

/-- Flags are converted to themselves. -/
theorem mapM_flags {parts : List Bytes} {flags : List Bool} (h : List.Forall₂ IsFlag parts flags) :
    (parts.mapM fun field => parseUint field).map (List.map fun value => value == 1) =
      .ok flags := by
  induction h with
  | nil => rfl
  | @cons field flag parts flags hflag _ ih =>
    obtain ⟨hpasses, hvalue⟩ := digits_of_flag hflag
    rw [List.mapM_cons, parseUint_passes hpasses]
    cases hparts : parts.mapM fun field => parseUint field with
    | error e =>
      rw [hparts] at ih
      cases ih
    | ok values =>
      rw [hparts] at ih
      change Except.ok ((digitsValue field == 1) :: values.map fun value => value == 1) = _
      rw [hvalue, Except.ok.inj ih]

theorem free_of_flags {parts : List Bytes} {flags : List Bool}
    (h : List.Forall₂ IsFlag parts flags) : ∀ field ∈ parts, fieldDelimiter ∉ field := by
  induction h with
  | nil => exact List.forall_mem_nil _
  | cons hflag _ ih => exact List.forall_mem_cons.mpr ⟨not_fieldDelimiter_of_flag hflag, ih⟩

/-- An answer has the fields that its payload splits into; no field at all is an empty one. -/
theorem splitOn_of_answers {count : ℕ} {data : Bytes} {flags : List Bool}
    (h : Answers count (tagOk ++ respDelimiter :: data) flags) :
    data.splitOn fieldDelimiter = [[]] ∨
      List.Forall₂ IsFlag (data.splitOn fieldDelimiter) flags := by
  obtain ⟨parts, hpayload, hflags, _⟩ := h
  have hdata : data = [fieldDelimiter].intercalate parts :=
    List.cons.inj (List.append_cancel_left hpayload) |>.2
  rw [hdata]
  cases parts with
  | nil => exact Or.inl rfl
  | cons field parts =>
    refine Or.inr ?_
    rw [Delimited.splitOn_intercalate_eq (List.cons_ne_nil _ _),
      Delimited.pieces_of_free (free_of_flags hflags)]
    exact hflags

/-- The result for an answer is its flags, unless it has no field. -/
theorem parseBools_of_answers {count : ℕ} {data : Bytes} {flags : List Bool}
    (h : Answers count (tagOk ++ respDelimiter :: data) flags) :
    NoNumber (data.splitOn fieldDelimiter) ∨
      parseBools (tagOk ++ respDelimiter :: data) = .ok flags := by
  rcases splitOn_of_answers h with hsplit | hflags
  · rw [hsplit]
    exact Or.inl (Or.inl fun hdigits => hdigits.1 rfl)
  · exact Or.inr ((parseBools_ok data).trans (mapM_flags hflags))

theorem parseBools_of_noNumber {data : Bytes} (h : NoNumber (data.splitOn fieldDelimiter)) :
    ∃ what, parseBools (tagOk ++ respDelimiter :: data) = .error (.corruptedResponse what) := by
  obtain ⟨what, hmapM⟩ := (noNumber_iff _).mp h
  refine ⟨what, ?_⟩
  rw [parseBools_ok, hmapM]
  rfl

theorem noNumber_of_parseBools {data : Bytes} {what : Corruption}
    (h : parseBools (tagOk ++ respDelimiter :: data) = .error (.corruptedResponse what)) :
    NoNumber (data.splitOn fieldDelimiter) := by
  rw [parseBools_ok] at h
  refine (noNumber_iff _).mpr ⟨what, ?_⟩
  cases hmapM : (data.splitOn fieldDelimiter).mapM fun field => parseUint field with
  | ok values =>
    rw [hmapM] at h
    cases h
  | error e =>
    rw [hmapM] at h
    exact congrArg _ (Except.error.inj h)

theorem matched_iff {count : ℕ} {payload : Bytes}
    (htag : ∀ body, payload ≠ tagErr ++ respDelimiter :: body) :
    Matched count payload (parseBools payload) ↔ Strict count payload := by
  rcases okData_cases payload intMaxStrDigits with ⟨data, rfl⟩ | ⟨body, hbody⟩ | ⟨what, hwhat⟩
  · have hdata : ∀ data', tagOk ++ respDelimiter :: data = tagOk ++ respDelimiter :: data' →
        data = data' := fun _ h => (List.cons.inj (List.append_cancel_left h)).2
    constructor
    · intro h data' heq
      obtain rfl := hdata data' heq
      by_cases hanswers : ∃ flags, Answers count (tagOk ++ respDelimiter :: data) flags
      · exact Or.inr hanswers
      · obtain ⟨what, hwhat⟩ := h.rejected (not_exists.mp hanswers)
        exact Or.inl (noNumber_of_parseBools hwhat)
    · intro h
      have hcorrupted : NoNumber (data.splitOn fieldDelimiter) →
          Matched count (tagOk ++ respDelimiter :: data)
            (parseBools (tagOk ++ respDelimiter :: data)) := by
        intro hno
        obtain ⟨what, hwhat⟩ := parseBools_of_noNumber hno
        rw [hwhat]
        exact ⟨fun _ h => (by cases h), fun _ => ⟨what, rfl⟩⟩
      rcases h data rfl with hno | ⟨flags, hanswers⟩
      · exact hcorrupted hno
      · rcases parseBools_of_answers hanswers with hno | hok
        · exact hcorrupted hno
        · rw [hok]
          refine ⟨fun flags' h => ?_, fun h => absurd hanswers (h flags)⟩
          rw [← Except.ok.inj h]
          exact hanswers
  · exact absurd hbody (htag body)
  · have hother : ∀ data, payload ≠ tagOk ++ respDelimiter :: data := by
      intro data heq
      rw [heq, okData_ok] at hwhat
      cases hwhat
    have hresult : parseBools payload = .error (.corruptedResponse what) := by
      unfold parseBools parseValues
      rw [hwhat]
      rfl
    rw [hresult]
    exact iff_of_true ⟨fun _ h => (by cases h), fun _ => ⟨what, rfl⟩⟩
      fun data heq => absurd heq (hother data)

/-! ## The call -/

/-- `mdelete` for the keys makes of this payload what it may, over whatever transport the payload
came. -/
def MatchedOrRejected (keys : List CappingKey) (payload : Bytes) : Prop :=
  ∀ (t : Transport) (config : ClientConfig) (rounds : ℕ) (timeout : Timeout) (command : Command)
    (σ : Type) (h : σ → (op : NetOp) → op.Answer × σ) (s s' : σ),
    Commands.mdelete keys = .ok command →
    (t.request config rounds command timeout ()).run h s = (some (.ok payload, ()), s') →
    ∃ r, (t.mdelete config rounds keys timeout ()).run h s = (some (r, ()), s') ∧
      Matched keys.length payload r

/-- The result is what the decoder makes of the payload. -/
theorem run_mdelete {t : Transport} {config : ClientConfig} {rounds : ℕ} {keys : List CappingKey}
    {timeout : Timeout} {command : Command} {payload : Bytes} {σ : Type}
    {h : σ → (op : NetOp) → op.Answer × σ} {s s' : σ} (hcommand : Commands.mdelete keys = .ok command)
    (hrequest : (t.request config rounds command timeout ()).run h s = (some (.ok payload, ()), s')) :
    (t.mdelete config rounds keys timeout ()).run h s = (some (parseBools payload, ()), s') := by
  unfold Transport.mdelete
  rw [hcommand]
  change (t.execute config rounds command parseBools timeout ()).run h s = _
  unfold Transport.execute
  rw [run_method_bind, hrequest]
  rfl

/-- A transport on which the payload arrives. -/
def delivering (payload : Bytes) : Transport where
  dial _ _ := return 0
  writeRequest _ _ := return ()
  readFrame _ := return payload
  sleep _ := return ()
  take _ := return some (Connection.new ⟨[], none, false, none, 5⟩)

theorem MatchedOrRejected.matched {keys : List CappingKey} {payload : Bytes}
    (h : MatchedOrRejected keys payload) {command : Command}
    (hcommand : Commands.mdelete keys = .ok command) :
    Matched keys.length payload (parseBools payload) := by
  have hrun : ((delivering payload).request ⟨⟨[], none, false, none, 5⟩, none, {}⟩ 1 command
      .default ()).run (fun (_ : Unit) (op : NetOp) => (op.calm, ())) () =
        (some (.ok payload, ()), ()) := rfl
  obtain ⟨r, hr, hmatched⟩ := h _ _ _ _ _ _ _ _ _ hcommand hrun
  rw [run_mdelete hcommand hrun] at hr
  obtain rfl : parseBools payload = r := congrArg Prod.fst (Option.some.inj (congrArg Prod.fst hr))
  exact hmatched

/-- MDEL answers are matched to the keys or rejected if and only if the keys cannot be sent, or the
payload answers for them, or is no `ok|` response, or has a field that is no number before any that
`int` does not convert. -/
theorem mdelete_matched_iff (keys : List CappingKey) (payload : Bytes)
    (htag : ∀ body, payload ≠ tagErr ++ respDelimiter :: body) :
    MatchedOrRejected keys payload ↔
      ((∃ command, Commands.mdelete keys = .ok command) → Strict keys.length payload) := by
  constructor
  · intro h ⟨command, hcommand⟩
    exact (matched_iff htag).mp (h.matched hcommand)
  · intro h t config rounds timeout command σ handler s s' hcommand hrequest
    exact ⟨_, run_mdelete hcommand hrequest, (matched_iff htag).mpr (h ⟨command, hcommand⟩)⟩

def twoKeys : List CappingKey := [⟨"a".toList, 60⟩, ⟨"b".toList, 60⟩]

theorem no_error_tag {data : Bytes} : ∀ body, tagOk ++ respDelimiter :: data ≠
    tagErr ++ respDelimiter :: body := by
  intro body h
  cases h

theorem two_flags_matched : MatchedOrRejected twoKeys (okPayload [[ascii '1'], [ascii '0']]) := by
  refine (mdelete_matched_iff twoKeys _ no_error_tag).mpr fun _ data _ => Or.inr ⟨[true, false], ?_⟩
  exact ⟨_, rfl, .cons rfl (.cons rfl .nil), rfl⟩

/-- Three fields for two keys, of which two are no flags. -/
def looseAnswer : Bytes := okPayload [[ascii '2'], [ascii '0', ascii '1'], [ascii '1']]

theorem parseBools_looseAnswer : parseBools looseAnswer = .ok [false, true, true] := by decide

/-- `mdelete` takes them for answers. -/
theorem loose_answer_not_matched : ¬ MatchedOrRejected twoKeys looseAnswer := by
  intro h
  obtain ⟨_, _, _, hcount⟩ := (h.matched rfl).flags _ parseBools_looseAnswer
  cases hcount

end DeletedKeys

end FqClient
