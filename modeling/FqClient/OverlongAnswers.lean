import FqClient.ChunkedAnswers
import FqClient.ErrorHierarchy

namespace FqClient

open Effects

/-! ## INSPECT, from the frames of its answer -/

/-- The report, once the answer is whole. -/
def inspectAnswer (loads : Bytes → Except LoadFault Json) (frames : List Bytes) :
    Except Exc (Option InspectReport) := do
  match ← assemble [] frames with
  | none => return none
  | some payload => return some (← parseInspect loads payload)

/-- After parts of a body comes an error with too long a code, or the end of a body that is nested
too deep for `json.loads`. -/
def Overrun (loads : Bytes → Except LoadFault Json) (body : Bytes) (frames : List Bytes) : Prop :=
  ∃ (parts : List Bytes) (last : Bytes) (rest : List Bytes),
    frames = parts.map nxtFrame ++ last :: rest ∧
    (LongCode last ∨ ∃ data, last = tagOk ++ respDelimiter :: data ∧
      loads (body ++ parts.flatten ++ data) = .error .recursionError)

theorem escapes_parseInspect (loads : Bytes → Except LoadFault Json) (data : Bytes) :
    Escapes (parseInspect loads (tagOk ++ respDelimiter :: data)) ↔
      loads data = .error .recursionError := by
  cases h : loads data with
  | error fault =>
    cases fault with
    | valueError =>
      rw [parseInspect_valueError (okData_ok data _) h, escapes_error_iff]
      exact iff_of_false (by simp [Exc.isFQError]) (by simp)
    | recursionError =>
      rw [parseInspect_recursionError (okData_ok data _) h, escapes_error_iff]
      exact iff_of_true rfl rfl
  | ok value =>
    by_cases hdict : ∃ raw, value = .dict raw
    · obtain ⟨raw, rfl⟩ := hdict
      rw [parseInspect_dict (okData_ok data _) h]
      exact iff_of_false (not_escapes_ok _) (by simp)
    · rw [parseInspect_other (okData_ok data _) h (not_exists.mp hdict), escapes_error_iff]
      exact iff_of_false (by simp [Exc.isFQError]) (by simp)

theorem assemble_nxt (body : ChunkAssembler) (part : Bytes) (frames : List Bytes) :
    assemble body (nxtFrame part :: frames) = assemble (body ++ part) frames := by
  rw [assemble, feed_nxt]

theorem overrun_nxt (loads : Bytes → Except LoadFault Json) (body part : Bytes)
    (frames : List Bytes) :
    Overrun loads body (nxtFrame part :: frames) ↔ Overrun loads (body ++ part) frames := by
  constructor
  · intro ⟨parts, last, rest, hframes, hlast⟩
    cases parts with
    | nil =>
      have hnxt : nxtFrame part = last := (List.cons.inj hframes).1
      rcases hlast with ⟨code, message, herr, _⟩ | ⟨data, hok, _⟩
      · rw [← hnxt] at herr
        exact absurd herr (nxtFrame_ne_err part _)
      · rw [← hnxt] at hok
        exact absurd hok (nxtFrame_ne_ok part data)
    | cons part' parts =>
      obtain ⟨hpart, hrest⟩ := List.cons.inj hframes
      refine ⟨parts, last, rest, hrest, ?_⟩
      rw [← nxtFrame_injective hpart, List.flatten_cons, ← List.append_assoc] at hlast
      exact hlast
  · intro ⟨parts, last, rest, hframes, hlast⟩
    refine ⟨part :: parts, last, rest, ?_, ?_⟩
    · rw [hframes]
      rfl
    · rw [List.flatten_cons, ← List.append_assoc]
      exact hlast

/-- An answer that does not begin with a part ends with its first frame. -/
theorem overrun_last {loads : Bytes → Except LoadFault Json} {body frame : Bytes}
    {frames : List Bytes} (h : ∀ part, frame ≠ nxtFrame part) :
    Overrun loads body (frame :: frames) ↔ LongCode frame ∨
      ∃ data, frame = tagOk ++ respDelimiter :: data ∧
        loads (body ++ data) = .error .recursionError := by
  constructor
  · intro ⟨parts, last, rest, hframes, hlast⟩
    cases parts with
    | nil =>
      rw [(List.cons.inj hframes).1]
      simpa using hlast
    | cons part parts => exact absurd (List.cons.inj hframes).1 (h part)
  · intro hlast
    exact ⟨[], frame, frames, rfl, by simpa using hlast⟩

/-- What is done with the whole response, or with the want of it. -/
def reported (loads : Bytes → Except LoadFault Json) :
    Option Bytes → Except Exc (Option InspectReport)
  | none => .ok none
  | some payload => some <$> parseInspect loads payload

theorem escapes_reported_ok (loads : Bytes → Except LoadFault Json) (data : Bytes) :
    Escapes (reported loads (some (tagOk ++ respDelimiter :: data))) ↔
      loads data = .error .recursionError := by
  rw [← escapes_parseInspect]
  change Escapes (some <$> parseInspect loads _) ↔ _
  cases parseInspect loads (tagOk ++ respDelimiter :: data) with
  | error e => exact (escapes_error_iff e).trans (escapes_error_iff e).symm
  | ok report => exact iff_of_false (not_escapes_ok _) (not_escapes_ok _)

theorem escapes_assemble (loads : Bytes → Except LoadFault Json) (body : ChunkAssembler)
    (frames : List Bytes) :
    Escapes (assemble body frames >>= reported loads) ↔ Overrun loads body frames := by
  induction frames generalizing body with
  | nil =>
    refine iff_of_false (not_escapes_ok _) ?_
    intro ⟨parts, last, rest, hframes, _⟩
    exact absurd hframes.symm (List.append_ne_nil_of_right_ne_nil _ (List.cons_ne_nil _ _))
  | cons frame frames ih =>
    -- a part of the body, its end, an error, or a frame that the assembler rejects
    rcases frame_cases body frame with ⟨part, rfl⟩ | ⟨data, rfl⟩ | ⟨data, rfl⟩ | ⟨what, hwhat⟩
    · rw [assemble_nxt, overrun_nxt]
      exact ih (body ++ part)
    · rw [overrun_last fun part h => nxtFrame_ne_ok part data h.symm, assemble, feed_ok]
      refine (escapes_reported_ok loads (body ++ data)).trans ?_
      constructor
      · intro h
        exact Or.inr ⟨data, rfl, h⟩
      · intro h
        rcases h with h | ⟨data', hdata, h⟩
        · exact absurd h (not_longCode_ok data)
        · rw [okData_cancel hdata]
          exact h
    · rw [overrun_last fun part h => nxtFrame_ne_err part data h.symm, assemble, feed_err]
      refine ((escapes_error_iff _).trans (longCode_iff data).symm).trans ?_
      constructor
      · exact Or.inl
      · intro h
        rcases h with h | ⟨data', hdata, _⟩
        · exact h
        · exact absurd hdata.symm tagOk_ne_tagErr
    · have hnxt : ∀ part, frame ≠ nxtFrame part := by
        intro part h
        rw [h, feed_nxt] at hwhat
        cases hwhat
      rw [overrun_last hnxt, assemble, hwhat]
      refine iff_of_false ?_ ?_
      · intro h
        rw [show (Except.error _ >>= reported loads) = Except.error _ from rfl,
          escapes_error_iff] at h
        cases h
      · intro h
        rcases h with ⟨code, message, heq, hlong⟩ | ⟨data, heq, _⟩
        · have hlongCode : LongCode frame := ⟨code, message, heq, hlong⟩
          have herr : frame = tagErr ++ respDelimiter :: (code ++ respDelimiter :: message) := heq
          rw [herr] at hwhat hlongCode
          rw [feed_err] at hwhat
          have hfq := (longCode_iff _).mp hlongCode
          rw [Except.error.inj hwhat] at hfq
          cases hfq
        · rw [heq, feed_ok] at hwhat
          cases hwhat

theorem inspectAnswer_eq (loads : Bytes → Except LoadFault Json) (frames : List Bytes) :
    inspectAnswer loads frames = assemble [] frames >>= reported loads := by
  unfold inspectAnswer
  congr 1

theorem raises_iff_not_escapes {α : Type} (r : Except Exc α) :
    Raises (fun e => e.isFQError = true) r ↔ ¬ Escapes r := by
  constructor
  · intro h ⟨e, he, hfq⟩
    rw [h e he] at hfq
    cases hfq
  · intro h e he
    by_contra hfq
    exact h ⟨e, he, Bool.eq_false_iff.mpr hfq⟩

/-! ## When the hierarchy holds -/

def Conversion.field : Conversion → Bytes
  | number field | positive field | flag field => field

/-- Every answer that a decoder or INSPECT is given becomes a value or an `FQError`, the overlong
ones and the too deeply nested ones apart. -/
theorem answers_stay_in_hierarchy_iff (loads : Bytes → Except LoadFault Json) :
    (∀ decoder payload, Raises (fun e => e.isFQError = true) (Decoder.decode decoder payload) ↔
      ¬ Overlong decoder payload) ∧
    ∀ frames, Raises (fun e => e.isFQError = true) (inspectAnswer loads frames) ↔
      ¬ Overrun loads [] frames := by
  constructor
  · intro decoder payload
    rw [raises_iff_not_escapes, escapes_decode]
  · intro frames
    rw [raises_iff_not_escapes, inspectAnswer_eq, escapes_assemble]

/-- A value of 4301 digits, which a server that negotiated 8192 bytes may send. -/
def longValue : Bytes := okPayload [List.replicate 4301 (ascii '1')]

theorem isDigits_replicate (n : ℕ) :
    Conversion.IsDigits (List.replicate (n + 1) (ascii '1')) := by
  constructor
  · exact List.cons_ne_nil _ _
  · rw [List.all_eq_true]
    intro byte hbyte
    rw [List.eq_of_mem_replicate hbyte]
    decide

theorem long_value_escapes : longValue.length ≤ 8192 ∧
    ¬ Raises (fun e => e.isFQError = true) (Decoder.value.decode longValue) ∧
    ¬ Raises (fun e => e.isFQError = true)
      (inspectAnswer (fun _ => .error .recursionError)
        [okPayload [List.replicate 100000 (ascii '[')]]) := by
  have hdigits := isDigits_replicate 4300
  refine ⟨?_, ?_, ?_⟩
  · rw [longValue, okPayload, List.intercalate_singleton, List.length_append, List.length_cons,
      List.length_replicate]
    decide
  · rw [raises_iff_not_escapes, escapes_decode, not_not]
    refine Or.inr ⟨List.replicate 4301 (ascii '1'), ?_, ?_⟩
    · rw [longValue, okPayload, List.intercalate_singleton]
    · rw [List.splitOn_eq_singleton (fieldDelimiter_not_digit hdigits)]
      refine Or.inl ⟨hdigits, ?_⟩
      rw [List.length_replicate]
      decide
  · rw [raises_iff_not_escapes, inspectAnswer_eq, escapes_assemble, not_not]
    exact ⟨[], okPayload [List.replicate 100000 (ascii '[')], [], rfl, Or.inr ⟨_, rfl, rfl⟩⟩

end FqClient
