import FqClient.Chunked
import FqClient.ResponseGrammar

namespace FqClient

/-! ## The frames of a chunked answer -/

/-- The frames fed one after another: the whole response, or `none` while more frames must come. -/
def assemble : ChunkAssembler → List Bytes → Except Exc (Option Bytes)
  | _, [] => .ok none
  | body, frame :: frames =>
    match body.feed frame with
    | .error e => .error e
    | .ok (some response, _) => .ok (some response)
    | .ok (none, body) => assemble body frames

def nxtFrame (part : Bytes) : Bytes := tagNxt ++ respDelimiter :: part

theorem tagNxt_free : respDelimiter ∉ tagNxt := by decide

theorem nxtFrame_injective : Function.Injective nxtFrame := by
  intro part part' h
  exact (List.cons.inj (List.append_cancel_left h)).2

theorem nxtFrame_ne_ok (part data : Bytes) : nxtFrame part ≠ tagOk ++ respDelimiter :: data := by
  intro h
  have hhead := congrArg List.head? h
  change some (ascii 'n') = some (ascii 'o') at hhead
  exact absurd hhead (by decide)

theorem nxtFrame_ne_err (part data : Bytes) : nxtFrame part ≠ tagErr ++ respDelimiter :: data := by
  intro h
  have hhead := congrArg List.head? h
  change some (ascii 'n') = some (ascii 'e') at hhead
  exact absurd hhead (by decide)

section Feed
variable (body : ChunkAssembler)

theorem feedOn_of_tag {frame tag data : Bytes} (h : frame = tag ++ respDelimiter :: data)
    (htag : respDelimiter ∉ tag) : body.feedOn frame =
      if tag = tagNxt then (.ok none, body ++ data)
      else if tag = tagOk then (.ok (some (tagOk ++ respDelimiter :: (body ++ data))), [])
      else if tag = tagErr then (.error (parseError data), [])
      else (.error (.corruptedResponse (.unknownFrameTag tag)), body) := by
  unfold ChunkAssembler.feedOn
  rw [(splitResponse_ok_iff frame tag data).mpr ⟨h, htag⟩]

theorem feed_of_tag {frame tag data : Bytes} (h : frame = tag ++ respDelimiter :: data)
    (htag : respDelimiter ∉ tag) : body.feed frame =
      if tag = tagNxt then .ok (none, body ++ data)
      else if tag = tagOk then .ok (some (tagOk ++ respDelimiter :: (body ++ data)), [])
      else if tag = tagErr then .error (parseError data)
      else .error (.corruptedResponse (.unknownFrameTag tag)) := by
  rw [ChunkAssembler.feed_eq_feedOn, feedOn_of_tag body h htag]
  split_ifs <;> rfl

theorem feed_nxt (part : Bytes) : body.feed (nxtFrame part) = .ok (none, body ++ part) := by
  rw [nxtFrame, feed_of_tag body rfl tagNxt_free, if_pos rfl]

theorem feed_ok (data : Bytes) : body.feed (tagOk ++ respDelimiter :: data) =
    .ok (some (tagOk ++ respDelimiter :: (body ++ data)), []) := by
  rw [feed_of_tag body rfl tagOk_free, if_neg (by decide), if_pos rfl]

theorem feed_err (data : Bytes) :
    body.feed (tagErr ++ respDelimiter :: data) = .error (parseError data) := by
  rw [feed_of_tag body rfl tagErr_free, if_neg (by decide), if_neg (by decide), if_pos rfl]

/-- What a frame is: a part of the body, its end, an error, or none of these. -/
theorem frame_cases (frame : Bytes) : (∃ part, frame = nxtFrame part) ∨
    (∃ data, frame = tagOk ++ respDelimiter :: data) ∨
    (∃ data, frame = tagErr ++ respDelimiter :: data) ∨
    ∃ what, body.feed frame = .error (.corruptedResponse what) := by
  cases hsplit : partitionBytes frame with
  | none =>
    refine Or.inr (Or.inr (Or.inr ⟨.noDelimiter frame, ?_⟩))
    unfold ChunkAssembler.feed splitResponse
    rw [hsplit]
    rfl
  | some parts =>
    obtain ⟨tag, data⟩ := parts
    obtain ⟨hframe, hfree⟩ := (partitionBytes_eq_some frame tag data).mp hsplit
    by_cases hnxt : tag = tagNxt
    · rw [hnxt] at hframe
      exact Or.inl ⟨data, hframe⟩
    by_cases hok : tag = tagOk
    · rw [hok] at hframe
      exact Or.inr (Or.inl ⟨data, hframe⟩)
    by_cases herr : tag = tagErr
    · rw [herr] at hframe
      exact Or.inr (Or.inr (Or.inl ⟨data, hframe⟩))
    · refine Or.inr (Or.inr (Or.inr ⟨.unknownFrameTag tag, ?_⟩))
      rw [feed_of_tag body hframe hfree, if_neg hnxt, if_neg hok, if_neg herr]

end Feed

end FqClient
