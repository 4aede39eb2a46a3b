import FqClient.Responses

namespace FqClient

/-- The body accumulated so far, `ChunkAssembler._body`. -/
abbrev ChunkAssembler := Bytes

namespace ChunkAssembler

/-- Feeds one frame: the whole response once the last frame arrives, and the body kept for the
next frame. -/
def feed (body : ChunkAssembler) (frame : Bytes) : Except Exc (Option Bytes × ChunkAssembler) := do
  let (tag, data) ← splitResponse frame
  if tag = tagNxt then return (none, body ++ data)
  else if tag = tagOk then return (some (tagOk ++ respDelimiter :: (body ++ data)), [])
  else if tag = tagErr then throw (parseError data)
  else throw (.corruptedResponse (.unknownFrameTag tag))

/-- `feed` on an assembler that stays in use: what it returns or raises, and the body it keeps. -/
def feedOn (body : ChunkAssembler) (frame : Bytes) : Except Exc (Option Bytes) × ChunkAssembler :=
  match splitResponse frame with
  | .error e => (.error e, body)
  | .ok (tag, data) =>
    if tag = tagNxt then (.ok none, body ++ data)
    else if tag = tagOk then (.ok (some (tagOk ++ respDelimiter :: (body ++ data))), [])
    else if tag = tagErr then (.error (parseError data), [])
    else (.error (.corruptedResponse (.unknownFrameTag tag)), body)

/-- Both say the same until the assembler raises. -/
theorem feed_eq_feedOn (body : ChunkAssembler) (frame : Bytes) :
    body.feed frame = match body.feedOn frame with
      | (.ok response, body') => .ok (response, body')
      | (.error e, _) => .error e := by
  unfold feed feedOn
  cases splitResponse frame with
  | error e => rfl
  | ok parts =>
    obtain ⟨tag, data⟩ := parts
    change (if tag = tagNxt then _ else _) = _
    dsimp only
    split
    · rfl
    · split
      · rfl
      · split <;> rfl

end ChunkAssembler

end FqClient
