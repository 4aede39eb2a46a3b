import FqClient.Errors

namespace FqClient

def frameHeaderSize : ℕ := 4

/-- The four bytes of a length, the most significant first. -/
def beBytes (n : ℕ) : Bytes :=
  [UInt8.ofNat (n / 2 ^ 24), UInt8.ofNat (n / 2 ^ 16), UInt8.ofNat (n / 2 ^ 8), UInt8.ofNat n]

/-- `int.from_bytes(data, "big")`. -/
def ofBeBytes (data : Bytes) : ℕ := data.foldl (fun n byte => 256 * n + byte.toNat) 0

/-- Wraps a payload in a frame; `to_bytes` raises when the length does not fit the header. -/
def encodeFrame (payload : Bytes) : Except Exc Bytes :=
  if payload.length < 2 ^ 32 then .ok (beBytes payload.length ++ payload)
    else .error (.overflowError .frameLength)

def decodeFrameSize (header : Bytes) (maxMessageSize : ℕ) : Except Exc ℕ :=
  if header.length ≠ frameHeaderSize then
    .error (.corruptedResponse (.frameHeader header.length))
  else
    let size := ofBeBytes header
    if maxMessageSize < size then .error (.corruptedResponse (.frameTooLong size maxMessageSize))
    else .ok size

/-- The local error for an oversized request carries its own text. -/
def requestTooLarge (size maxMessageSize : ℕ) : Exc :=
  .protocol ⟨.requestError, ErrorCode.messageSizeExceedsMaximum,
    ("request of " ++ toString size ++ " bytes exceeds max message size " ++
      toString maxMessageSize).toList⟩

def checkRequestSize (payload : Bytes) (maxMessageSize : ℕ) : Except Exc Unit :=
  if maxMessageSize < payload.length then .error (requestTooLarge payload.length maxMessageSize)
  else .ok ()

@[simp] theorem length_beBytes (n : ℕ) : (beBytes n).length = frameHeaderSize := rfl

theorem ofBeBytes_beBytes {n : ℕ} (h : n < 2 ^ 32) : ofBeBytes (beBytes n) = n := by
  simp only [ofBeBytes, beBytes, List.foldl_cons, List.foldl_nil, UInt8.toNat_ofNat']
  omega

theorem decodeFrameSize_beBytes {n limit : ℕ} (h : n < 2 ^ 32) (hlimit : n ≤ limit) :
    decodeFrameSize (beBytes n) limit = .ok n := by
  unfold decodeFrameSize
  rw [if_neg (by simp), ofBeBytes_beBytes h]
  exact if_neg (not_lt.mpr hlimit)

theorem decodeFrameSize_ok {header : Bytes} {limit size : ℕ}
    (h : decodeFrameSize header limit = .ok size) :
    header.length = frameHeaderSize ∧ size ≤ limit := by
  unfold decodeFrameSize at h
  split at h
  · cases h
  · rename_i hlen
    dsimp only at h
    split at h
    · cases h
    · rename_i hle
      cases h
      exact ⟨not_not.mp hlen, not_lt.mp hle⟩

theorem decodeFrameSize_error {header : Bytes} {limit : ℕ} {e : Exc}
    (h : decodeFrameSize header limit = .error e) : ∃ what, e = .corruptedResponse what := by
  unfold decodeFrameSize at h
  split at h
  · exact ⟨_, (Except.error.inj h).symm⟩
  · dsimp only at h
    split at h
    · exact ⟨_, (Except.error.inj h).symm⟩
    · cases h

theorem encodeFrame_ok {payload : Bytes} (h : payload.length < 2 ^ 32) :
    encodeFrame payload = .ok (beBytes payload.length ++ payload) := if_pos h

theorem lt_of_encodeFrame {payload frame : Bytes} (h : encodeFrame payload = .ok frame) :
    payload.length < 2 ^ 32 := by
  unfold encodeFrame at h
  split at h
  next hlt => exact hlt
  · cases h

/-- What is read by a header is the payload of the frame it begins. -/
theorem payload_of_frame {header payload more frame rest : Bytes} {limit : ℕ}
    (hlength : frame.length < 2 ^ 32) (hsize : decodeFrameSize header limit = .ok payload.length)
    (h : header ++ (payload ++ more) = beBytes frame.length ++ (frame ++ rest)) :
    payload = frame ∧ more = rest := by
  have hheader := (decodeFrameSize_ok hsize).1
  obtain ⟨hhead, htail⟩ := List.append_inj h (hheader.trans (length_beBytes _).symm)
  have hpayload : payload.length = frame.length := by
    unfold decodeFrameSize at hsize
    rw [if_neg (not_not.mpr hheader), hhead, ofBeBytes_beBytes hlength] at hsize
    dsimp only at hsize
    split at hsize
    · cases hsize
    · exact (Except.ok.inj hsize).symm
  exact List.append_inj htail hpayload

theorem encodeFrame_injective {p q frame : Bytes} (hp : encodeFrame p = .ok frame)
    (hq : encodeFrame q = .ok frame) : p = q := by
  unfold encodeFrame at hp hq
  split at hp
  · split at hq
    · have h := Except.ok.inj (hp.trans hq.symm)
      exact (List.append_inj h (by simp)).2
    · cases hq
  · cases hp

end FqClient
