import TcpAdapter.Model.Protocol.Frame

/-! # Frame sizes -/

namespace TcpAdapter.Protocol

theorem encodeFrame_length {f : Frame} {bytes : List UInt8} (h : encodeFrame f = .ok bytes) :
    bytes.length = f.data.length + 8 := by
  simp only [encodeFrame] at h
  split at h
  · cases h
  · split at h
    · cases h
    · cases h
      simp [startMarker, putUint16]

/-- The length of a frame does not depend on its TTL or its sequence number. -/
theorem data_length (f : Frame) :
    f.data.length = f.payload.length + (if f.mode = .compact then 1 else 2) := by
  cases hm : f.mode <;> simp [Frame.data, hm]

end TcpAdapter.Protocol
