import TcpAdapter.Model.CommandPolicy
import TcpAdapter.Verification.Protocol.Records

/-! # Numbers that do not fit their fields

The block count of a firmware file and the length of a frame are 16-bit fields. The validator
compares the block count with a count that stops at 65535, and it lets a custom argument be as
long as its own size field can say, which leaves no room for the header of the frame. -/

namespace TcpAdapter.Protocol

open TcpAdapter.Codec TcpAdapter.Policy

variable {payload : List UInt8}

/-! ## Blocks of a firmware file -/

/-- The blocks of 1024 bytes that the payload of command 19 announces cover the file, and none of
them is left over. -/
def CoversFile (payload : List UInt8) : Prop :=
  ((uint16At payload 14 : Int) - 1) * 1024 < uint32At payload 6 ∧
    (uint32At payload 6 : Int) ≤ uint16At payload 14 * 1024

/-- Only a count that has not stopped at 65535 covers the file. A size whose rounding up wraps
has a count of zero, which is refused. -/
theorem coversFile_iff (h : validateCmd19 payload = .ok ()) :
    CoversFile payload ↔ uint32At payload 6 ≤ 65535 * 1024 := by
  simp only [validateCmd19, needLength, need_bind_eq_ok, need_eq_ok] at h
  obtain ⟨-, -, hsize, -, hblocks, hcount⟩ := h
  have hlt := uint32At_lt payload 6
  simp only [fwBlockCountForSize, if_neg hsize] at hcount
  rw [CoversFile]
  split at hcount <;> omega

theorem startFW_layout (number timestamp size crc blocks : ℕ) :
    writeAt (writeAt (writeAt (writeAt (writeAt (makeBytes 16) 0 (putUint16 number)) 2
      (putUint32 timestamp)) 6 (putUint32 size)) 10 (putUint32 crc)) 14 (putUint16 blocks) =
      [putUint16 number, putUint32 timestamp, putUint32 size, putUint32 crc,
        putUint16 blocks].flatten := by
  have l₁ : Laid 0 16 _ [putUint16 number] 2 := (Laid.start 0 16).write (k := 2) rfl (by decide)
  have l₂ : Laid 0 16 _ [_, putUint32 timestamp] 6 := l₁.write (k := 4) rfl (by decide)
  have l₃ : Laid 0 16 _ [_, _, putUint32 size] 10 := l₂.write (k := 4) rfl (by decide)
  have l₄ : Laid 0 16 _ [_, _, _, putUint32 crc] 14 := l₃.write (k := 4) rfl (by decide)
  have l₅ : Laid 0 16 _ [_, _, _, _, putUint16 blocks] 16 := l₄.write (k := 2) rfl (by decide)
  exact l₅.done rfl

/-- Where the builder puts the file size. -/
theorem Cmd19StartFWPayload.fileSize_of_build {p : Cmd19StartFWPayload}
    (h : p.build = .ok payload) : uint32At payload 6 = p.fileSize.toNat := by
  obtain ⟨-, h⟩ := need_bind_eq_ok.mp h
  obtain ⟨-, h⟩ := need_bind_eq_ok.mp h
  obtain ⟨-, h⟩ := need_bind_eq_ok.mp h
  obtain ⟨-, hout⟩ := validated_eq_ok.mp h
  have hpayload := hout.symm.trans (startFW_layout _ _ _ _ _)
  have hlen : payload.length = 16 := by rw [hpayload]; rfl
  refine uint32At_of_slice p.fileSize.toNat_lt (by omega) ?_
  rw [hpayload]
  rfl

/-- A block count that the validator accepts covers the file exactly if the file has no more
blocks than the field can count. -/
theorem blocks_cover_iff (payload : List UInt8) :
    (validateServerCommandPayload 19 payload = .ok () →
      (CoversFile payload ↔ uint32At payload 6 ≤ 65535 * 1024)) ∧
    ∀ p : Cmd19StartFWPayload, p.build = .ok payload →
      (CoversFile payload ↔ p.fileSize.toNat ≤ 65535 * 1024) := by
  refine ⟨coversFile_iff, fun p h => ?_⟩
  have hvalid : Buildable 19 payload := ⟨.startFW p, rfl, h⟩
  rw [coversFile_iff hvalid.valid, Cmd19StartFWPayload.fileSize_of_build h]

/-- The payload of command 19 for a file of this size. -/
def fileOfSize (size blocks : ℕ) : List UInt8 :=
  putUint16 1 ++ putUint32 0 ++ putUint32 size ++ putUint32 1 ++ putUint16 blocks

theorem two_blocks_cover :
    validateServerCommandPayload 19 (fileOfSize 1025 2) = .ok () ∧ CoversFile (fileOfSize 1025 2) :=
  ⟨by decide, ((blocks_cover_iff _).1 (by decide)).mpr (by decide)⟩

/-- The file has one byte more than 65535 blocks. -/
theorem large_file_not_covered :
    validateServerCommandPayload 19 (fileOfSize (65535 * 1024 + 1) 65535) = .ok () ∧
      ¬ CoversFile (fileOfSize (65535 * 1024 + 1) 65535) := by
  refine ⟨by decide, ?_⟩
  rintro ⟨-, h⟩
  revert h
  decide

/-! ## Lengths of frames -/

/-- A frame with this command and this payload can be encoded, in either layout. -/
def Encodes (commandID : UInt8) (payload : List UInt8) : Prop :=
  ∀ mode ∈ [FrameMode.sequenced, FrameMode.compact], ∀ ttl seq,
    ∃ bytes, encodeFrame ⟨ttl, seq, commandID :: payload, mode⟩ = .ok bytes

/-- Beside the payload the data of a frame holds the TTL, the sequence number and the id. -/
theorem encodes_iff (commandID : UInt8) :
    Encodes commandID payload ↔ payload.length + 3 ≤ 65535 := by
  constructor
  · intro h
    obtain ⟨bytes, hbytes⟩ := h .sequenced (by simp) 0 0
    exact (encodeFrame_eq_ok_iff.mp hbytes).2.1
  · intro hlen mode _ ttl seq
    refine ⟨_, encodeFrame_eq_ok_iff.mpr ⟨by simp, ?_, rfl⟩⟩
    rw [data_length, List.length_cons]
    split <;> omega

theorem length_of_counted {name : String} {maxCount size count : ℕ} {range : ℕ → String}
    (h : validateCounted name maxCount size range payload = .ok count) :
    payload.length ≤ 5 + maxCount * size := by
  obtain ⟨-, ⟨-, hcount⟩, hlen, -⟩ := validateCounted_eq_ok.mp h
  rw [hlen]
  exact Nat.add_le_add_left (Nat.mul_le_mul_right size hcount) 5

/-- No command but 27 has a payload of more than 250 records of 32 bytes. -/
theorem length_of_valid {commandID : UInt8} (hid : canonicalPriorityForCommand commandID ≠ none)
    (hne : commandID ≠ 27) (h : validateServerCommandPayload commandID payload = .ok ()) :
    payload.length ≤ 8005 := by
  unfold canonicalPriorityForCommand at hid
  split at hid
  -- the length is the only check, or the first of several, or it follows from the count
  all_goals first
    | exact absurd rfl hne
    | exact absurd rfl hid
    | exact Nat.le_trans (Nat.le_of_eq (need_eq_ok.mp h)) (by decide)
    | exact Nat.le_trans (Nat.le_of_eq (need_bind_eq_ok.mp h).1) (by decide)
    | obtain ⟨count, hcounted, -⟩ := bind_eq_ok.mp h
      exact Nat.le_trans (length_of_counted hcounted) (by decide)

/-- What the validator accepts can be sent, unless it is a custom command whose argument is too
long for a frame. -/
theorem validated_encodes_iff {commandID : UInt8}
    (hid : canonicalPriorityForCommand commandID ≠ none)
    (hvalid : validateServerCommandPayload commandID payload = .ok ()) :
    Encodes commandID payload ↔ (commandID = 27 → payload.length ≤ 65532) := by
  rw [encodes_iff]
  by_cases hcustom : commandID = 27
  · have hlen : payload.length + 3 ≤ 65535 ↔ payload.length ≤ 65532 := by omega
    simp [hcustom, hlen]
  · have hlen := length_of_valid hid hcustom hvalid
    exact iff_of_true (by omega) fun h => absurd h hcustom

theorem short_argument_encodes : Encodes 27 [7, 1, 0, 0x41] :=
  (validated_encodes_iff (by decide) (by decide)).mpr fun _ => by decide

/-- A custom command with an argument of `n` zeros. -/
def customZeros (n : ℕ) : List UInt8 :=
  0 :: putUint16 n ++ List.replicate n 0

theorem customZeros_length (n : ℕ) : (customZeros n).length = n + 3 := by
  simp [customZeros, putUint16]

theorem customZeros_valid {n : ℕ} (hn : n < 2 ^ 16) :
    validateServerCommandPayload 27 (customZeros n) = .ok () := by
  have hsize : uint16At (customZeros n) 1 = n := by
    simp only [customZeros, uint16At, putUint16, List.cons_append, List.nil_append,
      List.getD_cons_succ, List.getD_cons_zero, UInt8.toNat_ofNat']
    omega
  refine need_bind_eq_ok.mpr ⟨by rw [customZeros_length]; omega, need_eq_ok.mpr ?_⟩
  rw [hsize, List.length_drop, customZeros_length, Nat.add_sub_cancel]

/-- The argument has 65530 bytes, which its size field can say and a frame cannot hold. -/
theorem long_argument_does_not_encode :
    canonicalPriorityForCommand 27 ≠ none ∧
      validateServerCommandPayload 27 (customZeros 65530) = .ok () ∧
      ¬ Encodes 27 (customZeros 65530) := by
  refine ⟨by decide, customZeros_valid (by decide), ?_⟩
  rw [encodes_iff, customZeros_length]
  decide

end TcpAdapter.Protocol
