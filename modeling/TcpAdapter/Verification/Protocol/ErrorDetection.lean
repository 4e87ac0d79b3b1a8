import TcpAdapter.Codec.ShiftRegister
import TcpAdapter.Verification.Protocol.Reader

/-! # Damaged frames

The CRC is a shift register of sixteen bits that reads bytes. The reader accepts a frame if
the register ends at zero once it has read the checksum as well. -/

namespace TcpAdapter.Protocol

open TcpAdapter.Codec

/-! ## The register -/

def modbusPoly : BitVec 16 :=
  0xA001#16

theorem modbusPoly_msb : modbusPoly.msb = true := by
  decide

theorem low_bit_iff (crc : UInt16) : crc &&& 1 ≠ 0 ↔ crc.toBitVec.getLsbD 0 = true := by
  rw [ne_eq, ← UInt16.toBitVec_inj, UInt16.toBitVec_and, BitVec.getLsbD, ← BitVec.toNat_inj]
  simp

theorem crcBit_toBitVec (crc : UInt16) : (crcBit crc).toBitVec = shift modbusPoly crc.toBitVec := by
  rw [crcBit, shift]
  by_cases h : crc &&& 1 ≠ 0
  · rw [if_pos h, if_pos ((low_bit_iff crc).mp h)]
    rfl
  · rw [if_neg h, if_neg (mt (low_bit_iff crc).mpr h)]
    rfl

theorem crcBits_toBitVec (n : ℕ) (crc : UInt16) :
    (crcBits n crc).toBitVec = shifts modbusPoly n crc.toBitVec := by
  induction n generalizing crc with
  | zero => rfl
  | succ n ih => rw [crcBits, ih, crcBit_toBitVec, shifts]

theorem crcByte_toBitVec (crc : UInt16) (b : UInt8) :
    (crcByte crc b).toBitVec = absorb modbusPoly crc.toBitVec b.toBitVec := by
  rw [crcByte, crcBits_toBitVec, absorb]
  rfl

theorem foldl_crcByte_toBitVec (data : List UInt8) (crc : UInt16) :
    (data.foldl crcByte crc).toBitVec =
      checksum modbusPoly crc.toBitVec (data.map UInt8.toBitVec) := by
  induction data generalizing crc with
  | nil => rfl
  | cons b data ih => rw [List.foldl_cons, ih, crcByte_toBitVec, List.map_cons, checksum, checksum,
      List.foldl_cons]

/-- The register after a message, started as the source starts it. -/
theorem crc16Modbus_toBitVec (data : List UInt8) :
    (crc16Modbus data).toBitVec = checksum modbusPoly 0xFFFF#16 (data.map UInt8.toBitVec) :=
  foldl_crcByte_toBitVec data 0xFFFF

theorem setWidth_xor_shiftLeft (lo hi : BitVec 8) :
    lo.setWidth 16 ^^^ hi.setWidth 16 <<< 8 = hi ++ lo := by
  apply BitVec.eq_of_getLsbD_eq
  intro i hlt
  rw [BitVec.getLsbD_append]
  by_cases h : i < 8
  · simp [h, hlt]
  · have hlo : lo.getLsbD i = false := BitVec.getLsbD_of_ge _ _ (by omega)
    simp [h, hlt, hlo]

theorem toNat_append_byte (lo hi : BitVec 8) : (hi ++ lo).toNat = lo.toNat + 256 * hi.toNat := by
  rw [BitVec.toNat_append, ← Nat.shiftLeft_add_eq_or_of_lt lo.isLt, Nat.shiftLeft_eq]
  omega

/-- The reader's comparison, as a property of the register. -/
theorem crc_eq_iff (message : List UInt8) (lo hi : UInt8) :
    lo.toNat + 256 * hi.toNat = (crc16Modbus message).toNat ↔
      (crc16Modbus (message ++ [lo, hi])).toBitVec = 0#16 := by
  rw [crc16Modbus_toBitVec, List.map_append, checksum, List.foldl_append]
  change _ ↔ absorb modbusPoly (absorb modbusPoly (checksum _ _ _) lo.toBitVec) hi.toBitVec = 0#16
  rw [absorb_pair_eq_zero_iff modbusPoly_msb (by omega), ← crc16Modbus_toBitVec,
    setWidth_xor_shiftLeft, ← BitVec.toNat_inj, toNat_append_byte]
  exact eq_comm

/-! ## Damage -/

/-- Bytes got changed, but none other than the ones at `i` and `i + 1`. -/
structure DamagedAt (i : ℕ) (sent damaged : List UInt8) : Prop where
  length_eq : damaged.length = sent.length
  ne : damaged ≠ sent
  elsewhere : ∀ j, j ≠ i → j ≠ i + 1 → damaged[j]? = sent[j]?

namespace DamagedAt

variable {i : ℕ} {sent damaged : List UInt8}

theorem beyond (h : DamagedAt i sent damaged) {j : ℕ} (hj : sent.length ≤ j) :
    damaged[j]? = sent[j]? := by
  rw [List.getElem?_eq_none hj, List.getElem?_eq_none (h.length_eq ▸ hj)]

theorem lt_length (h : DamagedAt i sent damaged) : i < sent.length := by
  by_contra hge
  apply h.ne
  apply List.ext_getElem?
  intro j
  by_cases hj : j < i
  · exact h.elsewhere j (by omega) (by omega)
  · exact h.beyond (by omega)

/-- Damage to the last byte counts as damage to the last two. -/
theorem back (h : DamagedAt (i + 1) sent damaged) (hlast : sent.length = i + 2) :
    DamagedAt i sent damaged where
  length_eq := h.length_eq
  ne := h.ne
  elsewhere := by
    intro j h₀ h₁
    by_cases hj : j = i + 1 + 1
    · exact h.beyond (by omega)
    · exact h.elsewhere j h₁ hj

theorem within (h : DamagedAt i sent damaged) {k : ℕ} (hk : k ≤ i) (hlen : k + 2 ≤ sent.length) :
    ∃ j, k ≤ j ∧ j + 1 < sent.length ∧ DamagedAt j sent damaged := by
  have hlt := h.lt_length
  by_cases hlast : i + 1 = sent.length
  · obtain ⟨j, rfl⟩ : ∃ j, i = j + 1 := ⟨i - 1, by omega⟩
    exact ⟨j, by omega, by omega, h.back (by omega)⟩
  · exact ⟨i, hk, by omega, h⟩

theorem take_eq (h : DamagedAt i sent damaged) {n : ℕ} (hn : n ≤ i) :
    damaged.take n = sent.take n := by
  apply List.ext_getElem?
  intro j
  rw [List.getElem?_take, List.getElem?_take]
  split
  · exact h.elsewhere j (by omega) (by omega)
  · rfl

theorem drop_eq (h : DamagedAt i sent damaged) : damaged.drop (i + 2) = sent.drop (i + 2) := by
  apply List.ext_getElem?
  intro j
  rw [List.getElem?_drop, List.getElem?_drop]
  exact h.elsewhere _ (by omega) (by omega)

end DamagedAt

theorem eq_take_append {bytes : List UInt8} {i : ℕ} (h : i + 1 < bytes.length) :
    bytes = bytes.take i ++ bytes[i] :: bytes[i + 1] :: bytes.drop (i + 2) := by
  rw [List.getElem_cons_drop, List.getElem_cons_drop, List.take_append_drop]

/-- The bytes before and behind the damage, and the two pairs in between. -/
theorem DamagedAt.split {i : ℕ} {sent damaged : List UInt8} (h : DamagedAt i sent damaged)
    (hi : i + 1 < sent.length) :
    ∃ pre post a b a' b', pre.length = i ∧ sent = pre ++ a :: b :: post ∧
      damaged = pre ++ a' :: b' :: post ∧ ¬(a = a' ∧ b = b') := by
  have hi' : i + 1 < damaged.length := h.length_eq ▸ hi
  have hdamaged := eq_take_append hi'
  rw [h.take_eq (Nat.le_refl i), h.drop_eq] at hdamaged
  refine ⟨sent.take i, sent.drop (i + 2), sent[i], sent[i + 1], damaged[i], damaged[i + 1], ?_,
    eq_take_append hi, hdamaged, ?_⟩
  · exact List.length_take_of_le (by omega)
  · rintro ⟨ha, hb⟩
    apply h.ne
    rw [hdamaged, ← ha, ← hb]
    exact (eq_take_append hi).symm

/-- The register notices damage to what it reads. -/
theorem DamagedAt.crc_ne {i k : ℕ} {sent damaged : List UInt8} (h : DamagedAt i sent damaged)
    (hi : i + 1 < sent.length) (hk : k ≤ i) :
    crc16Modbus (damaged.drop k) ≠ crc16Modbus (sent.drop k) := by
  intro hcrc
  obtain ⟨pre, post, a, b, a', b', rfl, rfl, rfl, hne⟩ := h.split hi
  rw [List.drop_append_of_le_length hk, List.drop_append_of_le_length hk, ← UInt16.toBitVec_inj,
    crc16Modbus_toBitVec, crc16Modbus_toBitVec] at hcrc
  simp only [List.map_append, List.map_cons] at hcrc
  obtain ⟨ha, hb⟩ := eq_of_checksum_eq modbusPoly_msb (by omega) hcrc
  exact hne ⟨(UInt8.toBitVec_inj.mp ha).symm, (UInt8.toBitVec_inj.mp hb).symm⟩

/-! ## The reader -/

/-- Bytes with the header of a frame and its length. -/
theorem exists_unsealed {bytes : List UInt8} {n : ℕ}
    (hheader : bytes.take 6 = startMarker ++ putUint16 n) (hlen : bytes.length = n + 8) :
    ∃ data lo hi, data.length = n ∧ bytes = unsealed data ++ [lo, hi] := by
  have hdata : ((bytes.drop 6).take n).length = n := by
    rw [List.length_take_of_le]
    rw [List.length_drop]
    omega
  have hpair : ((bytes.drop 6).drop n).length = 2 := by
    rw [List.length_drop, List.length_drop]
    omega
  obtain ⟨lo, hi, hcrc⟩ := List.length_eq_two.mp hpair
  refine ⟨(bytes.drop 6).take n, lo, hi, hdata, ?_⟩
  rw [unsealed, body, hdata, ← List.append_assoc, ← hheader, ← hcrc, List.append_assoc,
    List.take_append_drop, List.take_append_drop]

theorem crc_wire (data : List UInt8) : (crc16Modbus ((wire data).drop 4)).toBitVec = 0#16 :=
  (crc_eq_iff (body data) _ _).mp (toNat_putUint16 (crc16Modbus (body data)).toNat_lt)

/-- A frame that got damaged behind its header, in one byte or two adjacent ones, is refused in
every mode. -/
theorem damaged_frame_refused (ended : ReadError) (mode : FrameMode) {f : Frame}
    {sent damaged : List UInt8} (hsent : encodeFrame f = .ok sent) {i : ℕ} (hi : 6 ≤ i)
    (hdamage : DamagedAt i sent damaged) (rest : List UInt8) :
    readFrameWithMode ended mode (damaged ++ rest) = (.error .crc, rest) := by
  have hsize := encodeFrame_length hsent
  obtain ⟨hpayload, hlen, rfl⟩ := encodeFrame_eq_ok_iff.mp hsent
  have hpos : 0 < f.data.length := by
    have hpayload := List.length_pos_of_ne_nil hpayload
    rw [data_length]
    omega
  obtain ⟨j, hj, hinside, hdamage⟩ := hdamage.within hi (by omega)
  have hheader : damaged.take 6 = startMarker ++ putUint16 f.data.length := hdamage.take_eq hj
  obtain ⟨data, lo, hi, hdata, rfl⟩ :=
    exists_unsealed hheader (hdamage.length_eq.trans hsize)
  rw [readFrame_sealed (by omega) (by omega), if_neg]
  intro hcrc
  have hzero : (crc16Modbus ((unsealed data ++ [lo, hi]).drop 4)).toBitVec = 0#16 :=
    (crc_eq_iff (body data) lo hi).mp hcrc
  apply hdamage.crc_ne hinside (Nat.le_trans (by omega : 4 ≤ 6) hj)
  rw [← UInt16.toBitVec_inj, hzero, crc_wire]

/-- The last data byte and the first byte of the checksum are damaged. -/
theorem straddling_damage_refused :
    readFrameWithMode .eof .compact ([0x53, 0x4C, 0x44, 0x4E, 2, 0, 5, 8, 195, 202] ++ []) =
      (.error .crc, []) := by
  have hsent : encodeFrame ⟨5, 0, [9], .compact⟩ =
      .ok [0x53, 0x4C, 0x44, 0x4E, 2, 0, 5, 9, 194, 202] :=
    encodeFrame_eq_ok_iff.mpr ⟨by decide, by decide, by decide +kernel⟩
  have hnear : ∀ j < 10, j ≠ 7 → j ≠ 8 →
      ([0x53, 0x4C, 0x44, 0x4E, 2, 0, 5, 8, 195, 202] : List UInt8)[j]? =
        ([0x53, 0x4C, 0x44, 0x4E, 2, 0, 5, 9, 194, 202] : List UInt8)[j]? := by
    decide
  have hdamage : DamagedAt 7 [0x53, 0x4C, 0x44, 0x4E, 2, 0, 5, 9, 194, 202]
      [0x53, 0x4C, 0x44, 0x4E, 2, 0, 5, 8, 195, 202] := by
    refine ⟨rfl, by decide, fun j h₇ h₈ => ?_⟩
    by_cases hj : j < 10
    · exact hnear j hj h₇ h₈
    · rw [List.getElem?_eq_none (Nat.le_of_not_lt hj), List.getElem?_eq_none (Nat.le_of_not_lt hj)]
  exact damaged_frame_refused .eof .compact hsent (by omega) hdamage []

end TcpAdapter.Protocol
