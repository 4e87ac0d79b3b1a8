import TcpAdapter.Model.Protocol.Reader
import TcpAdapter.Verification.Protocol.Frame

/-! # Frames on the wire

What the encoder writes, what the reader accepts, and that the two agree. -/

namespace TcpAdapter.Protocol

open TcpAdapter.Codec

/-! ## Little-endian integers -/

@[simp] theorem putUint16_length (n : ℕ) : (putUint16 n).length = 2 := rfl

theorem uint16At_append (xs : List UInt8) (lo hi : UInt8) (rest : List UInt8) :
    uint16At (xs ++ lo :: hi :: rest) xs.length = lo.toNat + 256 * hi.toNat := by
  simp [uint16At]

theorem toNat_putUint16 {n : ℕ} (hn : n < 65536) :
    (UInt8.ofNat (n % 256)).toNat + 256 * (UInt8.ofNat (n / 256 % 256)).toNat = n := by
  simp only [UInt8.toNat_ofNat']
  omega

theorem uint16At_putUint16 {n : ℕ} (hn : n < 65536) (xs : List UInt8) :
    uint16At (xs ++ putUint16 n) xs.length = n := by
  rw [putUint16, uint16At_append, toNat_putUint16 hn]

theorem putUint16_toNat (lo hi : UInt8) : putUint16 (lo.toNat + 256 * hi.toNat) = [lo, hi] := by
  have hlo := lo.toNat_lt
  have hhi := hi.toNat_lt
  have h1 : (lo.toNat + 256 * hi.toNat) % 256 = lo.toNat := by omega
  have h2 : (lo.toNat + 256 * hi.toNat) / 256 % 256 = hi.toNat := by omega
  rw [putUint16, h1, h2, UInt8.ofNat_toNat, UInt8.ofNat_toNat]

/-! ## The encoder -/

/-- The bytes the checksum covers. -/
def body (data : List UInt8) : List UInt8 :=
  putUint16 data.length ++ data

/-- A frame's bytes up to its checksum. -/
def unsealed (data : List UInt8) : List UInt8 :=
  startMarker ++ body data

def wire (data : List UInt8) : List UInt8 :=
  unsealed data ++ putUint16 (crc16Modbus (body data)).toNat

theorem encodeFrame_eq_ok_iff {f : Frame} {bytes : List UInt8} :
    encodeFrame f = .ok bytes ↔
      f.payload ≠ [] ∧ f.data.length ≤ 65535 ∧ bytes = wire f.data := by
  simp only [encodeFrame, List.length_eq_zero_iff]
  by_cases hp : f.payload = []
  · simp [hp]
  · by_cases hl : f.data.length > 65535
    · simp only [hp, hl, if_true, if_false, ne_eq, not_false_eq_true, true_and]
      constructor
      · intro h
        cases h
      · intro h
        omega
    · simp only [hp, hl, if_false, ne_eq, not_false_eq_true, true_and, Except.ok.injEq, wire,
        unsealed, body]
      constructor
      · intro h
        exact ⟨by omega, h.symm⟩
      · intro h
        exact h.2.symm

/-! ## The reader -/

section reader

variable {ended : ReadError} {mode : FrameMode}

theorem readFull_append {n : ℕ} {bytes : List UInt8} (h : bytes.length = n) (rest : List UInt8) :
    readFull ended n (bytes ++ rest) = (.ok bytes, rest) := by
  simp [readFull, ← h]

theorem readFull_ok {n : ℕ} {stream bytes rest : List UInt8}
    (h : readFull ended n stream = (.ok bytes, rest)) :
    bytes.length = n ∧ stream = bytes ++ rest := by
  rw [readFull] at h
  split at h
  · rename_i hle
    obtain ⟨rfl, rfl⟩ := Prod.mk.inj h |>.imp_left Except.ok.inj
    exact ⟨List.length_take_of_le hle, (List.take_append_drop n stream).symm⟩
  · cases h

/-- What the reader does with a marker, a length, that much data and any two bytes after
it. -/
theorem readFrame_sealed {data : List UInt8} (hpos : 0 < data.length)
    (hlen : data.length ≤ 65535) (lo hi : UInt8) (rest : List UInt8) :
    readFrameWithMode ended mode (unsealed data ++ [lo, hi] ++ rest) =
      if lo.toNat + 256 * hi.toNat = (crc16Modbus (body data)).toNat then
        (decodeData mode data, rest)
      else (.error .crc, rest) := by
  have hsplit : unsealed data ++ [lo, hi] ++ rest =
      (startMarker ++ putUint16 data.length) ++ (data ++ [lo, hi] ++ rest) := by
    simp [unsealed, body]
  have hfield : uint16At (startMarker ++ putUint16 data.length) 4 = data.length :=
    uint16At_putUint16 (by omega) startMarker
  have hcrc : uint16At (data ++ [lo, hi]) data.length = lo.toNat + 256 * hi.toNat :=
    uint16At_append data lo hi []
  have hlen2 : (data ++ [lo, hi]).length = data.length + 2 := by simp
  have hdata : (data ++ [lo, hi]).take data.length = data := by simp
  have hmarker : (startMarker ++ putUint16 data.length).take 4 = startMarker := rfl
  have hbody : (startMarker ++ putUint16 data.length).drop 4 ++ data = body data := rfl
  rw [hsplit, readFrameWithMode, readFull_append (by rfl)]
  simp only [hmarker, hfield, readFull_append hlen2, hdata, hcrc, hbody]
  rw [if_neg (by simp), if_neg (by omega)]
  split <;> simp_all

theorem readFrame_wire {data : List UInt8} (hpos : 0 < data.length)
    (hlen : data.length ≤ 65535) (rest : List UInt8) :
    readFrameWithMode ended mode (wire data ++ rest) = (decodeData mode data, rest) := by
  rw [wire, putUint16, readFrame_sealed hpos hlen, if_pos]
  exact toNat_putUint16 (crc16Modbus (body data)).toNat_lt

/-- A stream that yields a frame starts with a marker, a length, that much data and two more
bytes. -/
theorem exists_sealed {f : Frame} {stream rest : List UInt8}
    (h : readFrameWithMode ended mode stream = (.ok f, rest)) :
    ∃ data lo hi rest', 0 < data.length ∧ data.length ≤ 65535 ∧
      stream = unsealed data ++ [lo, hi] ++ rest' := by
  rw [readFrameWithMode] at h
  split at h
  · cases h
  · rename_i header after hheader
    obtain ⟨hsix, rfl⟩ := readFull_ok hheader
    split at h
    · cases h
    · rename_i hmarker
      have hfield : (header.drop 4).length = 2 := by rw [List.length_drop, hsix]
      obtain ⟨l₀, l₁, hl⟩ := List.length_eq_two.mp hfield
      have hheader' : header = startMarker ++ [l₀, l₁] := by
        rw [← hl, ← not_not.mp hmarker, List.take_append_drop]
      have hlen : uint16At header 4 = l₀.toNat + 256 * l₁.toNat := by
        rw [hheader']
        exact uint16At_append startMarker l₀ l₁ []
      simp only [hlen] at h
      split at h
      · cases h
      · split at h
        · cases h
        · rename_i hpos _ dataAndCRC rest' hdata
          obtain ⟨hsize, rfl⟩ := readFull_ok hdata
          have hfield' : (dataAndCRC.drop (l₀.toNat + 256 * l₁.toNat)).length = 2 := by
            rw [List.length_drop, hsize]
            omega
          obtain ⟨lo, hi, hcrc⟩ := List.length_eq_two.mp hfield'
          have hsplit := List.take_append_drop (l₀.toNat + 256 * l₁.toNat) dataAndCRC
          have hlength : (dataAndCRC.take (l₀.toNat + 256 * l₁.toNat)).length =
              l₀.toNat + 256 * l₁.toNat := by
            rw [List.length_take_of_le]
            omega
          have h₀ := l₀.toNat_lt
          have h₁ := l₁.toNat_lt
          refine ⟨dataAndCRC.take (l₀.toNat + 256 * l₁.toNat), lo, hi, rest', ?_, ?_, ?_⟩
          · omega
          · omega
          rw [unsealed, body, hlength, putUint16_toNat, ← hcrc, hheader']
          simp only [List.append_assoc]
          rw [← List.append_assoc (dataAndCRC.take _), hsplit]

/-- The reader accepts nothing but encodings. -/
theorem readFrame_ok {f : Frame} {stream rest : List UInt8}
    (h : readFrameWithMode ended mode stream = (.ok f, rest)) :
    ∃ data, data.length ≤ 65535 ∧ decodeData mode data = .ok f ∧ stream = wire data ++ rest := by
  obtain ⟨data, lo, hi, rest', hpos, hlen, rfl⟩ := exists_sealed h
  rw [readFrame_sealed hpos hlen] at h
  split at h
  · rename_i hcrc
    obtain ⟨hf, rfl⟩ := Prod.mk.inj h
    refine ⟨data, hlen, hf, ?_⟩
    rw [wire, ← hcrc, putUint16_toNat]
  · cases h

/-! ## The two layouts -/

theorem compactFrame_data {data : List UInt8} (h : 2 ≤ data.length) :
    (compactFrame data).data = data ∧ (compactFrame data).payload ≠ [] := by
  cases data with
  | nil => simp at h
  | cons ttl payload =>
      have hpayload : payload ≠ [] := List.ne_nil_of_length_pos (Nat.le_of_succ_le_succ h)
      exact ⟨rfl, hpayload⟩

theorem sequencedFrame_data {data : List UInt8} (h : 3 ≤ data.length) :
    (sequencedFrame data).data = data ∧ (sequencedFrame data).payload ≠ [] := by
  cases data with
  | nil => simp at h
  | cons ttl rest =>
      cases rest with
      | nil => simp at h
      | cons seq payload =>
          have hpayload : payload ≠ [] :=
            List.ne_nil_of_length_pos (Nat.le_of_succ_le_succ (Nat.le_of_succ_le_succ h))
          exact ⟨rfl, hpayload⟩

/-- However the guess turns out, it is one of the two layouts, and long enough for it. -/
theorem readAutoFrame_ok {data : List UInt8} {f : Frame} (h : readAutoFrame data = .ok f) :
    (2 ≤ data.length ∧ f = compactFrame data) ∨ (3 ≤ data.length ∧ f = sequencedFrame data) := by
  by_cases h2 : data.length < 2
  · simp [readAutoFrame, h2] at h
  · by_cases h3 : data.length < 3
    · simp only [readAutoFrame, h2, h3, if_true, if_false, ite_self, Except.ok.injEq] at h
      exact .inl ⟨by omega, h.symm⟩
    · have hlen : 2 ≤ data.length ∧ 3 ≤ data.length := by omega
      simp only [readAutoFrame, h2, h3, if_false] at h
      split_ifs at h <;> cases h
      all_goals simp [hlen]

theorem decodeData_ok {data : List UInt8} {f : Frame} (h : decodeData mode data = .ok f) :
    (2 ≤ data.length ∧ f = compactFrame data) ∨ (3 ≤ data.length ∧ f = sequencedFrame data) := by
  cases mode with
  | auto => exact readAutoFrame_ok h
  | compact =>
      by_cases h2 : data.length < 2
      · simp [decodeData, h2] at h
      · simp only [decodeData, h2, if_false, Except.ok.injEq] at h
        exact .inl ⟨by omega, h.symm⟩
  | sequenced =>
      by_cases h3 : data.length < 3
      · simp [decodeData, h3] at h
      · simp only [decodeData, h3, if_false, Except.ok.injEq] at h
        exact .inr ⟨by omega, h.symm⟩

/-- The frame that is read holds all of its data. -/
theorem data_of_decodeData {data : List UInt8} {f : Frame} (h : decodeData mode data = .ok f) :
    f.data = data ∧ f.payload ≠ [] := by
  obtain ⟨hlen, rfl⟩ | ⟨hlen, rfl⟩ := decodeData_ok h
  · exact compactFrame_data hlen
  · exact sequencedFrame_data hlen

/-- If the reader answers with a frame, the bytes it has consumed are the frame's encoding,
and the log shows them. -/
theorem encodeFrame_of_read {f : Frame} {consumed rest : List UInt8}
    (h : readFrameWithMode ended mode (consumed ++ rest) = (.ok f, rest)) :
    encodeFrame f = .ok consumed ∧ encodeFrameHex f = encodeToString consumed := by
  obtain ⟨data, hlen, hdecode, hstream⟩ := readFrame_ok h
  obtain ⟨hdata, hpayload⟩ := data_of_decodeData hdecode
  have hok : encodeFrame f = .ok consumed := by
    rw [encodeFrame_eq_ok_iff, hdata]
    exact ⟨hpayload, hlen, List.append_cancel_right hstream⟩
  exact ⟨hok, by rw [encodeFrameHex, hok]⟩

/-- Two bytes of data are the least a frame can have; they are read as a compact frame. -/
theorem encodeFrame_of_least_read :
    encodeFrame ⟨5, 0, [9], .compact⟩ = .ok (wire [5, 9]) ∧
      encodeFrameHex ⟨5, 0, [9], .compact⟩ = encodeToString (wire [5, 9]) := by
  have hread : readFrameWithMode .eof .auto (wire [5, 9] ++ [7]) =
      (.ok ⟨5, 0, [9], .compact⟩, [7]) := readFrame_wire (by decide) (by decide) [7]
  exact encodeFrame_of_read hread

end reader

/-! ## Round trips -/

/-- A frame as it is read back: the compact layout has no room for the number. -/
def Frame.received (f : Frame) : Frame :=
  if f.mode = .compact then { f with seq := 0 } else f

@[simp] theorem received_mode (f : Frame) : f.received.mode = f.mode := by
  rw [Frame.received]
  split <;> rfl

@[simp] theorem received_ttl (f : Frame) : f.received.ttl = f.ttl := by
  rw [Frame.received]
  split <;> rfl

@[simp] theorem received_payload (f : Frame) : f.received.payload = f.payload := by
  rw [Frame.received]
  split <;> rfl

theorem received_of_sequenced {f : Frame} (h : f.mode = .sequenced) : f.received = f :=
  if_neg (by simp [h])

theorem decodeData_data {f : Frame} (hmode : f.mode ≠ .auto) (hpayload : f.payload ≠ []) :
    decodeData f.mode f.data = .ok f.received := by
  obtain ⟨ttl, seq, payload, mode⟩ := f
  have hpos : 0 < payload.length := List.length_pos_of_ne_nil hpayload
  cases mode with
  | auto => exact absurd rfl hmode
  | compact =>
      have h2 : ¬(ttl :: payload).length < 2 := by
        rw [List.length_cons]
        omega
      exact if_neg h2
  | sequenced =>
      have h3 : ¬(ttl :: seq :: payload).length < 3 := by
        rw [List.length_cons, List.length_cons]
        omega
      exact if_neg h3

theorem reads_wire {ended : ReadError} {mode : FrameMode} {data : List UInt8} {f : Frame}
    (hlen : data.length ≤ 65535) (h : decodeData mode data = .ok f) :
    Reads (readFrameWithMode ended mode) (wire data) f := by
  intro rest
  have hpos : 0 < data.length := by
    obtain ⟨hlen, -⟩ | ⟨hlen, -⟩ := decodeData_ok h <;> omega
  rw [readFrame_wire hpos hlen, h]

theorem reads_encodeFrame {ended : ReadError} {f : Frame} {bytes : List UInt8}
    (hmode : f.mode ≠ .auto) (h : encodeFrame f = .ok bytes) :
    Reads (readFrameWithMode ended f.mode) bytes f.received := by
  obtain ⟨hpayload, hlen, rfl⟩ := encodeFrame_eq_ok_iff.mp h
  exact reads_wire hlen (decodeData_data hmode hpayload)


/-- The encodings of a list of frames, one by one. -/
def Encoded (frames : List Frame) (wires : List (List UInt8)) : Prop :=
  List.Forall₂ (fun f bytes => encodeFrame f = .ok bytes) frames wires

theorem exists_encoded {frames : List Frame}
    (h : ∀ f ∈ frames, f.payload ≠ [] ∧ f.data.length ≤ 65535) : ∃ wires, Encoded frames wires := by
  induction frames with
  | nil => exact ⟨[], .nil⟩
  | cons f frames ih =>
      obtain ⟨wires, hwires⟩ := ih fun g hg => h g (List.mem_cons_of_mem f hg)
      obtain ⟨hpayload, hlen⟩ := h f List.mem_cons_self
      have hf := encodeFrame_eq_ok_iff.mpr ⟨hpayload, hlen, rfl⟩
      exact ⟨wire f.data :: wires, .cons hf hwires⟩

theorem Encoded.reads {ended : ReadError} {mode : FrameMode} {frames : List Frame}
    {wires : List (List UInt8)} (h : Encoded frames wires) (hauto : mode ≠ .auto)
    (hmode : ∀ f ∈ frames, f.mode = mode) :
    List.Forall₂ (Reads (readFrameWithMode ended mode)) wires (frames.map Frame.received) := by
  induction h with
  | nil => exact .nil
  | cons hf _ ih =>
      have hhead := hmode _ List.mem_cons_self
      refine .cons ?_ (ih fun g hg => hmode g (List.mem_cons_of_mem _ hg))
      rw [← hhead]
      exact reads_encodeFrame (hhead ▸ hauto) hf

theorem Encoded.readMany {ended : ReadError} {mode : FrameMode} {frames : List Frame}
    {wires : List (List UInt8)} (h : Encoded frames wires) (hauto : mode ≠ .auto)
    (hmode : ∀ f ∈ frames, f.mode = mode) (rest : List UInt8) :
    readMany (readFrameWithMode ended mode) frames.length (wires.flatten ++ rest) =
      (.ok (frames.map Frame.received), rest) := by
  rw [← List.length_map Frame.received]
  exact readMany_flatten (h.reads hauto hmode) rest

theorem encodeFrame_error_iff (f : Frame) :
    (∃ err, encodeFrame f = .error err) ↔ f.payload = [] ∨ 65535 < f.data.length := by
  cases hres : encodeFrame f with
  | ok bytes =>
      obtain ⟨hpayload, hlen, -⟩ := encodeFrame_eq_ok_iff.mp hres
      simp [hpayload, Nat.not_lt.mpr hlen]
  | error err =>
      simp only [Except.error.injEq, exists_eq', true_iff]
      by_contra hnot
      rw [not_or, Nat.not_lt] at hnot
      have hok := encodeFrame_eq_ok_iff.mpr ⟨hnot.1, hnot.2, rfl⟩
      rw [hres] at hok
      cases hok

/-- A stream of frames in one layout reads back as those frames and leaves what follows
them. A frame has no encoding only if it has no payload or its data does not fit the length
field. -/
theorem readMany_encoded :
    (∀ (ended : ReadError) (mode : FrameMode) (frames : List Frame) (suffix : List UInt8),
      mode ≠ .auto →
      (∀ f ∈ frames, f.mode = mode ∧ f.payload ≠ [] ∧ f.data.length ≤ 65535) →
      ∃ wires, Encoded frames wires ∧
        readMany (readFrameWithMode ended mode) frames.length (wires.flatten ++ suffix) =
          (.ok (frames.map Frame.received), suffix)) ∧
    ∀ f : Frame, (∃ err, encodeFrame f = .error err) ↔ f.payload = [] ∨ 65535 < f.data.length := by
  refine ⟨fun ended mode frames suffix hauto hframes => ?_, encodeFrame_error_iff⟩
  obtain ⟨wires, hwires⟩ := exists_encoded fun f hf => (hframes f hf).2
  exact ⟨wires, hwires, hwires.readMany hauto (fun f hf => (hframes f hf).1) suffix⟩

/-- Two compact frames, the first of which carries the start marker, and the first byte of a
third one. -/
theorem readMany_marker_payload :
    ∃ wires, Encoded [⟨5, 9, startMarker, .compact⟩, ⟨6, 0, [1], .compact⟩] wires ∧
      readMany (readFrameWithMode .eof .compact) 2 (wires.flatten ++ [0x53]) =
        (.ok [⟨5, 0, startMarker, .compact⟩, ⟨6, 0, [1], .compact⟩], [0x53]) :=
  readMany_encoded.1 .eof .compact [⟨5, 9, startMarker, .compact⟩, ⟨6, 0, [1], .compact⟩] [0x53]
    (by decide) (by decide)

/-! ## The layout of the first frame -/

theorem trimmedEnd_pos {raw : List UInt8} (h : raw.getD 0 0 ≠ 0) {n : ℕ} (hn : 0 < n) :
    0 < trimmedEnd raw n := by
  induction n with
  | zero => exact absurd hn (Nat.lt_irrefl 0)
  | succ n ih =>
      rw [trimmedEnd]
      split
      · rename_i hzero
        apply ih
        apply Nat.pos_of_ne_zero
        rintro rfl
        exact h hzero
      · exact Nat.succ_pos n

theorem registration_head {payload : List UInt8} {reg : Registration}
    (h : parseRegistrationPayload payload = .ok reg) :
    18 ≤ payload.length ∧ ∃ rest, payload = 1 :: rest := by
  rw [parseRegistrationPayload] at h
  split at h
  · cases h
  · split at h
    · cases h
    · rename_i hlen hcmd
      refine ⟨Nat.not_lt.mp hlen, ?_⟩
      cases payload with
      | nil => simp at hlen
      | cons b rest => exact ⟨rest, by simpa using hcmd⟩

theorem not_digitsOnly_trimmed (tail : List UInt8) :
    isDigitsOnly ((1 :: tail).take (trimmedEnd (1 :: tail) (1 :: tail).length)) = false := by
  obtain ⟨k, hk⟩ : ∃ k, trimmedEnd (1 :: tail) (1 :: tail).length = k + 1 :=
    Nat.exists_eq_add_one.mpr (trimmedEnd_pos (by simp) (by simp))
  rw [hk, List.take_succ_cons, isDigitsOnly, List.all_cons]
  rfl

/-- A registration in the sequenced layout is none in the compact layout: its command id would
be the first byte of the IMEI. -/
theorem not_registration_cons {payload : List UInt8} {reg : Registration}
    (h : parseRegistrationPayload payload = .ok reg) (seq : UInt8) :
    (parseRegistrationPayload (seq :: payload)).isOk = false := by
  obtain ⟨hlen, rest, rfl⟩ := registration_head h
  have hraw : ((seq :: 1 :: rest).drop 1).take 15 = 1 :: rest.take 14 := rfl
  rw [parseRegistrationPayload, if_neg (by rw [List.length_cons]; omega)]
  simp only [hraw, not_digitsOnly_trimmed]
  split
  · rfl
  · split <;> rfl

theorem readAuto_compact {payload : List UInt8} {reg : Registration}
    (h : parseRegistrationPayload payload = .ok reg) (ttl : UInt8) :
    readAutoFrame (ttl :: payload) = .ok ⟨ttl, 0, payload, .compact⟩ := by
  have hlen := (registration_head h).1
  have hok : (parseRegistrationPayload (compactFrame (ttl :: payload)).payload).isOk = true := by
    change (parseRegistrationPayload payload).isOk = true
    rw [h]
    rfl
  rw [readAutoFrame, if_neg (by rw [List.length_cons]; omega)]
  simp only [hok, if_true]
  rfl

theorem readAuto_sequenced {payload : List UInt8} {reg : Registration}
    (h : parseRegistrationPayload payload = .ok reg) (ttl seq : UInt8) :
    readAutoFrame (ttl :: seq :: payload) = .ok ⟨ttl, seq, payload, .sequenced⟩ := by
  have hlen := (registration_head h).1
  have hnot : (parseRegistrationPayload (compactFrame (ttl :: seq :: payload)).payload).isOk =
      false := not_registration_cons h seq
  have hok : (parseRegistrationPayload (sequencedFrame (ttl :: seq :: payload)).payload).isOk =
      true := by
    change (parseRegistrationPayload payload).isOk = true
    rw [h]
    rfl
  have h2 : ¬(ttl :: seq :: payload).length < 2 := by simp
  have h3 : ¬(ttl :: seq :: payload).length < 3 := by
    rw [List.length_cons, List.length_cons]
    omega
  rw [readAutoFrame, if_neg h2]
  simp only [hnot, hok, if_neg h3, if_true, Bool.false_eq_true, if_false]
  rfl

/-- A registration frame tells its layout. -/
theorem decodeData_registration {f : Frame} {reg : Registration} (hmode : f.mode ≠ .auto)
    (h : parseRegistrationPayload f.payload = .ok reg) :
    decodeData .auto f.data = .ok f.received := by
  obtain ⟨ttl, seq, payload, mode⟩ := f
  cases mode with
  | auto => exact absurd rfl hmode
  | compact => exact readAuto_compact h ttl
  | sequenced => exact readAuto_sequenced h ttl seq

/-- A controller registers and goes on in the layout of its registration: the first frame is
read with its layout, and reading on in that layout yields the frames that follow. -/
theorem registration_layout_detected (ended : ReadError) {mode : FrameMode} (hauto : mode ≠ .auto)
    {payload : List UInt8} {reg : Registration} (hreg : parseRegistrationPayload payload = .ok reg)
    (ttl seq : UInt8) {first : List UInt8}
    (hfirst : encodeFrame ⟨ttl, seq, payload, mode⟩ = .ok first) {frames : List Frame}
    (hmode : ∀ f ∈ frames, f.mode = mode) {wires : List (List UInt8)}
    (hwires : Encoded frames wires) (suffix : List UInt8) :
    ∃ f rest,
      readFrameWithMode ended .auto (first ++ (wires.flatten ++ suffix)) = (.ok f, rest) ∧
      f.mode = mode ∧ f.ttl = ttl ∧ f.payload = payload ∧ (mode = .sequenced → f.seq = seq) ∧
      readMany (readFrameWithMode ended f.mode) frames.length rest =
        (.ok (frames.map Frame.received), suffix) := by
  obtain ⟨-, hlen, rfl⟩ := encodeFrame_eq_ok_iff.mp hfirst
  have hread : Reads (readFrameWithMode ended .auto) _ _ :=
    reads_wire hlen (decodeData_registration hauto hreg)
  refine ⟨_, _, hread _, received_mode _, received_ttl _, received_payload _, ?_, ?_⟩
  · rintro rfl
    rw [received_of_sequenced rfl]
  · rw [received_mode]
    exact hwires.readMany hauto hmode suffix

/-- A registration under number 1 in the sequenced layout, which starts like one in the compact
layout, with a status frame behind it. -/
theorem registration_one_detected :
    ∃ f rest,
      readFrameWithMode .eof .auto
          (wire ([255, 1, 1] ++ List.replicate 15 0x37 ++ [1, 1]) ++
            ([wire [255, 2, 2, 0, 0, 0, 0, 0, 0, 100, 0]].flatten ++ [])) = (.ok f, rest) ∧
      f.mode = .sequenced ∧ f.ttl = 255 ∧ f.payload = 1 :: (List.replicate 15 0x37 ++ [1, 1]) ∧
      (FrameMode.sequenced = .sequenced → f.seq = 1) ∧
      readMany (readFrameWithMode .eof f.mode) 1 rest =
        (.ok [⟨255, 2, [2, 0, 0, 0, 0, 0, 0, 100, 0], .sequenced⟩], []) := by
  have hreg : parseRegistrationPayload (1 :: (List.replicate 15 0x37 ++ [1, 1])) =
      .ok ⟨List.replicate 15 0x37, 1, 1⟩ := rfl
  have hwires : Encoded [⟨255, 2, [2, 0, 0, 0, 0, 0, 0, 100, 0], .sequenced⟩]
      [wire [255, 2, 2, 0, 0, 0, 0, 0, 0, 100, 0]] := .cons rfl .nil
  exact registration_layout_detected .eof (by decide) hreg 255 1 rfl (by simp) hwires []

end TcpAdapter.Protocol
