import TcpAdapter.Verification.Protocol.Fields

/-! # What the typed builders of the record commands can build

A payload is accepted by the validator exactly if a typed builder returns it. One direction is
the last line of every builder. For the other the payload is decoded field by field, and the
builder then writes the same bytes at the same places. -/

namespace TcpAdapter.Protocol

open TcpAdapter.Codec

variable {payload record : List UInt8}

/-- The bytes from `off` on, as an array. -/
def arrayAt (bytes : List UInt8) (off n : ℕ) (h : off + n ≤ bytes.length) : Arr n UInt8 :=
  ⟨slice bytes off n, length_slice h⟩

theorem toNat_ofNat_uint16At (bytes : List UInt8) (off : ℕ) :
    (UInt16.ofNat (uint16At bytes off)).toNat = uint16At bytes off :=
  UInt16.toNat_ofNat_of_lt' (uint16At_lt bytes off)

theorem toNat_ofNat_uint32At (bytes : List UInt8) (off : ℕ) :
    (UInt32.ofNat (uint32At bytes off)).toNat = uint32At bytes off :=
  UInt32.toNat_ofNat_of_lt' (uint32At_lt bytes off)

/-! ## Texts -/

/-- The loop of `fixedASCII` and `fixedDigits` copies the text if it allows every byte. -/
theorem copyText_eq_ok {allowed : UInt8 → Bool} {kind : String} {text out copied : List UInt8}
    {i : ℕ} (hfit : i + text.length ≤ out.length) :
    copyText allowed kind text i out = .ok copied ↔
      (∀ b ∈ text, allowed b) ∧ copied = writeAt out i text := by
  induction text generalizing i out with
  | nil =>
      have hnone : writeAt out i [] = out := by simp [writeAt]
      rw [copyText, hnone, Except.ok.injEq, eq_comm]
      simp
  | cons b rest ih =>
      rw [List.length_cons] at hfit
      have hb : i + [b].length ≤ out.length := by simp; omega
      rw [copyText]
      split
      · rename_i hallowed
        have hrest := writeAt_writeAt rest hb
        rw [List.length_singleton, List.singleton_append] at hrest
        rw [ih (by rw [length_writeAt hb]; omega), hrest]
        simp [hallowed]
      · rename_i hallowed
        simp [hallowed]

theorem fixedASCII_eq_ok {text field : List UInt8} {size : ℕ} :
    fixedASCII text size = .ok field ↔ text.length ≤ size ∧ (∀ b ∈ text, b ≤ 127) ∧
      field = text ++ List.replicate (size - text.length) 0 := by
  rw [fixedASCII, need_bind_eq_ok, Nat.not_lt]
  refine and_congr_right fun hlen => ?_
  rw [copyText_eq_ok (by simpa [makeBytes] using hlen), writeAt_makeBytes]
  simp only [decide_eq_true_eq]

theorem fixedASCII_full {text : List UInt8} {size : ℕ} (hlen : text.length = size)
    (hall : ∀ b ∈ text, b ≤ 127) : fixedASCII text size = .ok text :=
  fixedASCII_eq_ok.mpr ⟨Nat.le_of_eq hlen, hall, by simp [hlen]⟩

/-! ## Counted commands -/

section Counted

variable {ρ : Type} {name : String} {commandID : UInt8} {maxCount size : ℕ}
  {build : ρ → Except String (List UInt8)}

/-- The records from the `i`-th on can be found one by one. -/
theorem exists_putRecords (name : String) {count : ℕ} (hlen : payload.length = 5 + count * size)
    (hrecord : ∀ i < count, ∃ r, build r = .ok (slice payload (5 + i * size) size)) :
    ∀ n i, i + n = count → ∃ records : List ρ, records.length = n ∧
      ∀ out, Filled 0 payload out (5 + i * size) →
        putRecords name size build records i (5 + i * size) out = .ok payload := by
  intro n
  induction n with
  | zero =>
      intro i hi
      refine ⟨[], rfl, fun out hout => ?_⟩
      rw [putRecords, hout.done (by rw [hlen, ← hi, Nat.add_zero])]
  | succ n ih =>
      intro i hi
      obtain ⟨r, hr⟩ := hrecord i (by omega)
      obtain ⟨records, hlength, hrest⟩ := ih (i + 1) (by omega)
      have hoff : 5 + i * size + size = 5 + (i + 1) * size := by rw [Nat.succ_mul, Nat.add_assoc]
      have hfit : 5 + (i + 1) * size ≤ payload.length := by
        have := Nat.mul_le_mul_right size (show i + 1 ≤ count by omega)
        omega
      refine ⟨r :: records, by rw [List.length_cons, hlength], fun out hout => ?_⟩
      rw [putRecords, wrapError_eq_ok.mpr hr, hoff]
      exact hrest _ (hoff ▸ hout.write (hoff ▸ hfit) rfl)

/-- If every record that passes the check can be built, so can every accepted payload. -/
theorem exists_buildCounted {range : ℕ → String} {check : ℕ → List UInt8 → Except String Unit}
    (hbuild : ∀ i record, record.length = size → check i record = .ok () →
      ∃ r, build r = .ok record)
    (hvalid : validateServerCommandPayload commandID payload = .ok ())
    (h : (validateCounted name maxCount size range payload >>= fun count =>
      validateRecords count size check payload) = .ok ()) :
    ∃ timestamp records,
      buildCounted name commandID maxCount size build timestamp records = .ok payload := by
  obtain ⟨count, hcounted, hchecks⟩ := bind_eq_ok.mp h
  obtain ⟨-, hcount, hlen, rfl⟩ := validateCounted_eq_ok.mp hcounted
  have hrecord : ∀ i < (payload.getD 4 0).toNat,
      ∃ r, build r = .ok (slice payload (5 + i * size) size) := by
    intro i hi
    have hfit : 5 + i * size + size ≤ payload.length := by
      have := Nat.mul_le_mul_right size (Nat.succ_le_of_lt hi)
      rw [Nat.succ_mul] at this
      omega
    exact hbuild i _ (length_slice hfit) (needAll_eq_ok.mp hchecks i hi)
  obtain ⟨records, hrecords, hput⟩ := exists_putRecords name hlen hrecord _ 0 (Nat.zero_add _)
  refine ⟨UInt32.ofNat (uint32At payload 0), records, ?_⟩
  have htime : Filled 0 payload _ 4 := (Filled.start 0 payload).write (by omega)
    ((congrArg putUint32 (toNat_ofNat_uint32At payload 0)).trans (putUint32_uint32At (by omega)))
  have hbyte : [UInt8.ofNat records.length] = slice payload 4 1 := by
    rw [hrecords, UInt8.ofNat_toNat, slice_one (by omega)]
  have hheader : Filled 0 payload _ 5 := htime.write (by omega) hbyte
  rw [hlen, ← hrecords] at hheader
  rw [Nat.zero_mul, Nat.add_zero] at hput
  rw [buildCounted, need_bind_eq_ok]
  refine ⟨by omega, ?_⟩
  exact bind_eq_ok.mpr ⟨payload, hput _ hheader, validated_eq_ok.mpr ⟨hvalid, rfl⟩⟩

theorem valid_of_buildCounted {timestamp : UInt32} {records : List ρ}
    (h : buildCounted name commandID maxCount size build timestamp records = .ok payload) :
    validateServerCommandPayload commandID payload = .ok () := by
  rw [buildCounted, need_bind_eq_ok] at h
  obtain ⟨-, out, -, h⟩ := h.imp_right bind_eq_ok.mp
  obtain ⟨hvalid, rfl⟩ := validated_eq_ok.mp h
  exact hvalid

end Counted

/-! ### Command 13 -/

/-- The field test of the validator allows only ASCII bytes. -/
theorem ascii_of_validatePaddedASCIIFrom {field : List UInt8} {i : ℕ} {seenZero : Bool}
    (h : validatePaddedASCIIFrom field i seenZero = .ok ()) : ∀ b ∈ field, b ≤ 127 := by
  induction field generalizing i seenZero with
  | nil => simp
  | cons b rest ih =>
      rw [validatePaddedASCIIFrom] at h
      by_cases hb : b = 0
      · rw [if_pos hb] at h
        exact List.forall_mem_cons.mpr ⟨hb ▸ by decide, ih h⟩
      · cases seenZero with
        | true => simp [hb] at h
        | false =>
            by_cases hascii : b > 127
            · simp [hb, hascii] at h
            · simp only [hb, hascii, if_false, Bool.false_eq_true] at h
              exact List.forall_mem_cons.mpr ⟨UInt8.not_lt.mp hascii, ih h⟩

def Cmd13IDRecord.decode (r : List UInt8) (h : r.length = cmd13RecordSize) : Cmd13IDRecord where
  slotIndex := UInt16.ofNat (uint16At r cmd13OffSlot)
  id := slice r cmd13OffID 10
  group := r.getD cmd13OffGroup 0
  banDate := UInt32.ofNat (uint32At r cmd13OffBanDate)
  lifetimeMinutes := UInt16.ofNat (uint16At r cmd13OffLifetime)
  idType := r.getD cmd13OffIDType 0
  reserve := arrayAt r cmd13OffReserve 12 (Nat.le_of_eq h.symm)

theorem validateCmd13Record_eq_ok {i : ℕ} : validateCmd13Record i record = .ok () ↔
    (uint16At record cmd13OffSlot ≠ 0 ∧ uint16At record cmd13OffSlot ≤ 50000) ∧
      validatePaddedASCII (slice record cmd13OffID 10) = .ok () ∧
        record.getD cmd13OffGroup 0 ≤ 64 ∧ isCmd13IDTypeValid (record.getD cmd13OffIDType 0) := by
  rw [validateCmd13Record, need_bind_eq_ok]
  refine and_congr_right fun _ => ?_
  rw [slice]
  cases validatePaddedASCII ((record.drop cmd13OffID).take 10) with
  | error err => simp
  | ok _ => simp [need_bind_eq_ok, need_eq_ok]

/-- Where a record stands plays no part in whether it passes. -/
theorem validateCmd13Record_index {i j : ℕ} (h : validateCmd13Record i record = .ok ()) :
    validateCmd13Record j record = .ok () := by
  rw [validateCmd13Record_eq_ok] at h ⊢
  exact h

theorem Cmd13IDRecord.build_decode {i : ℕ} (hlen : record.length = cmd13RecordSize)
    (h : validateCmd13Record i record = .ok ()) : (decode record hlen).build = .ok record := by
  obtain ⟨⟨hzero, hslot⟩, hfield, hgroup, htype⟩ := validateCmd13Record_eq_ok.mp h
  have hascii := ascii_of_validatePaddedASCIIFrom hfield
  have hsize : record.length = 32 := hlen
  have hindex := toNat_ofNat_uint16At record cmd13OffSlot
  have hrange : ¬ ((decode record hlen).slotIndex = 0 ∨ (decode record hlen).slotIndex > 50000) := by
    rw [← UInt16.toNat_inj, gt_iff_lt, UInt16.lt_iff_toNat_lt]
    change ¬ ((UInt16.ofNat (uint16At record cmd13OffSlot)).toNat = 0 ∨
      50000 < (UInt16.ofNat (uint16At record cmd13OffSlot)).toNat)
    omega
  have hid : fixedASCII (slice record cmd13OffID 10) 10 = .ok (slice record cmd13OffID 10) :=
    fixedASCII_full (length_slice (by rw [cmd13OffID]; omega)) hascii
  have f₁ : Filled 0 record _ 2 := (Filled.start 0 record).write (by omega)
    ((congrArg putUint16 hindex).trans (putUint16_uint16At (by rw [cmd13OffSlot]; omega)))
  have f₂ : Filled 0 record _ 12 := f₁.write (k := 10) (by omega) rfl
  have f₃ : Filled 0 record _ 13 := f₂.write (by omega) (slice_one (by omega))
  have f₄ : Filled 0 record _ 17 := f₃.write (by omega)
    ((congrArg putUint32 (toNat_ofNat_uint32At record 13)).trans (putUint32_uint32At (by omega)))
  have f₅ : Filled 0 record _ 19 := f₄.write (by omega)
    ((congrArg putUint16 (toNat_ofNat_uint16At record 17)).trans (putUint16_uint16At (by omega)))
  have f₆ : Filled 0 record _ 20 := f₅.write (by omega) (slice_one (by omega))
  have f₇ : Filled 0 record _ 32 := f₆.write (k := 12) (by omega) rfl
  rw [hsize] at f₇
  refine need_bind_eq_ok.mpr ⟨hrange, need_bind_eq_ok.mpr ⟨UInt8.not_lt.mpr hgroup, ?_⟩⟩
  refine need_bind_eq_ok.mpr ⟨htype, bind_eq_ok.mpr ⟨_, wrapError_eq_ok.mpr hid, ?_⟩⟩
  exact congrArg Except.ok (f₇.done hsize.symm)

/-! ### Commands 14 and 15 -/

section Single

variable {size : ℕ}

theorem singleRecord_eq (hlen : record.length = size) :
    singleRecord size record = [0, 0, 0, 0, 1] ++ record := by
  have hgoal : ([0, 0, 0, 0, 1] ++ record).length = 5 + size := by simp [hlen]; omega
  have f₁ : Filled 0 ([0, 0, 0, 0, 1] ++ record) _ 4 :=
    (Filled.start 0 _).skip (k := 4) (by omega) rfl
  have f₂ : Filled 0 ([0, 0, 0, 0, 1] ++ record) _ 5 := f₁.write (k := 1) (by omega) rfl
  have f₃ : Filled 0 ([0, 0, 0, 0, 1] ++ record) (writeAt _ 5 record) (5 + size) :=
    f₂.write (by omega) (by simp [slice, ← hlen])
  rw [hgoal] at f₃
  exact f₃.done hgoal.symm

/-- The validator looks at the record of a payload that has only this one. -/
theorem validate_singleRecord {name : String} {maxCount : ℕ} {range : ℕ → String}
    {check : ℕ → List UInt8 → Except String Unit} (hlen : record.length = size)
    (hmax : 1 ≤ maxCount) :
    (validateCounted name maxCount size range (singleRecord size record) >>= fun count =>
      validateRecords count size check (singleRecord size record)) = .ok () ↔
        check 0 record = .ok () := by
  rw [singleRecord_eq hlen]
  have hcounted : validateCounted name maxCount size range ([0, 0, 0, 0, 1] ++ record) = .ok 1 :=
    validateCounted_eq_ok.mpr ⟨by simp, ⟨Nat.le_refl 1, hmax⟩, by simp [hlen]; omega, rfl⟩
  rw [hcounted]
  refine needAll_eq_ok.trans ⟨fun h => ?_, fun h i hi => ?_⟩
  · simpa [← hlen] using h 0 Nat.one_pos
  · obtain rfl : i = 0 := by omega
    simpa [← hlen] using h

end Single

theorem validateCmd14Record_index {i j : ℕ} (h : validateCmd14Record i record = .ok ()) :
    validateCmd14Record j record = .ok () := by
  simpa only [validateCmd14Record, need_bind_eq_ok, check_bind_eq_ok, needAll_eq_ok, need_eq_ok]
    using h

theorem validateCmd15Record_index {i j : ℕ} (h : validateCmd15Record i record = .ok ()) :
    validateCmd15Record j record = .ok () := by
  simpa only [validateCmd15Record, need_bind_eq_ok, check_bind_eq_ok, needAll_eq_ok, need_eq_ok]
    using h

def Cmd14ScheduleRecord.decode (r : List UInt8) (h : r.length = cmd14RecordSize) :
    Cmd14ScheduleRecord where
  slot := r.getD cmd14OffSlot 0
  startHour := r.getD cmd14OffStartHour 0
  startMinute := r.getD cmd14OffStartMinute 0
  endHour := r.getD cmd14OffEndHour 0
  endMinute := r.getD cmd14OffEndMinute 0
  flags := arrayAt r cmd14OffFlags 8 (h ▸ by decide)
  scenes := arrayAt r cmd14OffScenes 8 (h ▸ by decide)
  holidayLogic := r.getD cmd14OffHolidayLogic 0
  reserve := arrayAt r cmd14OffReserve 10 (h ▸ by decide)

theorem Cmd14ScheduleRecord.build_decode {i : ℕ} (hlen : record.length = cmd14RecordSize)
    (h : validateCmd14Record i record = .ok ()) : (decode record hlen).build = .ok record := by
  have hsize : record.length = 32 := hlen
  have f₁ : Filled 0 record _ 1 := (Filled.start 0 record).write (by omega) (slice_one (by omega))
  have f₂ : Filled 0 record _ 2 := f₁.write (by omega) (slice_one (by omega))
  have f₃ : Filled 0 record _ 3 := f₂.write (by omega) (slice_one (by omega))
  have f₄ : Filled 0 record _ 4 := f₃.write (by omega) (slice_one (by omega))
  have f₅ : Filled 0 record _ 5 := f₄.write (by omega) (slice_one (by omega))
  have f₆ : Filled 0 record _ 13 := f₅.write (k := 8) (by omega) rfl
  have f₇ : Filled 0 record _ 21 := f₆.write (k := 8) (by omega) rfl
  have f₈ : Filled 0 record _ 22 := f₇.write (by omega) (slice_one (by omega))
  have f₉ : Filled 0 record _ 32 := f₈.write (k := 10) (by omega) rfl
  rw [hsize] at f₉
  have hsingle : validateServerCommandPayload 14 (singleRecord cmd14RecordSize record) = .ok () :=
    (validate_singleRecord hlen (by decide)).mpr (validateCmd14Record_index h)
  have hout := f₉.done hsize.symm
  refine check_bind_eq_ok.mpr ⟨(congrArg _ (congrArg _ hout)).trans hsingle, ?_⟩
  exact congrArg Except.ok hout

def Cmd15GroupRecord.decode (r : List UInt8) (h : r.length = cmd15RecordSize) :
    Cmd15GroupRecord where
  slot := r.getD cmd15OffSlot 0
  schedule := r.getD cmd15OffSchedule 0
  permissions := arrayAt r cmd15OffPermFlags 8 (h ▸ by decide)
  reserve := arrayAt r cmd15OffReserve 6 (h ▸ by decide)

theorem Cmd15GroupRecord.build_decode {i : ℕ} (hlen : record.length = cmd15RecordSize)
    (h : validateCmd15Record i record = .ok ()) : (decode record hlen).build = .ok record := by
  have hsize : record.length = 16 := hlen
  have f₁ : Filled 0 record _ 1 := (Filled.start 0 record).write (by omega) (slice_one (by omega))
  have f₂ : Filled 0 record _ 2 := f₁.write (by omega) (slice_one (by omega))
  have f₃ : Filled 0 record _ 10 := f₂.write (k := 8) (by omega) rfl
  have f₄ : Filled 0 record _ 16 := f₃.write (k := 6) (by omega) rfl
  rw [hsize] at f₄
  have hsingle : validateServerCommandPayload 15 (singleRecord cmd15RecordSize record) = .ok () :=
    (validate_singleRecord hlen (by decide)).mpr (validateCmd15Record_index h)
  have hout := f₄.done hsize.symm
  refine check_bind_eq_ok.mpr ⟨(congrArg _ (congrArg _ hout)).trans hsingle, ?_⟩
  exact congrArg Except.ok hout

/-! ### Command 16 -/

/-- The loop over the days, from the `i`-th on. -/
theorem exists_putDays {count : ℕ} (hlen : payload.length = 5 + count * 4) :
    ∀ n i, i + n = count → ∃ days : List UInt32, days.length = n ∧
      ∀ out, Filled 0 payload out (5 + i * 4) → putDays days (5 + i * 4) out = payload := by
  intro n
  induction n with
  | zero =>
      intro i hi
      exact ⟨[], rfl, fun out hout => hout.done (by omega)⟩
  | succ n ih =>
      intro i hi
      obtain ⟨days, hlength, hrest⟩ := ih (i + 1) (by omega)
      have hoff : 5 + i * 4 + 4 = 5 + (i + 1) * 4 := by omega
      have hday := toNat_ofNat_uint32At payload (5 + i * 4)
      refine ⟨UInt32.ofNat (uint32At payload (5 + i * 4)) :: days,
        by rw [List.length_cons, hlength], fun out hout => ?_⟩
      rw [putDays, hday, hoff]
      exact hrest _ (hoff ▸ hout.write (by omega) (putUint32_uint32At (by omega)))

theorem Cmd16SyncHolidayPayload.exists_build (h : validateCmd16 payload = .ok ()) :
    ∃ p : Cmd16SyncHolidayPayload, p.build = .ok payload := by
  obtain ⟨_, hcounted, -⟩ := bind_eq_ok.mp h
  obtain ⟨-, hcount, hlen, -⟩ := validateCounted_eq_ok.mp hcounted
  obtain ⟨days, hdays, hput⟩ := exists_putDays hlen _ 0 (Nat.zero_add _)
  refine ⟨⟨UInt32.ofNat (uint32At payload 0), days⟩, ?_⟩
  have f₁ : Filled 0 payload _ 4 := (Filled.start 0 payload).write (by omega)
    ((congrArg putUint32 (toNat_ofNat_uint32At payload 0)).trans (putUint32_uint32At (by omega)))
  have hbyte : [UInt8.ofNat days.length] = slice payload 4 1 := by
    rw [hdays, UInt8.ofNat_toNat, slice_one (by omega)]
  have f₂ : Filled 0 payload _ 5 := f₁.write (by omega) hbyte
  rw [hlen, ← hdays] at f₂
  have hout := hput _ f₂
  refine need_bind_eq_ok.mpr ⟨by dsimp only; omega, validated_eq_ok.mpr ⟨?_, hout⟩⟩
  exact (congrArg _ hout).trans h

/-! ## Commands 19 and 27 -/

theorem ofNat_uint32At_ne {bytes : List UInt8} {off : ℕ} (h : uint32At bytes off ≠ 0) :
    UInt32.ofNat (uint32At bytes off) ≠ 0 := by
  intro hzero
  apply h
  rw [← toNat_ofNat_uint32At, hzero]
  rfl

theorem ofNat_uint16At_ne {bytes : List UInt8} {off : ℕ} (h : uint16At bytes off ≠ 0) :
    UInt16.ofNat (uint16At bytes off) ≠ 0 := by
  intro hzero
  apply h
  rw [← toNat_ofNat_uint16At, hzero]
  rfl

theorem Cmd19StartFWPayload.exists_build (h : validateCmd19 payload = .ok ()) :
    ∃ p : Cmd19StartFWPayload, p.build = .ok payload := by
  have hvalid := h
  simp only [validateCmd19, needLength, need_bind_eq_ok, need_eq_ok] at h
  obtain ⟨hsize, -, hfile, hcrc, hblocks, hmatch⟩ := h
  refine ⟨⟨UInt16.ofNat (uint16At payload 0), UInt32.ofNat (uint32At payload 2),
    UInt32.ofNat (uint32At payload 6), UInt32.ofNat (uint32At payload 10),
    UInt16.ofNat (uint16At payload 14)⟩, ?_⟩
  have hcount : (if UInt16.ofNat (uint16At payload 14) = 0 then
      fwBlockCountForSize (UInt32.ofNat (uint32At payload 6)).toNat
      else (UInt16.ofNat (uint16At payload 14)).toNat) = uint16At payload 14 := by
    rw [if_neg (ofNat_uint16At_ne hblocks), toNat_ofNat_uint16At]
  have hwant : fwBlockCountForSize (UInt32.ofNat (uint32At payload 6)).toNat =
      uint16At payload 14 := by
    rw [toNat_ofNat_uint32At, hmatch]
  have f₁ : Filled 0 payload _ 2 := (Filled.start 0 payload).write (by omega)
    ((congrArg putUint16 (toNat_ofNat_uint16At payload 0)).trans (putUint16_uint16At (by omega)))
  have f₂ : Filled 0 payload _ 6 := f₁.write (by omega)
    ((congrArg putUint32 (toNat_ofNat_uint32At payload 2)).trans (putUint32_uint32At (by omega)))
  have f₃ : Filled 0 payload _ 10 := f₂.write (by omega)
    ((congrArg putUint32 (toNat_ofNat_uint32At payload 6)).trans (putUint32_uint32At (by omega)))
  have f₄ : Filled 0 payload _ 14 := f₃.write (by omega)
    ((congrArg putUint32 (toNat_ofNat_uint32At payload 10)).trans (putUint32_uint32At (by omega)))
  have f₅ : Filled 0 payload _ 16 := f₄.write (by omega)
    ((congrArg putUint16 hcount).trans (putUint16_uint16At (by omega)))
  rw [hsize] at f₅
  have hout := f₅.done hsize.symm
  refine need_bind_eq_ok.mpr ⟨ofNat_uint32At_ne hfile, ?_⟩
  refine need_bind_eq_ok.mpr ⟨ofNat_uint32At_ne hcrc, ?_⟩
  refine need_bind_eq_ok.mpr ⟨hcount.trans hwant.symm, validated_eq_ok.mpr ⟨?_, hout⟩⟩
  exact (congrArg _ hout).trans hvalid

theorem Cmd27CustomPayload.exists_build (h : validateCmd27 payload = .ok ()) :
    ∃ p : Cmd27CustomPayload, p.build = .ok payload := by
  have hvalid := h
  simp only [validateCmd27, need_bind_eq_ok, need_eq_ok, Nat.not_lt] at h
  obtain ⟨hshort, hargument⟩ := h
  have hlen : payload.length = 3 + (payload.drop 3).length := by rw [List.length_drop]; omega
  have hlt := uint16At_lt payload 1
  refine ⟨⟨payload.getD 0 0, payload.drop 3⟩, ?_⟩
  have f₁ : Filled 0 payload _ 1 := (Filled.start 0 payload).write (by omega)
    (slice_one (by omega))
  have f₂ : Filled 0 payload _ 3 := f₁.write (by omega)
    ((congrArg putUint16 hargument).trans (putUint16_uint16At (by omega)))
  have f₃ := f₂.write (k := (payload.drop 3).length) (by omega) rfl
  rw [slice, List.take_length] at f₃
  have hout := f₃.done hlen.symm
  rw [hlen] at hout
  refine need_bind_eq_ok.mpr ⟨by dsimp only; omega, validated_eq_ok.mpr ⟨?_, hout⟩⟩
  exact (congrArg _ hout).trans hvalid

/-! ## The typed builders -/

/-- An input of a typed builder. -/
inductive TypedPayload where
  | sendSMS (p : Cmd11SendSMSPayload)
  | settings (p : Cmd12SettingsPayload)
  | syncID (p : Cmd13SyncIDStructuredPayload)
  | syncSchedule (p : Cmd14SyncScheduleStructuredPayload)
  | syncGroup (p : Cmd15SyncGroupStructuredPayload)
  | syncHoliday (p : Cmd16SyncHolidayPayload)
  | startFW (p : Cmd19StartFWPayload)
  | bindingResponse (p : Cmd25BindingResponsePayload)
  | custom (p : Cmd27CustomPayload)

namespace TypedPayload

def commandID : TypedPayload → UInt8
  | sendSMS _ => 11
  | settings _ => 12
  | syncID _ => 13
  | syncSchedule _ => 14
  | syncGroup _ => 15
  | syncHoliday _ => 16
  | startFW _ => 19
  | bindingResponse _ => 25
  | custom _ => 27

def build : TypedPayload → Except String (List UInt8)
  | sendSMS p => p.build
  | settings p => p.build
  | syncID p => p.build
  | syncSchedule p => p.build
  | syncGroup p => p.build
  | syncHoliday p => p.build
  | startFW p => p.build
  | bindingResponse p => p.build
  | custom p => p.build

end TypedPayload

/-- `payload` is what a typed builder of this command returns. -/
def Buildable (commandID : UInt8) (payload : List UInt8) : Prop :=
  ∃ p : TypedPayload, p.commandID = commandID ∧ p.build = .ok payload

/-- No builder returns what the validator refuses. -/
theorem Buildable.valid {commandID : UInt8} (h : Buildable commandID payload) :
    validateServerCommandPayload commandID payload = .ok () := by
  obtain ⟨p, rfl, hbuild⟩ := h
  cases p with
  | sendSMS p =>
      obtain ⟨-, h⟩ := need_bind_eq_ok.mp hbuild
      obtain ⟨_, -, h⟩ := bind_eq_ok.mp h
      obtain ⟨_, -, h⟩ := bind_eq_ok.mp h
      obtain ⟨hvalid, rfl⟩ := validated_eq_ok.mp h
      exact hvalid
  | settings p =>
      obtain ⟨_, -, h⟩ := bind_eq_ok.mp hbuild
      obtain ⟨hvalid, rfl⟩ := validated_eq_ok.mp h
      exact hvalid
  | syncID p => exact valid_of_buildCounted hbuild
  | syncSchedule p => exact valid_of_buildCounted hbuild
  | syncGroup p => exact valid_of_buildCounted hbuild
  | syncHoliday p =>
      obtain ⟨-, h⟩ := need_bind_eq_ok.mp hbuild
      obtain ⟨hvalid, rfl⟩ := validated_eq_ok.mp h
      exact hvalid
  | startFW p =>
      obtain ⟨-, h⟩ := need_bind_eq_ok.mp hbuild
      obtain ⟨-, h⟩ := need_bind_eq_ok.mp h
      obtain ⟨-, h⟩ := need_bind_eq_ok.mp h
      obtain ⟨hvalid, rfl⟩ := validated_eq_ok.mp h
      exact hvalid
  | bindingResponse p =>
      obtain ⟨-, h⟩ := need_bind_eq_ok.mp hbuild
      obtain ⟨-, h⟩ := need_bind_eq_ok.mp h
      obtain ⟨_, -, h⟩ := bind_eq_ok.mp h
      obtain ⟨_, -, h⟩ := bind_eq_ok.mp h
      obtain ⟨_, -, h⟩ := bind_eq_ok.mp h
      obtain ⟨hvalid, rfl⟩ := validated_eq_ok.mp h
      exact hvalid
  | custom p =>
      obtain ⟨-, h⟩ := need_bind_eq_ok.mp hbuild
      obtain ⟨hvalid, rfl⟩ := validated_eq_ok.mp h
      exact hvalid

/-- The commands whose payloads consist of numbers and records. -/
def recordCommands : List UInt8 :=
  [13, 14, 15, 16, 19, 27]

theorem buildable_of_valid {commandID : UInt8} (hid : commandID ∈ recordCommands)
    (h : validateServerCommandPayload commandID payload = .ok ()) :
    Buildable commandID payload := by
  simp only [recordCommands, List.mem_cons, List.not_mem_nil, or_false] at hid
  obtain rfl | rfl | rfl | rfl | rfl | rfl := hid
  · obtain ⟨timestamp, records, hbuild⟩ := exists_buildCounted
      (fun i record hlen hcheck => ⟨_, Cmd13IDRecord.build_decode hlen hcheck⟩) h h
    exact ⟨.syncID ⟨timestamp, records⟩, rfl, hbuild⟩
  · obtain ⟨timestamp, records, hbuild⟩ := exists_buildCounted
      (fun i record hlen hcheck => ⟨_, Cmd14ScheduleRecord.build_decode hlen hcheck⟩) h h
    exact ⟨.syncSchedule ⟨timestamp, records⟩, rfl, hbuild⟩
  · obtain ⟨timestamp, records, hbuild⟩ := exists_buildCounted
      (fun i record hlen hcheck => ⟨_, Cmd15GroupRecord.build_decode hlen hcheck⟩) h h
    exact ⟨.syncGroup ⟨timestamp, records⟩, rfl, hbuild⟩
  · obtain ⟨p, hbuild⟩ := Cmd16SyncHolidayPayload.exists_build h
    exact ⟨.syncHoliday p, rfl, hbuild⟩
  · obtain ⟨p, hbuild⟩ := Cmd19StartFWPayload.exists_build h
    exact ⟨.startFW p, rfl, hbuild⟩
  · obtain ⟨p, hbuild⟩ := Cmd27CustomPayload.exists_build h
    exact ⟨.custom p, rfl, hbuild⟩

/-- For the record commands the validator accepts exactly what the typed builders return. -/
theorem valid_iff_buildable (commandID : UInt8) (hid : commandID ∈ recordCommands)
    (payload : List UInt8) :
    validateServerCommandPayload commandID payload = .ok () ↔ Buildable commandID payload :=
  ⟨buildable_of_valid hid, Buildable.valid⟩

theorem custom_argument_buildable : (27 : UInt8) ∈ recordCommands ∧ Buildable 27 [7, 1, 0, 0x41] :=
  ⟨by decide, (valid_iff_buildable 27 (by decide) [7, 1, 0, 0x41]).mp (by decide)⟩

end TcpAdapter.Protocol
