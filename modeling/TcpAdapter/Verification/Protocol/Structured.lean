import TcpAdapter.Verification.Protocol.Records

/-! # Records alone and in a payload

The structured builders of commands 13, 14 and 15 build the records one by one, put them in a
row and let the validator look at the whole payload. It finds the built records again, so the
payload is built exactly if each record is built and passes the validator's check of a record.
The records of commands 14 and 15 are built under that same check. Those of command 13 are built
under checks of their own, which say nothing about a zero byte inside an id.

The raw builders take records that are bytes already. On the built records they do the same. -/

namespace TcpAdapter.Protocol

open TcpAdapter.Codec

variable {payload record : List UInt8}

/-! ## Records in a row -/

section Counted

variable {ρ : Type} {name : String} {commandID : UInt8} {maxCount size : ℕ}
  {build : ρ → Except String (List UInt8)} {records : List ρ} {built : List (List UInt8)}

/-- The record loop builds every record and puts the results in a row behind the fields that
the buffer has. -/
theorem putRecords_eq_ok (hsize : ∀ r b, build r = .ok b → b.length = size) {i off total : ℕ}
    {out final : List UInt8} {fields : List (List UInt8)} (hlaid : Laid 0 total out fields off)
    (htotal : off + records.length * size = total) :
    putRecords name size build records i off out = .ok final ↔
      ∃ built : List (List UInt8), records.map build = built.map .ok ∧
        (fields ++ built).flatten = final := by
  induction records generalizing i off out fields with
  | nil =>
      rw [List.length_nil, Nat.zero_mul, Nat.add_zero] at htotal
      rw [putRecords, hlaid.done htotal]
      simp
  | cons r rest ih =>
      rw [List.length_cons, Nat.succ_mul] at htotal
      have hnext : ∀ b, build r = .ok b →
          Laid 0 total (writeAt out off b) (fields ++ [b]) (off + size) :=
        fun b hb => hlaid.write (hsize r b hb) (by omega)
      rw [putRecords, bind_eq_ok]
      constructor
      · rintro ⟨b, hb, h⟩
        have hb := wrapError_eq_ok.mp hb
        obtain ⟨built, hbuilt, rfl⟩ := (ih (hnext b hb) (by omega)).mp h
        exact ⟨b :: built, by simp [hb, hbuilt], by simp⟩
      · rintro ⟨built, hbuilt, rfl⟩
        cases built with
        | nil => simp at hbuilt
        | cons b built =>
            obtain ⟨hb, hbuilt⟩ := List.cons.inj hbuilt
            refine ⟨b, wrapError_eq_ok.mpr hb, ?_⟩
            exact (ih (hnext b hb) (by omega)).mpr ⟨built, hbuilt, by simp⟩

theorem length_flatten_of_forall (hlen : ∀ b ∈ built, b.length = size) :
    built.flatten.length = built.length * size := by
  induction built with
  | nil => simp
  | cons b rest ih =>
      obtain ⟨hb, hrest⟩ := List.forall_mem_cons.mp hlen
      rw [List.flatten_cons, List.length_append, ih hrest, hb, List.length_cons, Nat.succ_mul,
        Nat.add_comm]

/-- Records of one size are found again in a row. -/
theorem slice_flatten (hlen : ∀ b ∈ built, b.length = size) (header : List UInt8) {i : ℕ}
    (hi : i < built.length) :
    slice (header ++ built.flatten) (header.length + i * size) size = built[i] := by
  induction built generalizing header i with
  | nil => simp at hi
  | cons b rest ih =>
      obtain ⟨hb, hrest⟩ := List.forall_mem_cons.mp hlen
      cases i with
      | zero => simp [slice, ← hb]
      | succ i =>
          have h := ih hrest (header ++ b) (Nat.lt_of_succ_lt_succ hi)
          rw [List.length_append, hb, List.append_assoc] at h
          rw [Nat.succ_mul, List.flatten_cons, Nat.add_comm (i * size), ← Nat.add_assoc, h]
          rfl

/-- The payload of a counted command: the timestamp, the count and the records. -/
def countedPayload (timestamp : UInt32) (built : List (List UInt8)) : List UInt8 :=
  putUint32 timestamp.toNat ++ [UInt8.ofNat built.length] ++ built.flatten

/-- The validator looks at the records that were put in. -/
theorem validate_countedPayload {range : ℕ → String} {check : ℕ → List UInt8 → Except String Unit}
    (timestamp : UInt32) (hlen : ∀ b ∈ built, b.length = size) (hmax : maxCount ≤ 255)
    (hcount : 1 ≤ built.length ∧ built.length ≤ maxCount) :
    (validateCounted name maxCount size range (countedPayload timestamp built) >>= fun count =>
      validateRecords count size check (countedPayload timestamp built)) = .ok () ↔
        ∀ i (hi : i < built.length), check i built[i] = .ok () := by
  have hbyte : ((countedPayload timestamp built).getD 4 0).toNat = built.length := by
    exact UInt8.toNat_ofNat_of_lt' (by change built.length < 256; omega)
  have hsize : (countedPayload timestamp built).length = 5 + built.length * size := by
    rw [countedPayload, List.length_append, length_flatten_of_forall hlen]
    rfl
  have hcounted : validateCounted name maxCount size range (countedPayload timestamp built) =
      .ok built.length :=
    validateCounted_eq_ok.mpr ⟨by omega, by rwa [hbyte], by rw [hbyte, hsize], hbyte⟩
  rw [hcounted]
  refine needAll_eq_ok.trans (forall_congr' fun i => forall_congr' fun hi => ?_)
  rw [← slice_flatten hlen (putUint32 timestamp.toNat ++ [UInt8.ofNat built.length]) hi]
  rfl

/-- A structured builder builds the records and has the payload validated. -/
theorem buildCounted_eq_ok (hsize : ∀ r b, build r = .ok b → b.length = size)
    {timestamp : UInt32} (hcount : 1 ≤ records.length ∧ records.length ≤ maxCount) :
    buildCounted name commandID maxCount size build timestamp records = .ok payload ↔
      ∃ built : List (List UInt8), records.map build = built.map .ok ∧
        validateServerCommandPayload commandID (countedPayload timestamp built) = .ok () ∧
          countedPayload timestamp built = payload := by
  have l₁ : Laid 0 (5 + records.length * size) _ [putUint32 timestamp.toNat] 4 :=
    (Laid.start 0 _).write (k := 4) rfl (by omega)
  have l₂ : Laid 0 (5 + records.length * size) _
      [putUint32 timestamp.toNat, [UInt8.ofNat records.length]] 5 :=
    l₁.write (k := 1) rfl (by omega)
  have hheader : ∀ built : List (List UInt8), records.map build = built.map .ok →
      ([putUint32 timestamp.toNat, [UInt8.ofNat records.length]] ++ built).flatten =
        countedPayload timestamp built := by
    intro built hbuilt
    have hsame : records.length = built.length := by simpa using congrArg List.length hbuilt
    simp [countedPayload, hsame]
  rw [buildCounted, need_bind_eq_ok, bind_eq_ok]
  constructor
  · rintro ⟨-, out, hout, h⟩
    obtain ⟨built, hbuilt, rfl⟩ := (putRecords_eq_ok hsize l₂ rfl).mp hout
    rw [hheader built hbuilt, validated_eq_ok] at h
    exact ⟨built, hbuilt, h⟩
  · rintro ⟨built, hbuilt, h⟩
    refine ⟨by omega, _, (putRecords_eq_ok hsize l₂ rfl).mpr ⟨built, hbuilt, rfl⟩, ?_⟩
    rwa [hheader built hbuilt, validated_eq_ok]

theorem forall_built_iff {P : List UInt8 → Prop} :
    (∃ built : List (List UInt8), records.map build = built.map .ok ∧ ∀ b ∈ built, P b) ↔
      ∀ r ∈ records, ∃ b, build r = .ok b ∧ P b := by
  induction records with
  | nil => simp
  | cons r rest ih =>
      rw [List.forall_mem_cons, ← ih]
      constructor
      · rintro ⟨built, hbuilt, hP⟩
        cases built with
        | nil => simp at hbuilt
        | cons b built =>
            obtain ⟨hb, hbuilt⟩ := List.cons.inj hbuilt
            obtain ⟨hPb, hP⟩ := List.forall_mem_cons.mp hP
            exact ⟨⟨b, hb, hPb⟩, built, hbuilt, hP⟩
      · rintro ⟨⟨b, hb, hPb⟩, built, hbuilt, hP⟩
        exact ⟨b :: built, by simp [hb, hbuilt], List.forall_mem_cons.mpr ⟨hPb, hP⟩⟩

/-- A payload is built exactly if each of its records is built and passes the validator. -/
theorem buildCounted_succeeds {range : ℕ → String} {check : ℕ → List UInt8 → Except String Unit}
    (hvalidate : ∀ payload, validateServerCommandPayload commandID payload =
      (validateCounted name maxCount size range payload >>= fun count =>
        validateRecords count size check payload))
    (hindex : ∀ i j record, check i record = .ok () → check j record = .ok ())
    (hsize : ∀ r b, build r = .ok b → b.length = size) (hmax : maxCount ≤ 255)
    {timestamp : UInt32} (hcount : 1 ≤ records.length ∧ records.length ≤ maxCount) :
    (∃ payload, buildCounted name commandID maxCount size build timestamp records = .ok payload) ↔
      ∀ r ∈ records, ∃ b, build r = .ok b ∧ check 0 b = .ok () := by
  rw [← forall_built_iff]
  have hbuilt : ∀ built : List (List UInt8), records.map build = built.map .ok →
      (validateServerCommandPayload commandID (countedPayload timestamp built) = .ok () ↔
        ∀ b ∈ built, check 0 b = .ok ()) := by
    intro built hbuilt
    have hsame : records.length = built.length := by simpa using congrArg List.length hbuilt
    have hlen : ∀ b ∈ built, b.length = size := by
      intro b hb
      have hmem : Except.ok b ∈ records.map build := hbuilt ▸ List.mem_map_of_mem hb
      obtain ⟨r, -, hr⟩ := List.mem_map.mp hmem
      exact hsize r b hr
    rw [hvalidate, validate_countedPayload timestamp hlen hmax (hsame ▸ hcount),
      List.forall_mem_iff_forall_getElem]
    exact forall_congr' fun i => forall_congr' fun hi => ⟨hindex i 0 _, hindex 0 i _⟩
  constructor
  · rintro ⟨payload, h⟩
    obtain ⟨built, hmap, hvalid, -⟩ := (buildCounted_eq_ok hsize hcount).mp h
    exact ⟨built, hmap, (hbuilt built hmap).mp hvalid⟩
  · rintro ⟨built, hmap, hcheck⟩
    exact ⟨_, (buildCounted_eq_ok hsize hcount).mpr
      ⟨built, hmap, (hbuilt built hmap).mpr hcheck, rfl⟩⟩

end Counted

/-! ## Commands 14 and 15 -/

/-- The record is checked as it is in a payload. -/
theorem Cmd14ScheduleRecord.build_spec {r : Cmd14ScheduleRecord} {b : List UInt8}
    (h : r.build = .ok b) : b.length = cmd14RecordSize ∧ validateCmd14Record 0 b = .ok () := by
  obtain ⟨hvalid, hout⟩ := check_bind_eq_ok.mp h
  have l₁ := (Laid.start 0 32).write (show [r.slot].length = 1 from rfl) (by decide)
  have l₂ := l₁.write (show [r.startHour].length = 1 from rfl) (by decide)
  have l₃ := l₂.write (show [r.startMinute].length = 1 from rfl) (by decide)
  have l₄ := l₃.write (show [r.endHour].length = 1 from rfl) (by decide)
  have l₅ := l₄.write (show [r.endMinute].length = 1 from rfl) (by decide)
  have l₆ := l₅.write r.flags.2 (by decide)
  have l₇ := l₆.write r.scenes.2 (by decide)
  have l₈ := l₇.write (show [r.holidayLogic].length = 1 from rfl) (by decide)
  have l₉ := l₈.write r.reserve.2 (by decide)
  have hlen : b.length = cmd14RecordSize := by
    rw [← Except.ok.inj hout]
    exact (congrArg List.length (l₉.done rfl)).trans l₉.length
  rw [Except.ok.inj hout] at hvalid
  exact ⟨hlen, (validate_singleRecord hlen (by decide)).mp hvalid⟩

theorem Cmd15GroupRecord.build_spec {r : Cmd15GroupRecord} {b : List UInt8}
    (h : r.build = .ok b) : b.length = cmd15RecordSize ∧ validateCmd15Record 0 b = .ok () := by
  obtain ⟨hvalid, hout⟩ := check_bind_eq_ok.mp h
  have l₁ := (Laid.start 0 16).write (show [r.slot].length = 1 from rfl) (by decide)
  have l₂ := l₁.write (show [r.schedule].length = 1 from rfl) (by decide)
  have l₃ := l₂.write r.permissions.2 (by decide)
  have l₄ := l₃.write r.reserve.2 (by decide)
  have hlen : b.length = cmd15RecordSize := by
    rw [← Except.ok.inj hout]
    exact (congrArg List.length (l₄.done rfl)).trans l₄.length
  rw [Except.ok.inj hout] at hvalid
  exact ⟨hlen, (validate_singleRecord hlen (by decide)).mp hvalid⟩

/-! ## Command 13 -/

/-- No byte but zero behind the first zero. -/
def ZerosTrail (text : List UInt8) : Prop :=
  ∀ b ∈ text.dropWhile (· ≠ 0), b = 0

instance (text : List UInt8) : Decidable (ZerosTrail text) :=
  decidable_of_iff ((text.dropWhile (· ≠ 0)).all (· = 0))
    (by simp only [ZerosTrail, List.all_eq_true, decide_eq_true_eq])

theorem zerosTrail_cons {b : UInt8} {rest : List UInt8} :
    ZerosTrail (b :: rest) ↔ if b = 0 then ∀ c ∈ rest, c = 0 else ZerosTrail rest := by
  by_cases hb : b = 0 <;> simp [ZerosTrail, hb]

/-- The padding of a field changes nothing. -/
theorem zerosTrail_padded (text : List UInt8) (n : ℕ) :
    ZerosTrail (text ++ List.replicate n 0) ↔ ZerosTrail text := by
  induction text with
  | nil =>
      refine iff_of_true (fun b hb => ?_) (by simp [ZerosTrail])
      exact List.eq_of_mem_replicate ((List.dropWhile_sublist _).subset hb)
  | cons b rest ih =>
      rw [List.cons_append, zerosTrail_cons, zerosTrail_cons, ih]
      split
      · simp only [List.forall_mem_append, and_iff_left_iff_imp]
        exact fun _ c hc => List.eq_of_mem_replicate hc
      · rfl

/-- After a zero the field test wants zeros. -/
theorem validatePaddedASCIIFrom_zeros {field : List UInt8} {i : ℕ} :
    validatePaddedASCIIFrom field i true = .ok () ↔ ∀ b ∈ field, b = 0 := by
  induction field generalizing i with
  | nil => simp [validatePaddedASCIIFrom]
  | cons b rest ih =>
      rw [validatePaddedASCIIFrom, List.forall_mem_cons]
      by_cases hb : b = 0
      · rw [if_pos hb, ih]
        simp [hb]
      · simp [hb]

theorem validatePaddedASCIIFrom_eq_ok {field : List UInt8} {i : ℕ} (hascii : ∀ b ∈ field, b ≤ 127) :
    validatePaddedASCIIFrom field i false = .ok () ↔ ZerosTrail field := by
  induction field generalizing i with
  | nil => simp [validatePaddedASCIIFrom, ZerosTrail]
  | cons b rest ih =>
      obtain ⟨hb, hrest⟩ := List.forall_mem_cons.mp hascii
      rw [validatePaddedASCIIFrom, zerosTrail_cons]
      by_cases hzero : b = 0
      · rw [if_pos hzero, if_pos hzero, validatePaddedASCIIFrom_zeros]
      · rw [if_neg hzero, if_neg hzero, if_neg Bool.false_ne_true, if_neg (UInt8.not_lt.mpr hb),
          ih hrest]

/-- What the builder of a record asks of its fields. -/
structure Cmd13IDRecord.InRange (r : Cmd13IDRecord) : Prop where
  slot : r.slotIndex ≠ 0 ∧ r.slotIndex ≤ 50000
  group : r.group ≤ 64
  idType : isCmd13IDTypeValid r.idType
  length : r.id.length ≤ 10
  ascii : ∀ b ∈ r.id, b ≤ 127

namespace Cmd13IDRecord

variable {r : Cmd13IDRecord}

/-- The place of the id in a record. -/
def idField (r : Cmd13IDRecord) : List UInt8 :=
  r.id ++ List.replicate (10 - r.id.length) 0

def fields (r : Cmd13IDRecord) : List (List UInt8) :=
  [putUint16 r.slotIndex.toNat, r.idField, [r.group], putUint32 r.banDate.toNat,
    putUint16 r.lifetimeMinutes.toNat, [r.idType], r.reserve.1]

theorem length_idField (hlen : r.id.length ≤ 10) : r.idField.length = 10 := by
  rw [idField, List.length_append, List.length_replicate]
  omega

theorem layout (hlen : r.id.length ≤ 10) :
    writeAt (writeAt (writeAt (writeAt (writeAt (writeAt (writeAt (makeBytes cmd13RecordSize)
      cmd13OffSlot (putUint16 r.slotIndex.toNat)) cmd13OffID r.idField) cmd13OffGroup [r.group])
      cmd13OffBanDate (putUint32 r.banDate.toNat)) cmd13OffLifetime
      (putUint16 r.lifetimeMinutes.toNat)) cmd13OffIDType [r.idType]) cmd13OffReserve r.reserve.1 =
        r.fields.flatten := by
  have l₁ := (Laid.start 0 32).write (putUint16_length r.slotIndex.toNat) (by decide)
  have l₂ := l₁.write (length_idField hlen) (by decide)
  have l₃ := l₂.write (show [r.group].length = 1 from rfl) (by decide)
  have l₄ := l₃.write (putUint32_length r.banDate.toNat) (by decide)
  have l₅ := l₄.write (putUint16_length r.lifetimeMinutes.toNat) (by decide)
  have l₆ := l₅.write (show [r.idType].length = 1 from rfl) (by decide)
  have l₇ := l₆.write r.reserve.2 (by decide)
  exact l₇.done rfl

theorem build_eq_ok {b : List UInt8} : r.build = .ok b ↔ r.InRange ∧ r.fields.flatten = b := by
  constructor
  · intro h
    obtain ⟨hslot, h⟩ := need_bind_eq_ok.mp h
    obtain ⟨hgroup, h⟩ := need_bind_eq_ok.mp h
    obtain ⟨htype, h⟩ := need_bind_eq_ok.mp h
    obtain ⟨_, hid, h⟩ := bind_eq_ok.mp h
    obtain ⟨hlen, hascii, rfl⟩ := fixedASCII_eq_ok.mp (wrapError_eq_ok.mp hid)
    obtain ⟨hzero, hslot⟩ := not_or.mp hslot
    refine ⟨⟨⟨hzero, UInt16.not_lt.mp hslot⟩, UInt8.not_lt.mp hgroup, htype, hlen, hascii⟩, ?_⟩
    exact (layout hlen).symm.trans (Except.ok.inj h)
  · rintro ⟨hr, rfl⟩
    refine need_bind_eq_ok.mpr ⟨not_or.mpr ⟨hr.slot.1, UInt16.not_lt.mpr hr.slot.2⟩, ?_⟩
    refine need_bind_eq_ok.mpr ⟨UInt8.not_lt.mpr hr.group, need_bind_eq_ok.mpr ⟨hr.idType, ?_⟩⟩
    refine bind_eq_ok.mpr ⟨r.idField, wrapError_eq_ok.mpr ?_, ?_⟩
    · exact fixedASCII_eq_ok.mpr ⟨hr.length, hr.ascii, rfl⟩
    · exact congrArg Except.ok (layout hr.length)

theorem length_fields (hlen : r.id.length ≤ 10) : r.fields.flatten.length = cmd13RecordSize := by
  simp [fields, length_idField hlen, r.reserve.2, cmd13RecordSize]

theorem length_build (r : Cmd13IDRecord) (b : List UInt8) (h : r.build = .ok b) :
    b.length = cmd13RecordSize := by
  obtain ⟨hr, rfl⟩ := build_eq_ok.mp h
  exact length_fields hr.length

theorem slot_fields (r : Cmd13IDRecord) :
    uint16At r.fields.flatten cmd13OffSlot = r.slotIndex.toNat := by
  have hlt := r.slotIndex.toNat_lt
  simp only [fields, uint16At, putUint16, List.flatten_cons, List.cons_append, List.nil_append,
    cmd13OffSlot, List.getD_cons_zero, List.getD_cons_succ, UInt8.toNat_ofNat']
  omega

/-- The validator accepts what the builder wrote unless the id goes on after a zero. -/
theorem validate_fields (hr : r.InRange) :
    validateCmd13Record 0 r.fields.flatten = .ok () ↔ ZerosTrail r.id := by
  have hid := length_idField hr.length
  have hlen : r.fields.flatten.length = 32 := length_fields hr.length
  have hcut := (eq_flatten_iff [2, 10, 1, 4, 2, 1, 12] (by simp [fields, hid, r.reserve.2])
    hlen).mp rfl
  simp only [cut, fields, List.cons.injEq, Nat.zero_add, Nat.reduceAdd] at hcut
  obtain ⟨-, hfield, hgroup, -, -, htype, -⟩ := hcut
  have hfield : slice r.fields.flatten cmd13OffID 10 = r.idField := hfield
  have hgroup : r.fields.flatten.getD cmd13OffGroup 0 = r.group :=
    List.singleton_inj.mp ((slice_one (hlen ▸ by decide)).trans hgroup)
  have htype : r.fields.flatten.getD cmd13OffIDType 0 = r.idType :=
    List.singleton_inj.mp ((slice_one (hlen ▸ by decide)).trans htype)
  have hslot : r.slotIndex.toNat ≠ 0 ∧ r.slotIndex.toNat ≤ 50000 :=
    ⟨fun h => hr.slot.1 (UInt16.toNat_inj.mp h), UInt16.le_iff_toNat_le.mp hr.slot.2⟩
  have hascii : ∀ b ∈ r.idField, b ≤ 127 := by
    intro b hb
    obtain hb | hb := List.mem_append.mp hb
    · exact hr.ascii b hb
    · rw [List.eq_of_mem_replicate hb]
      decide
  rw [validateCmd13Record_eq_ok, slot_fields, hgroup, htype, hfield, validatePaddedASCII,
    validatePaddedASCIIFrom_eq_ok hascii, idField, zerosTrail_padded]
  exact ⟨fun h => h.2.1, fun h => ⟨hslot, h, hr.group, hr.idType⟩⟩

end Cmd13IDRecord

/-! ## Structured payloads -/

/-- The input of a structured builder. -/
inductive StructuredPayload where
  | syncID (p : Cmd13SyncIDStructuredPayload)
  | syncSchedule (p : Cmd14SyncScheduleStructuredPayload)
  | syncGroup (p : Cmd15SyncGroupStructuredPayload)

namespace StructuredPayload

def build : StructuredPayload → Except String (List UInt8)
  | syncID p => p.build
  | syncSchedule p => p.build
  | syncGroup p => p.build

/-- The number of records is one that the command allows. -/
def CountInRange : StructuredPayload → Prop
  | syncID p => 1 ≤ p.records.length ∧ p.records.length ≤ 250
  | syncSchedule p => 1 ≤ p.records.length ∧ p.records.length ≤ 64
  | syncGroup p => 1 ≤ p.records.length ∧ p.records.length ≤ 64

/-- Every record can be built by itself. -/
def RecordsBuild : StructuredPayload → Prop
  | syncID p => ∀ r ∈ p.records, ∃ b, r.build = .ok b
  | syncSchedule p => ∀ r ∈ p.records, ∃ b, r.build = .ok b
  | syncGroup p => ∀ r ∈ p.records, ∃ b, r.build = .ok b

/-- No id goes on after a zero, or another field of some record is out of range anyway. -/
def PlainIDs : StructuredPayload → Prop
  | syncID p => (∀ r ∈ p.records, r.InRange) → ∀ r ∈ p.records, ZerosTrail r.id
  | _ => True

theorem syncID_builds {p : Cmd13SyncIDStructuredPayload} (hcount : (syncID p).CountInRange) :
    (∃ payload, p.build = .ok payload) ↔ ∀ r ∈ p.records, r.InRange ∧ ZerosTrail r.id := by
  have hvalidate : ∀ payload, validateServerCommandPayload 13 payload = validateCmd13 payload :=
    fun _ => rfl
  refine (buildCounted_succeeds hvalidate (fun _ _ _ => validateCmd13Record_index)
    Cmd13IDRecord.length_build (by decide) hcount).trans
      (forall_congr' fun r => forall_congr' fun _ => ?_)
  constructor
  · rintro ⟨b, hb, hcheck⟩
    obtain ⟨hr, rfl⟩ := Cmd13IDRecord.build_eq_ok.mp hb
    exact ⟨hr, (Cmd13IDRecord.validate_fields hr).mp hcheck⟩
  · rintro ⟨hr, hid⟩
    exact ⟨_, Cmd13IDRecord.build_eq_ok.mpr ⟨hr, rfl⟩, (Cmd13IDRecord.validate_fields hr).mpr hid⟩

theorem syncSchedule_builds {p : Cmd14SyncScheduleStructuredPayload}
    (hcount : (syncSchedule p).CountInRange) :
    (∃ payload, p.build = .ok payload) ↔ ∀ r ∈ p.records, ∃ b, r.build = .ok b := by
  have hvalidate : ∀ payload, validateServerCommandPayload 14 payload = validateCmd14 payload :=
    fun _ => rfl
  refine (buildCounted_succeeds hvalidate (fun _ _ _ => validateCmd14Record_index)
    (fun _ _ h => (Cmd14ScheduleRecord.build_spec h).1) (by decide) hcount).trans
    (forall_congr' fun r => forall_congr' fun _ => exists_congr fun b => ?_)
  exact and_iff_left_of_imp fun hb => (Cmd14ScheduleRecord.build_spec hb).2

theorem syncGroup_builds {p : Cmd15SyncGroupStructuredPayload}
    (hcount : (syncGroup p).CountInRange) :
    (∃ payload, p.build = .ok payload) ↔ ∀ r ∈ p.records, ∃ b, r.build = .ok b := by
  have hvalidate : ∀ payload, validateServerCommandPayload 15 payload = validateCmd15 payload :=
    fun _ => rfl
  refine (buildCounted_succeeds hvalidate (fun _ _ _ => validateCmd15Record_index)
    (fun _ _ h => (Cmd15GroupRecord.build_spec h).1) (by decide) hcount).trans
    (forall_congr' fun r => forall_congr' fun _ => exists_congr fun b => ?_)
  exact and_iff_left_of_imp fun hb => (Cmd15GroupRecord.build_spec hb).2

/-- A structured payload is built exactly if all its records are, unless the id of a command 13
record goes on after a zero byte: such a record can be built, but no payload holds it. -/
theorem build_iff_records_iff (p : StructuredPayload) (hcount : p.CountInRange) :
    ((∃ payload, p.build = .ok payload) ↔ p.RecordsBuild) ↔ p.PlainIDs := by
  cases p with
  | syncID p =>
      have hrecord : ∀ r : Cmd13IDRecord, (∃ b, r.build = .ok b) ↔ r.InRange :=
        fun r => ⟨fun ⟨_, hb⟩ => (Cmd13IDRecord.build_eq_ok.mp hb).1,
          fun hr => ⟨_, Cmd13IDRecord.build_eq_ok.mpr ⟨hr, rfl⟩⟩⟩
      simp only [build, syncID_builds hcount, RecordsBuild, hrecord, PlainIDs]
      constructor
      · intro h hr r hmem
        exact (h.mpr hr r hmem).2
      · intro h
        exact ⟨fun hr r hmem => (hr r hmem).1, fun hr r hmem => ⟨hr r hmem, h hr r hmem⟩⟩
  | syncSchedule p => exact iff_of_true (syncSchedule_builds hcount) trivial
  | syncGroup p => exact iff_of_true (syncGroup_builds hcount) trivial

/-- One command 13 record with this id. -/
def oneID (id : List UInt8) : StructuredPayload :=
  syncID ⟨0, [⟨1, id, 0, 0, 0, 0, ⟨List.replicate 12 0, rfl⟩⟩]⟩

theorem short_id_builds :
    (oneID [0x61]).CountInRange ∧
      ((∃ payload, (oneID [0x61]).build = .ok payload) ↔ (oneID [0x61]).RecordsBuild) :=
  ⟨⟨by decide, by decide⟩, (build_iff_records_iff (oneID [0x61]) ⟨by decide, by decide⟩).mpr
    (fun _ => List.forall_mem_singleton.mpr (by decide))⟩

/-- The letters of the id stand on both sides of a zero byte. -/
theorem split_id_does_not_build :
    (oneID [0x61, 0, 0x62]).RecordsBuild ∧
      ¬ ∃ payload, (oneID [0x61, 0, 0x62]).build = .ok payload := by
  refine ⟨List.forall_mem_singleton.mpr ⟨_, rfl⟩, ?_⟩
  intro h
  have hid := ((syncID_builds ⟨by decide, by decide⟩).mp h _ List.mem_cons_self).2
  revert hid
  decide

end StructuredPayload

/-! ## Raw payloads -/

section Raw

variable {ρ : Type} {size : ℕ} {build : ρ → Except String (List UInt8)} {records : List ρ}
  {built : List (List UInt8)}

/-- The two record loops go through the same buffers. -/
theorem putRecords_eq_copyRecords (name : String)
    (hsize : ∀ r b, build r = .ok b → b.length = size)
    (hbuilt : records.map build = built.map .ok) (i off : ℕ) (out : List UInt8) :
    putRecords name size build records i off out = copyRecords name size built i off out := by
  induction records generalizing built i off out with
  | nil =>
      obtain rfl : built = [] := by simpa using hbuilt.symm
      rfl
  | cons r rest ih =>
      cases built with
      | nil => simp at hbuilt
      | cons b built =>
          obtain ⟨hb, hbuilt⟩ := List.cons.inj hbuilt
          have hb : build r = .ok b := hb
          rw [putRecords, copyRecords, hb, need, if_pos (hsize r b hb)]
          exact ih hbuilt (i + 1) (off + size) (writeAt out off b)

theorem buildCounted_eq_buildRaw (name : String) (commandID : UInt8) (maxCount : ℕ)
    {timestamp timestamp' : UInt32} (htime : timestamp' = timestamp)
    (hsize : ∀ r b, build r = .ok b → b.length = size)
    (hbuilt : records.map build = built.map .ok) :
    buildCounted name commandID maxCount size build timestamp records =
      buildRaw name commandID maxCount size timestamp' built := by
  have hcount : records.length = built.length := by simpa using congrArg List.length hbuilt
  rw [buildCounted, buildRaw, hcount, htime]
  simp only [putRecords_eq_copyRecords name hsize hbuilt]

end Raw

/-- The input of a raw builder. -/
inductive RawPayload where
  | syncID (p : Cmd13SyncIDPayload)
  | syncSchedule (p : Cmd14SyncSchedulePayload)
  | syncGroup (p : Cmd15SyncGroupPayload)

def RawPayload.build : RawPayload → Except String (List UInt8)
  | syncID p => p.build
  | syncSchedule p => p.build
  | syncGroup p => p.build

namespace StructuredPayload

/-- The records of the raw payload are those of the structured one, built one by one. -/
def BuiltAs : StructuredPayload → RawPayload → Prop
  | syncID p, .syncID q =>
      q.timestamp = p.timestamp ∧ p.records.map Cmd13IDRecord.build = q.records.map .ok
  | syncSchedule p, .syncSchedule q =>
      q.timestamp = p.timestamp ∧ p.records.map Cmd14ScheduleRecord.build = q.records.map .ok
  | syncGroup p, .syncGroup q =>
      q.timestamp = p.timestamp ∧ p.records.map Cmd15GroupRecord.build = q.records.map .ok
  | _, _ => False

/-- The raw builder of a command returns the same bytes or the same error. -/
theorem build_eq_build_raw {p : StructuredPayload} {q : RawPayload} (h : p.BuiltAs q) :
    p.build = q.build := by
  cases p with
  | syncID p =>
      cases q with
      | syncID q => exact buildCounted_eq_buildRaw _ _ _ h.1 Cmd13IDRecord.length_build h.2
      | _ => exact h.elim
  | syncSchedule p =>
      cases q with
      | syncSchedule q =>
          exact buildCounted_eq_buildRaw _ _ _ h.1
            (fun _ _ hb => (Cmd14ScheduleRecord.build_spec hb).1) h.2
      | _ => exact h.elim
  | syncGroup p =>
      cases q with
      | syncGroup q =>
          exact buildCounted_eq_buildRaw _ _ _ h.1
            (fun _ _ hb => (Cmd15GroupRecord.build_spec hb).1) h.2
      | _ => exact h.elim

/-- A group record that allows everything. -/
def openGroup : Cmd15GroupRecord :=
  ⟨1, 0, ⟨List.replicate 8 1, rfl⟩, ⟨List.replicate 6 0, rfl⟩⟩

theorem one_group_built_raw :
    (syncGroup ⟨7, [openGroup]⟩).build =
      (RawPayload.syncGroup ⟨7, [[1, 0, 1, 1, 1, 1, 1, 1, 1, 1, 0, 0, 0, 0, 0, 0]]⟩).build :=
  build_eq_build_raw ⟨rfl, rfl⟩

end StructuredPayload

end TcpAdapter.Protocol
