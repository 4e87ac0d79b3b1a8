import TcpAdapter.Verification.Protocol.Records

/-! # What the typed builders of the text commands can build

The validator checks the length and the ranges of commands 11, 12 and 25 but not their texts,
nor the settings bytes that the builder of command 12 leaves zero. Here the payloads that pass
the validator and that no builder returns are singled out. -/

namespace TcpAdapter.Protocol

open TcpAdapter.Codec

variable {payload record : List UInt8}

/-- The texts of a settings record: offset and length. -/
def cmd12Texts : List (ℕ × ℕ) :=
  [(4, 32), (36, 32), (68, 32), (100, 32), (133, 8), (141, 16), (157, 8)]

/-- The texts of a payload. -/
def texts : UInt8 → List (ℕ × ℕ)
  | 11 => [(10, 50)]
  | 12 => cmd12Texts.map fun t => (5 + t.1, t.2)
  | 25 => [(9, 128), (137, 128), (265, 16)]
  | _ => []

/-- The places of a payload that the builder never writes to. -/
def unwritten : UInt8 → List (ℕ × ℕ)
  | 12 => [(175, 4)]
  | _ => []

/-- No byte above 127 in a text and nothing but zeros where no builder writes. -/
def PlainText (commandID : UInt8) (payload : List UInt8) : Prop :=
  (∀ t ∈ texts commandID, ∀ b ∈ slice payload t.1 t.2, b ≤ 127) ∧
    ∀ u ∈ unwritten commandID, ∀ b ∈ slice payload u.1 u.2, b = 0

-- Going through the bytes that are there, not through all bytes.
instance (commandID : UInt8) (payload : List UInt8) : Decidable (PlainText commandID payload) :=
  decidable_of_iff
    (((texts commandID).all fun t => (slice payload t.1 t.2).all (· ≤ 127)) ∧
      (unwritten commandID).all fun u => (slice payload u.1 u.2).all (· = 0))
    (by simp only [PlainText, List.all_eq_true, decide_eq_true_eq])

/-! ## Copied texts -/

theorem fixedASCII_spec {text field : List UInt8} {size : ℕ}
    (h : fixedASCII text size = .ok field) : field.length = size ∧ ∀ b ∈ field, b ≤ 127 := by
  obtain ⟨hlen, hascii, rfl⟩ := fixedASCII_eq_ok.mp h
  refine ⟨by simp [hlen], fun b hb => ?_⟩
  obtain hb | hb := List.mem_append.mp hb
  · exact hascii b hb
  · rw [List.eq_of_mem_replicate hb]
    decide

theorem fixedDigits_eq_ok {text field : List UInt8} {size : ℕ} :
    fixedDigits text size = .ok field ↔
      text.length = size ∧ (∀ b ∈ text, 0x30 ≤ b ∧ b ≤ 0x39) ∧ field = text := by
  rw [fixedDigits, need_bind_eq_ok]
  refine and_congr_right fun hlen => ?_
  rw [copyText_eq_ok (by simp [makeBytes, hlen]), writeAt_makeBytes, hlen]
  simp

/-! ## Command 11 -/

theorem sendSMS_layout {phone msg : List UInt8} (hphone : phone.length = 10)
    (hmsg : msg.length = 50) :
    writeAt (writeAt (makeBytes 60) 0 phone) 10 msg = [phone, msg].flatten := by
  have l₁ : Laid 0 60 _ [phone] 10 := (Laid.start 0 60).write hphone (by decide)
  have l₂ : Laid 0 60 _ [phone, msg] 60 := l₁.write hmsg (by decide)
  exact l₂.done rfl

theorem Cmd11SendSMSPayload.plainText {p : Cmd11SendSMSPayload} (h : p.build = .ok payload) :
    PlainText 11 payload := by
  obtain ⟨-, h⟩ := need_bind_eq_ok.mp h
  obtain ⟨phone, hdigits, h⟩ := bind_eq_ok.mp h
  obtain ⟨msg, hmsg, h⟩ := bind_eq_ok.mp h
  obtain ⟨hvalid, hout⟩ := validated_eq_ok.mp h
  obtain ⟨hphone, -, rfl⟩ := fixedDigits_eq_ok.mp (wrapError_eq_ok.mp hdigits)
  obtain ⟨hmsg, hascii⟩ := fixedASCII_spec (wrapError_eq_ok.mp hmsg)
  have hpayload := hout.symm.trans (sendSMS_layout hphone hmsg)
  have hlen : payload.length = 60 := by simp [hpayload, hphone, hmsg]
  have hcut := (eq_flatten_iff [10, 50] (by simp [hphone, hmsg]) hlen).mp hpayload
  simp only [cut, List.cons.injEq] at hcut
  simp only [PlainText, texts, unwritten, List.forall_mem_singleton, hcut.2.1]
  exact ⟨hascii, by simp⟩

theorem Cmd11SendSMSPayload.exists_build (h : validateCmd11 payload = .ok ())
    (hplain : PlainText 11 payload) : ∃ p : Cmd11SendSMSPayload, p.build = .ok payload := by
  have hvalid := h
  simp only [validateCmd11, needLength, need_bind_eq_ok, needAll_eq_ok, need_eq_ok] at h
  obtain ⟨hlen, hdigits⟩ := h
  have hphone : (slice payload 0 10).length = 10 := length_slice (by omega)
  have hmsg : (slice payload 10 50).length = 50 := length_slice (by omega)
  have hdigit : ∀ b ∈ slice payload 0 10, 0x30 ≤ b ∧ b ≤ 0x39 :=
    forall_mem_slice fun i hi => (Nat.zero_add i).symm ▸ hdigits i hi
  have hpayload : writeAt (writeAt (makeBytes 60) 0 (slice payload 0 10)) 10 (slice payload 10 50) =
      payload :=
    (sendSMS_layout hphone hmsg).trans (flatten_cut [10, 50] 0 hlen.symm)
  refine ⟨⟨slice payload 0 10, slice payload 10 50⟩, ?_⟩
  refine need_bind_eq_ok.mpr ⟨hphone, ?_⟩
  refine bind_eq_ok.mpr ⟨_, wrapError_eq_ok.mpr (fixedDigits_eq_ok.mpr ⟨hphone, hdigit, rfl⟩), ?_⟩
  refine bind_eq_ok.mpr ⟨_, wrapError_eq_ok.mpr (fixedASCII_full hmsg ?_), ?_⟩
  · exact hplain.1 (10, 50) (by simp [texts])
  · exact validated_eq_ok.mpr ⟨(congrArg _ hpayload).trans hvalid, hpayload⟩

/-! ## Command 25 -/

/-- A raw number may be short: the rest of its place stays zero. -/
theorem Cmd25BindingResponsePayload.number_laid (p : Cmd25BindingResponsePayload)
    (hraw : p.objectNumberRaw.length ≤ 8) : ∃ number, number.length = 8 ∧
      Laid 0 281
        (if p.objectNumberRaw.length > 0 then
          writeAt (writeAt (makeBytes 281) 0 [p.errorCode]) 1 p.objectNumberRaw
        else writeAt (writeAt (makeBytes 281) 0 [p.errorCode]) 1 (putUint64 p.objectNumber.toNat))
        [[p.errorCode], number] 9 := by
  have l₁ : Laid 0 281 _ [[p.errorCode]] 1 := (Laid.start 0 281).write (k := 1) rfl (by decide)
  by_cases hpos : p.objectNumberRaw.length > 0
  · rw [if_pos hpos]
    refine ⟨p.objectNumberRaw ++ List.replicate (8 - p.objectNumberRaw.length) 0, by simp; omega, ?_⟩
    have l₂ : Laid 0 281 (writeAt _ 1 p.objectNumberRaw) _ (1 + p.objectNumberRaw.length) :=
      l₁.write rfl (by omega)
    have l₃ := l₂.skip (k := 8 - p.objectNumberRaw.length) (by omega)
    have hend : 1 + p.objectNumberRaw.length + (8 - p.objectNumberRaw.length) = 9 := by omega
    rw [hend] at l₃
    exact l₃.regroup (by simp)
  · rw [if_neg hpos]
    exact ⟨_, rfl, l₁.write (k := 8) rfl (by decide)⟩

theorem bindingResponse_layout {code : UInt8} {out number name controller phone : List UInt8}
    (hnumber : Laid 0 281 out [[code], number] 9) (hname : name.length = 128)
    (hcontroller : controller.length = 128) (hphone : phone.length = 16) :
    writeAt (writeAt (writeAt out 9 name) 137 controller) 265 phone =
      [[code], number, name, controller, phone].flatten := by
  have l₁ : Laid 0 281 _ [[code], number, name] 137 := hnumber.write hname (by decide)
  have l₂ : Laid 0 281 _ [[code], number, name, controller] 265 :=
    l₁.write hcontroller (by decide)
  have l₃ : Laid 0 281 _ [[code], number, name, controller, phone] 281 :=
    l₂.write hphone (by decide)
  exact l₃.done rfl

theorem Cmd25BindingResponsePayload.plainText {p : Cmd25BindingResponsePayload}
    (h : p.build = .ok payload) : PlainText 25 payload := by
  obtain ⟨-, h⟩ := need_bind_eq_ok.mp h
  obtain ⟨hraw, h⟩ := need_bind_eq_ok.mp h
  obtain ⟨name, hname, h⟩ := bind_eq_ok.mp h
  obtain ⟨controller, hcontroller, h⟩ := bind_eq_ok.mp h
  obtain ⟨phone, hphone, h⟩ := bind_eq_ok.mp h
  obtain ⟨hvalid, hout⟩ := validated_eq_ok.mp h
  obtain ⟨hname, hname'⟩ := fixedASCII_spec (wrapError_eq_ok.mp hname)
  obtain ⟨hcontroller, hcontroller'⟩ := fixedASCII_spec (wrapError_eq_ok.mp hcontroller)
  obtain ⟨hphone, hphone'⟩ := fixedASCII_spec (wrapError_eq_ok.mp hphone)
  obtain ⟨number, hnumber, hlaid⟩ := p.number_laid (Nat.not_lt.mp hraw)
  have hpayload := hout.symm.trans (bindingResponse_layout hlaid hname hcontroller hphone)
  have hlen : payload.length = 281 := by simp [hpayload, hnumber, hname, hcontroller, hphone]
  have hcut := (eq_flatten_iff [1, 8, 128, 128, 16]
    (by simp [hnumber, hname, hcontroller, hphone]) hlen).mp hpayload
  simp only [cut, List.cons.injEq] at hcut
  obtain ⟨-, -, h₁, h₂, h₃, -⟩ := hcut
  simp only [PlainText, texts, unwritten, List.forall_mem_cons, h₁, h₂, h₃]
  exact ⟨⟨hname', hcontroller', hphone', by simp⟩, by simp⟩

theorem Cmd25BindingResponsePayload.exists_build (h : validateCmd25 payload = .ok ())
    (hplain : PlainText 25 payload) :
    ∃ p : Cmd25BindingResponsePayload, p.build = .ok payload := by
  have hvalid := h
  obtain ⟨hlen, -⟩ := need_bind_eq_ok.mp h
  simp only [PlainText, texts, List.forall_mem_cons] at hplain
  obtain ⟨⟨hname', hcontroller', hphone', -⟩, -⟩ := hplain
  have hnumber : (slice payload 1 8).length = 8 := length_slice (by omega)
  have hname : (slice payload 9 128).length = 128 := length_slice (by omega)
  have hcontroller : (slice payload 137 128).length = 128 := length_slice (by omega)
  have hphone : (slice payload 265 16).length = 16 := length_slice (by omega)
  have hcode : [payload.getD 0 0] = slice payload 0 1 := slice_one (by omega)
  -- The number goes back as raw bytes.
  have hlaid : Laid 0 281 (writeAt (writeAt (makeBytes 281) 0 [payload.getD 0 0]) 1
      (slice payload 1 8)) [[payload.getD 0 0], slice payload 1 8] 9 :=
    ((Laid.start 0 281).write (k := 1) rfl (by decide)).write hnumber (by decide)
  have hout := bindingResponse_layout hlaid hname hcontroller hphone
  rw [hcode] at hout
  have hpayload := hout.trans (flatten_cut [1, 8, 128, 128, 16] 0 hlen.symm)
  refine ⟨⟨payload.getD 0 0, 0, slice payload 1 8, slice payload 9 128, slice payload 137 128,
    slice payload 265 16⟩, ?_⟩
  refine need_bind_eq_ok.mpr ⟨fun h => h.1 rfl, need_bind_eq_ok.mpr ⟨by simp [hnumber], ?_⟩⟩
  refine bind_eq_ok.mpr ⟨_, wrapError_eq_ok.mpr (fixedASCII_full hname hname'), ?_⟩
  refine bind_eq_ok.mpr ⟨_, wrapError_eq_ok.mpr (fixedASCII_full hcontroller hcontroller'), ?_⟩
  refine bind_eq_ok.mpr ⟨_, wrapError_eq_ok.mpr (fixedASCII_full hphone hphone'), ?_⟩
  dsimp only
  rw [if_pos (by omega), hcode, hpayload]
  exact validated_eq_ok.mpr ⟨hvalid, rfl⟩

/-! ## Command 12 -/

def Cmd12Peripheral.fields (ps : List Cmd12Peripheral) : List (List UInt8) :=
  ps.flatMap fun p => [[p.address], [p.type]]

def Cmd12RelaySettings.fields (relay : Cmd12RelaySettings) : List (List UInt8) :=
  [relay.flags.1, [relay.impulseSec], [relay.pauseSec], [relay.repeats]]

/-- The fields of a record in their order; `[0, 0, 0, 0]` is what the builder leaves out. -/
def Cmd12SettingsRecord.fields (r : Cmd12SettingsRecord)
    (s1 s2 ntp op cc sim ussd : List UInt8) : List (List UInt8) :=
  [putUint32 r.pinCode.toNat, s1, s2, ntp, op, [r.networkType], cc, sim, ussd,
    [r.autoRebootHour], [boolToByte r.extendedDebug], [boolToByte r.useVoLTE],
    [boolToByte r.interface485Active], [boolToByte r.ntpEnabled], [0, 0, 0, 0],
    [r.wiegandType]] ++ Cmd12Peripheral.fields r.peripherals.1 ++ r.relay1.fields ++
      r.relay2.fields ++ [[r.input1Function], [r.input2Function], r.reserveA.1, r.reserveB.1]

/-- The lengths of these fields. -/
def cmd12Lengths : List ℕ :=
  [4, 32, 32, 32, 32, 1, 8, 16, 8, 1, 1, 1, 1, 1, 4, 1] ++ List.replicate 16 1 ++ [8, 1, 1, 1] ++
    [8, 1, 1, 1] ++ [1, 1, 292, 101]

section Laid

variable {size n : ℕ} {out : List UInt8} {fields : List (List UInt8)}

theorem Cmd12Peripheral.laid (ps : List Cmd12Peripheral) (h : Laid 0 size out fields n)
    (hfit : n + 2 * ps.length ≤ size) :
    Laid 0 size (writePeripherals ps n out) (fields ++ Cmd12Peripheral.fields ps)
      (n + 2 * ps.length) := by
  induction ps generalizing out fields n with
  | nil => simpa [writePeripherals, Cmd12Peripheral.fields] using h
  | cons p rest ih =>
      rw [List.length_cons] at hfit
      have l₁ : Laid 0 size (writeAt out n [p.address]) _ (n + 1) := h.write (k := 1) rfl (by omega)
      have l₂ : Laid 0 size (writeAt _ (n + 1) [p.type]) _ (n + 2) :=
        l₁.write (k := 1) rfl (by omega)
      have l₃ := ih l₂ (by omega)
      have hend : n + 2 + 2 * rest.length = n + 2 * (rest.length + 1) := by omega
      rw [hend] at l₃
      exact l₃.regroup (by simp [Cmd12Peripheral.fields])

theorem Cmd12RelaySettings.laid (relay : Cmd12RelaySettings) (h : Laid 0 size out fields n)
    (hfit : n + 11 ≤ size) :
    Laid 0 size (writeRelay n relay out) (fields ++ relay.fields) (n + 11) := by
  have l₁ : Laid 0 size (writeAt out n relay.flags.1) _ (n + 8) :=
    h.write relay.flags.2 (by omega)
  have l₂ : Laid 0 size (writeAt _ (n + 8) [relay.impulseSec]) _ (n + 9) :=
    l₁.write (k := 1) rfl (by omega)
  have l₃ : Laid 0 size (writeAt _ (n + 9) [relay.pauseSec]) _ (n + 10) :=
    l₂.write (k := 1) rfl (by omega)
  have l₄ : Laid 0 size (writeAt _ (n + 10) [relay.repeats]) _ (n + 11) :=
    l₃.write (k := 1) rfl (by omega)
  exact l₄.regroup (by simp [Cmd12RelaySettings.fields])

end Laid

theorem Cmd12SettingsRecord.write_eq (r : Cmd12SettingsRecord)
    {s1 s2 ntp op cc sim ussd : List UInt8} (h₁ : s1.length = 32) (h₂ : s2.length = 32)
    (h₃ : ntp.length = 32) (h₄ : op.length = 32) (h₅ : cc.length = 8) (h₆ : sim.length = 16)
    (h₇ : ussd.length = 8) :
    r.write s1 s2 ntp op cc sim ussd = (r.fields s1 s2 ntp op cc sim ussd).flatten := by
  have l₁ : Laid 0 608 (writeAt _ 0 (putUint32 r.pinCode.toNat)) _ 4 :=
    (Laid.start 0 608).write (k := 4) rfl (by decide)
  have l₂ : Laid 0 608 (writeAt _ 4 s1) _ 36 := l₁.write h₁ (by decide)
  have l₃ : Laid 0 608 (writeAt _ 36 s2) _ 68 := l₂.write h₂ (by decide)
  have l₄ : Laid 0 608 (writeAt _ 68 ntp) _ 100 := l₃.write h₃ (by decide)
  have l₅ : Laid 0 608 (writeAt _ 100 op) _ 132 := l₄.write h₄ (by decide)
  have l₆ : Laid 0 608 (writeAt _ 132 [r.networkType]) _ 133 := l₅.write (k := 1) rfl (by decide)
  have l₇ : Laid 0 608 (writeAt _ 133 cc) _ 141 := l₆.write h₅ (by decide)
  have l₈ : Laid 0 608 (writeAt _ 141 sim) _ 157 := l₇.write h₆ (by decide)
  have l₉ : Laid 0 608 (writeAt _ 157 ussd) _ 165 := l₈.write h₇ (by decide)
  have m₁ : Laid 0 608 (writeAt _ 165 [r.autoRebootHour]) _ 166 :=
    l₉.write (k := 1) rfl (by decide)
  have m₂ : Laid 0 608 (writeAt _ 166 [boolToByte r.extendedDebug]) _ 167 :=
    m₁.write (k := 1) rfl (by decide)
  have m₃ : Laid 0 608 (writeAt _ 167 [boolToByte r.useVoLTE]) _ 168 :=
    m₂.write (k := 1) rfl (by decide)
  have m₄ : Laid 0 608 (writeAt _ 168 [boolToByte r.interface485Active]) _ 169 :=
    m₃.write (k := 1) rfl (by decide)
  have m₅ : Laid 0 608 (writeAt _ 169 [boolToByte r.ntpEnabled]) _ 170 :=
    m₄.write (k := 1) rfl (by decide)
  have m₆ : Laid (0 : UInt8) 608 _ _ 174 := m₅.skip (k := 4) (by decide)
  have m₇ : Laid 0 608 (writeAt _ 174 [r.wiegandType]) _ 175 := m₆.write (k := 1) rfl (by decide)
  have n₁ := Cmd12Peripheral.laid r.peripherals.1 m₇ (by rw [r.peripherals.2]; decide)
  rw [r.peripherals.2] at n₁
  have n₂ : Laid 0 608 (writeRelay 191 r.relay1 _) _ 202 := r.relay1.laid n₁ (by decide)
  have n₃ : Laid 0 608 (writeRelay 202 r.relay2 _) _ 213 := r.relay2.laid n₂ (by decide)
  have n₄ : Laid 0 608 (writeAt _ 213 [r.input1Function]) _ 214 :=
    n₃.write (k := 1) rfl (by decide)
  have n₅ : Laid 0 608 (writeAt _ 214 [r.input2Function]) _ 215 :=
    n₄.write (k := 1) rfl (by decide)
  have n₆ : Laid 0 608 (writeAt _ 215 r.reserveA.1) _ 507 := n₅.write r.reserveA.2 (by decide)
  have n₇ : Laid 0 608 (writeAt _ 507 r.reserveB.1) _ 608 := n₆.write r.reserveB.2 (by decide)
  have hout := n₇.done rfl
  refine Eq.trans ?_ (hout.trans ?_)
  · rfl
  · simp [fields]

theorem Cmd12Peripheral.map_length_fields (ps : List Cmd12Peripheral) :
    (Cmd12Peripheral.fields ps).map List.length = List.replicate (2 * ps.length) 1 := by
  induction ps with
  | nil => rfl
  | cons p rest ih =>
      rw [Cmd12Peripheral.fields, List.flatMap_cons, List.map_append, ← Cmd12Peripheral.fields, ih]
      rfl

theorem Cmd12SettingsRecord.map_length_fields (r : Cmd12SettingsRecord)
    {s1 s2 ntp op cc sim ussd : List UInt8} (h₁ : s1.length = 32) (h₂ : s2.length = 32)
    (h₃ : ntp.length = 32) (h₄ : op.length = 32) (h₅ : cc.length = 8) (h₆ : sim.length = 16)
    (h₇ : ussd.length = 8) :
    (r.fields s1 s2 ntp op cc sim ussd).map List.length = cmd12Lengths := by
  have hps := Cmd12Peripheral.map_length_fields r.peripherals.1
  rw [r.peripherals.2] at hps
  simp [fields, cmd12Lengths, Cmd12RelaySettings.fields, hps, r.reserveA.2, r.reserveB.2,
    r.relay1.flags.2, r.relay2.flags.2, h₁, h₂, h₃, h₄, h₅, h₆, h₇]

/-- What the builder asks of the values in a record. -/
structure Cmd12SettingsRecord.InRange (r : Cmd12SettingsRecord) : Prop where
  network : isCmd12NetworkTypeValid r.networkType
  hour : r.autoRebootHour ≤ 23
  flags₁ : ∀ i < 8, r.relay1.flags.1.getD i 0 ≤ 1
  flags₂ : ∀ i < 8, r.relay2.flags.1.getD i 0 ≤ 1

theorem validateRelayFlags_eq_ok {flags : Arr 8 UInt8} :
    validateRelayFlags flags = .ok () ↔ ∀ i < 8, flags.1.getD i 0 ≤ 1 :=
  needAll_eq_ok.trans (forall_congr' fun _ => forall_congr' fun _ =>
    need_eq_ok.trans UInt8.not_lt)

/-- A record that was built falls apart into the fields that went in. -/
theorem Cmd12SettingsRecord.build_inv {r : Cmd12SettingsRecord} (h : r.build = .ok record) :
    r.InRange ∧ ∃ s1 s2 ntp op cc sim ussd,
      (fixedASCII r.server1 32 = .ok s1 ∧ fixedASCII r.server2 32 = .ok s2 ∧
        fixedASCII r.ntpServer 32 = .ok ntp ∧ fixedASCII r.operator 32 = .ok op ∧
        fixedASCII r.countryCode 8 = .ok cc ∧ fixedASCII r.simPhone 16 = .ok sim ∧
        fixedASCII r.ussd 8 = .ok ussd) ∧
      record.length = 608 ∧ cut cmd12Lengths 0 record = r.fields s1 s2 ntp op cc sim ussd := by
  obtain ⟨hnetwork, h⟩ := need_bind_eq_ok.mp h
  obtain ⟨hhour, h⟩ := need_bind_eq_ok.mp h
  obtain ⟨hrelay₁, h⟩ := check_bind_eq_ok.mp h
  obtain ⟨hrelay₂, h⟩ := check_bind_eq_ok.mp h
  obtain ⟨s1, h₁, h⟩ := bind_eq_ok.mp h
  obtain ⟨s2, h₂, h⟩ := bind_eq_ok.mp h
  obtain ⟨ntp, h₃, h⟩ := bind_eq_ok.mp h
  obtain ⟨op, h₄, h⟩ := bind_eq_ok.mp h
  obtain ⟨cc, h₅, h⟩ := bind_eq_ok.mp h
  obtain ⟨sim, h₆, h⟩ := bind_eq_ok.mp h
  obtain ⟨ussd, h₇, h⟩ := bind_eq_ok.mp h
  rw [wrapError_eq_ok] at hrelay₁ hrelay₂ h₁ h₂ h₃ h₄ h₅ h₆ h₇
  refine ⟨⟨hnetwork, UInt8.not_lt.mp hhour, validateRelayFlags_eq_ok.mp hrelay₁,
    validateRelayFlags_eq_ok.mp hrelay₂⟩, s1, s2, ntp, op, cc, sim, ussd,
    ⟨h₁, h₂, h₃, h₄, h₅, h₆, h₇⟩, ?_⟩
  have k₁ := (fixedASCII_spec h₁).1
  have k₂ := (fixedASCII_spec h₂).1
  have k₃ := (fixedASCII_spec h₃).1
  have k₄ := (fixedASCII_spec h₄).1
  have k₅ := (fixedASCII_spec h₅).1
  have k₆ := (fixedASCII_spec h₆).1
  have k₇ := (fixedASCII_spec h₇).1
  have hlengths := r.map_length_fields k₁ k₂ k₃ k₄ k₅ k₆ k₇
  have hrecord := (Except.ok.inj h).symm.trans (r.write_eq k₁ k₂ k₃ k₄ k₅ k₆ k₇)
  have hlen : record.length = cmd12Lengths.sum := by
    rw [hrecord, List.length_flatten, hlengths]
  exact ⟨hlen, (eq_flatten_iff cmd12Lengths hlengths hlen).mp hrecord⟩

/-- The record of a built payload: its texts are ASCII, its last settings bytes zero. -/
theorem Cmd12SettingsRecord.build_spec {r : Cmd12SettingsRecord} (h : r.build = .ok record) :
    record.length = 608 ∧
      (∀ t ∈ cmd12Texts, ∀ b ∈ slice record t.1 t.2, b ≤ 127) ∧
        slice record 170 4 = [0, 0, 0, 0] := by
  obtain ⟨-, s1, s2, ntp, op, cc, sim, ussd, ⟨h₁, h₂, h₃, h₄, h₅, h₆, h₇⟩, hlen, hcut⟩ :=
    build_inv h
  simp only [cmd12Lengths, fields, List.cons_append, List.nil_append, cut, Nat.reduceAdd,
    List.cons.injEq] at hcut
  obtain ⟨-, c₁, c₂, c₃, c₄, -, c₅, c₆, c₇, -, -, -, -, -, c₈, -⟩ := hcut
  refine ⟨hlen, ?_, c₈⟩
  simp only [cmd12Texts, List.forall_mem_cons, c₁, c₂, c₃, c₄, c₅, c₆, c₇]
  exact ⟨(fixedASCII_spec h₁).2, (fixedASCII_spec h₂).2, (fixedASCII_spec h₃).2,
    (fixedASCII_spec h₄).2, (fixedASCII_spec h₅).2, (fixedASCII_spec h₆).2, (fixedASCII_spec h₇).2,
    by simp⟩

theorem cmd12Texts_fit : ∀ t ∈ cmd12Texts, t.1 + t.2 ≤ 608 := by
  decide

theorem settings_layout (timestamp : UInt32) (hrecord : record.length = 608) :
    writeAt (writeAt (writeAt (makeBytes (5 + cmd12RecordSize)) 0 (putUint32 timestamp.toNat))
      4 [1]) 5 record = [putUint32 timestamp.toNat, [1], record].flatten := by
  have l₁ : Laid 0 613 (writeAt _ 0 (putUint32 timestamp.toNat)) _ 4 :=
    (Laid.start 0 613).write (k := 4) rfl (by decide)
  have l₂ : Laid 0 613 (writeAt _ 4 [(1 : UInt8)]) _ 5 := l₁.write (k := 1) rfl (by decide)
  have l₃ : Laid 0 613 (writeAt _ 5 record) _ 613 := l₂.write hrecord (by decide)
  exact l₃.done rfl

theorem Cmd12SettingsPayload.plainText {p : Cmd12SettingsPayload} (h : p.build = .ok payload) :
    PlainText 12 payload := by
  obtain ⟨record, hrecord, h⟩ := bind_eq_ok.mp h
  obtain ⟨hvalid, hout⟩ := validated_eq_ok.mp h
  obtain ⟨hsize, htexts, hzero⟩ := Cmd12SettingsRecord.build_spec hrecord
  have hpayload := hout.symm.trans (settings_layout _ hsize)
  have hlen : payload.length = 613 := by simp [hpayload, hsize]
  have hcut := (eq_flatten_iff [4, 1, 608] (by simp [hsize]) hlen).mp hpayload
  simp only [cut, Nat.reduceAdd, List.cons.injEq] at hcut
  obtain ⟨-, -, hrecord, -⟩ := hcut
  have hslice : ∀ off k, off + k ≤ 608 → slice payload (5 + off) k = slice record off k := by
    intro off k hfit
    rw [← hrecord, slice_slice payload 5 hfit]
  refine ⟨List.forall_mem_map.mpr fun t ht => ?_, ?_⟩
  · rw [hslice t.1 t.2 (cmd12Texts_fit t ht)]
    exact htexts t ht
  · simp only [unwritten, List.forall_mem_singleton]
    rw [hslice 170 4 (by decide), hzero]
    exact fun b hb => List.eq_of_mem_replicate (n := 4) hb

def Cmd12RelaySettings.decode (r : List UInt8) (base : ℕ) (h : base + 11 ≤ r.length) :
    Cmd12RelaySettings where
  flags := arrayAt r base 8 (by omega)
  impulseSec := r.getD (base + 8) 0
  pauseSec := r.getD (base + 9) 0
  repeats := r.getD (base + 10) 0

def Cmd12SettingsRecord.decode (r : List UInt8) (h : r.length = cmd12RecordSize) :
    Cmd12SettingsRecord where
  pinCode := UInt32.ofNat (uint32At r cmd12OffPinCode)
  server1 := slice r cmd12OffServer1 32
  server2 := slice r cmd12OffServer2 32
  ntpServer := slice r cmd12OffNTPServer 32
  operator := slice r cmd12OffOperator 32
  networkType := r.getD cmd12OffNetworkType 0
  countryCode := slice r cmd12OffCountryCode 8
  simPhone := slice r cmd12OffSimPhone 16
  ussd := slice r cmd12OffUSSD 8
  autoRebootHour := r.getD cmd12OffAutoReboot 0
  extendedDebug := r.getD cmd12OffSettingsByte 0 = 1
  useVoLTE := r.getD (cmd12OffSettingsByte + 1) 0 = 1
  interface485Active := r.getD (cmd12OffSettingsByte + 2) 0 = 1
  ntpEnabled := r.getD (cmd12OffSettingsByte + 3) 0 = 1
  wiegandType := r.getD cmd12OffWiegandType 0
  peripherals := ⟨(List.range 8).map fun i =>
    ⟨r.getD (cmd12OffPeripheral + 2 * i) 0, r.getD (cmd12OffPeripheral + 2 * i + 1) 0⟩, rfl⟩
  relay1 := .decode r cmd12OffRelay1 (h ▸ by decide)
  relay2 := .decode r cmd12OffRelay2 (h ▸ by decide)
  input1Function := r.getD cmd12OffInput1 0
  input2Function := r.getD cmd12OffInput2 0
  reserveA := arrayAt r cmd12OffReserveA 292 (h ▸ by decide)
  reserveB := arrayAt r cmd12OffReserveB 101 (h ▸ by decide)

theorem boolToByte_eq {b : UInt8} (h : b ≤ 1) : boolToByte (b = 1) = b := by
  have hcases : b = 0 ∨ b = 1 := by
    rw [UInt8.le_iff_toNat_le] at h
    rw [← UInt8.toNat_inj, ← UInt8.toNat_inj]
    change b.toNat ≤ 1 at h
    change b.toNat = 0 ∨ b.toNat = 1
    omega
  obtain rfl | rfl := hcases <;> rfl

theorem Cmd12Peripheral.fields_decode {off : ℕ} (n : ℕ) (hfit : off + 2 * n ≤ record.length) :
    Cmd12Peripheral.fields ((List.range n).map fun i =>
      ⟨record.getD (off + 2 * i) 0, record.getD (off + 2 * i + 1) 0⟩) =
        cut (List.replicate (2 * n) 1) off record := by
  induction n with
  | zero => rfl
  | succ n ih =>
      have hlengths : List.replicate (2 * (n + 1)) 1 = List.replicate (2 * n) 1 ++ [1, 1] := by
        rw [show [1, 1] = List.replicate 2 1 from rfl, List.replicate_append_replicate]
        rfl
      rw [hlengths, cut_append, ← ih (by omega), List.range_succ, List.map_append, fields,
        List.flatMap_append, ← fields]
      congr 1
      simp only [List.map_singleton, List.flatMap_singleton, cut, List.sum_replicate_nat, Nat.mul_one]
      rw [slice_one (by omega), slice_one (by omega)]

theorem Cmd12RelaySettings.fields_decode {base : ℕ} (h : base + 11 ≤ record.length) :
    (decode record base h).fields = cut [8, 1, 1, 1] base record := by
  simp only [decode, fields, arrayAt, cut]
  rw [slice_one (by omega), slice_one (by omega), slice_one (by omega)]

theorem Cmd12SettingsRecord.fields_decode (hlen : record.length = cmd12RecordSize)
    (hbools : ∀ i < 4, record.getD (166 + i) 0 ≤ 1)
    (hzero : slice record 170 4 = [0, 0, 0, 0]) :
    (decode record hlen).fields (slice record 4 32) (slice record 36 32) (slice record 68 32)
      (slice record 100 32) (slice record 133 8) (slice record 141 16) (slice record 157 8) =
        cut cmd12Lengths 0 record := by
  have hsize : record.length = 608 := hlen
  have hone : ∀ off, off < 608 → [record.getD off 0] = slice record off 1 :=
    fun off h => slice_one (by omega)
  have hpin : putUint32 (decode record hlen).pinCode.toNat = slice record 0 4 :=
    (congrArg putUint32 (toNat_ofNat_uint32At record 0)).trans (putUint32_uint32At (by omega))
  have hbool : ∀ i < 4, [boolToByte (record.getD (166 + i) 0 = 1)] = slice record (166 + i) 1 := by
    intro i hi
    rw [boolToByte_eq (hbools i hi), slice_one (by omega)]
  have hhead : [slice record 0 4, slice record 4 32, slice record 36 32, slice record 68 32,
      slice record 100 32, [record.getD 132 0], slice record 133 8, slice record 141 16,
      slice record 157 8, [record.getD 165 0], [boolToByte (record.getD 166 0 = 1)],
      [boolToByte (record.getD 167 0 = 1)], [boolToByte (record.getD 168 0 = 1)],
      [boolToByte (record.getD 169 0 = 1)], slice record 170 4, [record.getD 174 0]] =
        cut [4, 32, 32, 32, 32, 1, 8, 16, 8, 1, 1, 1, 1, 1, 4, 1] 0 record := by
    rw [hone 132 (by decide), hone 165 (by decide), hone 174 (by decide), hbool 0 (by decide),
      hbool 1 (by decide), hbool 2 (by decide), hbool 3 (by decide)]
    rfl
  have hperipherals : Cmd12Peripheral.fields (decode record hlen).peripherals.1 =
      cut (List.replicate 16 1) 175 record :=
    Cmd12Peripheral.fields_decode 8 (by rw [hsize]; decide)
  have hrelay₁ : (decode record hlen).relay1.fields = cut [8, 1, 1, 1] 191 record :=
    Cmd12RelaySettings.fields_decode (by rw [hsize]; decide)
  have hrelay₂ : (decode record hlen).relay2.fields = cut [8, 1, 1, 1] 202 record :=
    Cmd12RelaySettings.fields_decode (by rw [hsize]; decide)
  have htail : [[record.getD 213 0], [record.getD 214 0], slice record 215 292,
      slice record 507 101] = cut [1, 1, 292, 101] 213 record := by
    rw [hone 213 (by decide), hone 214 (by decide)]
    rfl
  rw [cmd12Lengths, cut_append, cut_append, cut_append, cut_append, ← hhead, fields, hperipherals,
    hrelay₁, hrelay₂, hpin, ← hzero]
  exact congrArg₂ (· ++ ·) rfl htail

theorem validateCmd12_eq_ok : validateCmd12 payload = .ok () ↔
    payload.length = 613 ∧ payload.getD 4 0 = 1 ∧
      isCmd12NetworkTypeValid ((slice payload 5 608).getD 132 0) ∧
      (slice payload 5 608).getD 165 0 ≤ 23 ∧
      (∀ i < 4, (slice payload 5 608).getD (166 + i) 0 ≤ 1) ∧
      (∀ i < 8, (slice payload 5 608).getD (191 + i) 0 ≤ 1) ∧
      ∀ i < 8, (slice payload 5 608).getD (202 + i) 0 ≤ 1 := by
  constructor
  · intro h
    obtain ⟨count, hcounted, h⟩ := bind_eq_ok.mp h
    obtain ⟨-, hcount, hlen, -⟩ := validateCounted_eq_ok.mp hcounted
    obtain ⟨hnetwork, h⟩ := need_bind_eq_ok.mp h
    obtain ⟨hhour, h⟩ := need_bind_eq_ok.mp h
    obtain ⟨⟨hb₀, hb₁, hb₂, hb₃⟩, h⟩ := need_bind_eq_ok.mp h
    have hflags := needAll_eq_ok.mp h
    have hone : (payload.getD 4 0).toNat = 1 := by omega
    refine ⟨by rw [hlen, hone]; rfl, UInt8.toNat_inj.mp hone, hnetwork, hhour, ?_, ?_, ?_⟩
    · intro i hi
      match i, hi with
      | 0, _ => exact hb₀
      | 1, _ => exact hb₁
      | 2, _ => exact hb₂
      | 3, _ => exact hb₃
    · exact fun i hi => (need_bind_eq_ok.mp (hflags i hi)).1
    · exact fun i hi => need_eq_ok.mp (need_bind_eq_ok.mp (hflags i hi)).2
  · rintro ⟨hlen, hone, hnetwork, hhour, hbools, hflags₁, hflags₂⟩
    have hcount : (payload.getD 4 0).toNat = 1 := by rw [hone]; rfl
    refine bind_eq_ok.mpr ⟨1, validateCounted_eq_ok.mpr ⟨by omega, by omega, ?_, hcount⟩, ?_⟩
    · rw [hlen, hcount]
      rfl
    refine need_bind_eq_ok.mpr ⟨hnetwork, need_bind_eq_ok.mpr ⟨hhour, need_bind_eq_ok.mpr ⟨?_, ?_⟩⟩⟩
    · exact ⟨hbools 0 (by decide), hbools 1 (by decide), hbools 2 (by decide), hbools 3 (by decide)⟩
    · exact needAll_eq_ok.mpr fun i hi =>
        need_bind_eq_ok.mpr ⟨hflags₁ i hi, need_eq_ok.mpr (hflags₂ i hi)⟩

theorem validateRelayFlags_slice {base : ℕ} (h : base + 8 ≤ record.length)
    (hflags : ∀ i < 8, record.getD (base + i) 0 ≤ 1) :
    validateRelayFlags (arrayAt record base 8 h) = .ok () := by
  refine validateRelayFlags_eq_ok.mpr fun i hi => ?_
  rw [arrayAt, getD_slice hi]
  exact hflags i hi

/-- The record of a payload that passes the checks is built again. -/
theorem Cmd12SettingsRecord.build_decode (hlen : record.length = cmd12RecordSize)
    (hnetwork : isCmd12NetworkTypeValid (record.getD 132 0)) (hhour : record.getD 165 0 ≤ 23)
    (hbools : ∀ i < 4, record.getD (166 + i) 0 ≤ 1)
    (hflags₁ : ∀ i < 8, record.getD (191 + i) 0 ≤ 1)
    (hflags₂ : ∀ i < 8, record.getD (202 + i) 0 ≤ 1)
    (htexts : ∀ t ∈ cmd12Texts, ∀ b ∈ slice record t.1 t.2, b ≤ 127)
    (hzero : slice record 170 4 = [0, 0, 0, 0]) : (decode record hlen).build = .ok record := by
  have hsize : record.length = 608 := hlen
  have htext : ∀ off k, (off, k) ∈ cmd12Texts →
      (slice record off k).length = k ∧
        fixedASCII (slice record off k) k = .ok (slice record off k) := by
    intro off k ht
    have hk : (slice record off k).length = k :=
      length_slice (Nat.le_trans (cmd12Texts_fit _ ht) (Nat.le_of_eq hsize.symm))
    exact ⟨hk, fixedASCII_full hk (htexts _ ht)⟩
  obtain ⟨h₁, a₁⟩ := htext 4 32 (by decide)
  obtain ⟨h₂, a₂⟩ := htext 36 32 (by decide)
  obtain ⟨h₃, a₃⟩ := htext 68 32 (by decide)
  obtain ⟨h₄, a₄⟩ := htext 100 32 (by decide)
  obtain ⟨h₅, a₅⟩ := htext 133 8 (by decide)
  obtain ⟨h₆, a₆⟩ := htext 141 16 (by decide)
  obtain ⟨h₇, a₇⟩ := htext 157 8 (by decide)
  refine need_bind_eq_ok.mpr ⟨hnetwork, need_bind_eq_ok.mpr ⟨UInt8.not_lt.mpr hhour, ?_⟩⟩
  have hrelay₁ := validateRelayFlags_slice (by omega) hflags₁
  have hrelay₂ := validateRelayFlags_slice (by omega) hflags₂
  refine check_bind_eq_ok.mpr ⟨wrapError_eq_ok.mpr hrelay₁, ?_⟩
  refine check_bind_eq_ok.mpr ⟨wrapError_eq_ok.mpr hrelay₂, ?_⟩
  refine bind_eq_ok.mpr ⟨_, wrapError_eq_ok.mpr a₁, bind_eq_ok.mpr ⟨_, wrapError_eq_ok.mpr a₂, ?_⟩⟩
  refine bind_eq_ok.mpr ⟨_, wrapError_eq_ok.mpr a₃, bind_eq_ok.mpr ⟨_, wrapError_eq_ok.mpr a₄, ?_⟩⟩
  refine bind_eq_ok.mpr ⟨_, wrapError_eq_ok.mpr a₅, bind_eq_ok.mpr ⟨_, wrapError_eq_ok.mpr a₆, ?_⟩⟩
  refine bind_eq_ok.mpr ⟨_, wrapError_eq_ok.mpr a₇, congrArg Except.ok ?_⟩
  rw [write_eq _ h₁ h₂ h₃ h₄ h₅ h₆ h₇, fields_decode hlen hbools hzero]
  exact flatten_cut cmd12Lengths 0 hsize.symm

theorem Cmd12SettingsPayload.exists_build (h : validateCmd12 payload = .ok ())
    (hplain : PlainText 12 payload) : ∃ p : Cmd12SettingsPayload, p.build = .ok payload := by
  obtain ⟨hlen, hcount, hnetwork, hhour, hbools, hflags₁, hflags₂⟩ := validateCmd12_eq_ok.mp h
  have hrecord : (slice payload 5 608).length = 608 := length_slice (by omega)
  have htexts : ∀ t ∈ cmd12Texts, ∀ b ∈ slice (slice payload 5 608) t.1 t.2, b ≤ 127 := by
    intro t ht
    rw [slice_slice payload 5 (cmd12Texts_fit t ht)]
    exact hplain.1 _ (List.mem_map_of_mem ht)
  have hzero : slice (slice payload 5 608) 170 4 = [0, 0, 0, 0] := by
    have hall := hplain.2 (175, 4) (by decide)
    rw [slice_slice payload 5 (by decide)]
    exact List.eq_replicate_iff.mpr ⟨length_slice (by omega), hall⟩
  have hbuild := Cmd12SettingsRecord.build_decode hrecord hnetwork hhour hbools hflags₁ hflags₂
    htexts hzero
  have htime : putUint32 (UInt32.ofNat (uint32At payload 0)).toNat = slice payload 0 4 :=
    (congrArg putUint32 (toNat_ofNat_uint32At payload 0)).trans (putUint32_uint32At (by omega))
  have hone : [1] = slice payload 4 1 := by rw [← slice_one (by omega), hcount]
  have hout := settings_layout (UInt32.ofNat (uint32At payload 0)) hrecord
  have hfields : [putUint32 (UInt32.ofNat (uint32At payload 0)).toNat, [1], slice payload 5 608] =
      cut [4, 1, 608] 0 payload := by
    rw [htime, hone]
    rfl
  have hpayload :=
    hout.trans ((congrArg List.flatten hfields).trans (flatten_cut [4, 1, 608] 0 hlen.symm))
  refine ⟨⟨UInt32.ofNat (uint32At payload 0), .decode _ hrecord⟩, ?_⟩
  refine bind_eq_ok.mpr ⟨_, hbuild, validated_eq_ok.mpr ⟨?_, hpayload⟩⟩
  exact (congrArg _ hpayload).trans h

/-! ## The text commands -/

def textCommands : List UInt8 :=
  [11, 12, 25]

/-- A payload that passes the validator is what a typed builder returns exactly if its texts
are plain and nothing stands where the builder does not write. -/
theorem valid_buildable_iff_plainText (commandID : UInt8) (hid : commandID ∈ textCommands)
    (payload : List UInt8) (hvalid : validateServerCommandPayload commandID payload = .ok ()) :
    Buildable commandID payload ↔ PlainText commandID payload := by
  simp only [textCommands, List.mem_cons, List.not_mem_nil, or_false] at hid
  constructor
  · rintro ⟨p, rfl, hbuild⟩
    cases p with
    | sendSMS p => exact Cmd11SendSMSPayload.plainText hbuild
    | settings p => exact Cmd12SettingsPayload.plainText hbuild
    | bindingResponse p => exact Cmd25BindingResponsePayload.plainText hbuild
    | _ => simp [TypedPayload.commandID] at hid
  · intro hplain
    obtain rfl | rfl | rfl := hid
    · obtain ⟨p, hbuild⟩ := Cmd11SendSMSPayload.exists_build hvalid hplain
      exact ⟨.sendSMS p, rfl, hbuild⟩
    · obtain ⟨p, hbuild⟩ := Cmd12SettingsPayload.exists_build hvalid hplain
      exact ⟨.settings p, rfl, hbuild⟩
    · obtain ⟨p, hbuild⟩ := Cmd25BindingResponsePayload.exists_build hvalid hplain
      exact ⟨.bindingResponse p, rfl, hbuild⟩

/-- Ten digits and a message of these bytes, padded with zeros. -/
def smsPayload (message : List UInt8) : List UInt8 :=
  List.replicate 10 0x30 ++ message ++ List.replicate (50 - message.length) 0

theorem greeting_buildable : Buildable 11 (smsPayload [0x48, 0x69]) :=
  (valid_buildable_iff_plainText 11 (by decide) _ (by decide)).mpr (by decide)

/-- A message of one byte above 127 passes the validator, and no builder returns it. -/
theorem non_ascii_message_accepted :
    validateServerCommandPayload 11 (smsPayload [0xC3]) = .ok () ∧
      ¬ Buildable 11 (smsPayload [0xC3]) := by
  refine ⟨by decide, ?_⟩
  rintro ⟨p, hid, hbuild⟩
  cases p with
  | sendSMS p =>
      have hplain := Cmd11SendSMSPayload.plainText hbuild
      revert hplain
      decide
  | _ => simp [TypedPayload.commandID] at hid

end TcpAdapter.Protocol
