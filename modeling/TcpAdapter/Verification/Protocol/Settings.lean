import TcpAdapter.Verification.Protocol.Texts

/-! # The settings record read back

Every field of a command 12 record has a place of its own in the bytes that the builder returns,
and no write touches the place of another field. What stands at the offsets is therefore the
record, but for the zeros behind its texts, and the validator accepts it. -/

namespace TcpAdapter.Protocol

open TcpAdapter.Codec

variable {record : List UInt8}

/-! ## Texts without their padding -/

theorem stripZeros_fixedASCII {text field : List UInt8} {size : ℕ}
    (h : fixedASCII text size = .ok field) : stripZeros field = stripZeros text := by
  obtain ⟨-, -, rfl⟩ := fixedASCII_eq_ok.mp h
  exact stripZeros_padded text _

/-! ## Fields determine values -/

theorem putUint32_toNat_inj {a b : UInt32} (h : putUint32 a.toNat = putUint32 b.toNat) : a = b := by
  rw [← UInt32.toNat_inj, ← uint32At_putUint32 a.toNat_lt, h, uint32At_putUint32 b.toNat_lt]

theorem boolToByte_inj {a b : Bool} (h : boolToByte a = boolToByte b) : a = b := by
  revert a b
  decide

theorem boolToByte_le_one (v : Bool) : boolToByte v ≤ 1 := by
  cases v <;> decide

theorem Cmd12Peripheral.fields_inj {ps qs : List Cmd12Peripheral}
    (h : Cmd12Peripheral.fields ps = Cmd12Peripheral.fields qs) : ps = qs := by
  induction ps generalizing qs with
  | nil =>
      cases qs with
      | nil => rfl
      | cons q qs => cases h
  | cons p ps ih =>
      cases qs with
      | nil => cases h
      | cons q qs =>
          have h : [[p.address], [p.type]] ++ Cmd12Peripheral.fields ps =
              [[q.address], [q.type]] ++ Cmd12Peripheral.fields qs := h
          obtain ⟨hp, hps⟩ := List.append_inj h rfl
          rw [ih hps]
          simp only [List.cons.injEq, and_true] at hp
          congr 1
          cases p
          cases q
          simp_all

theorem Cmd12RelaySettings.fields_inj {a b : Cmd12RelaySettings} (h : a.fields = b.fields) :
    a = b := by
  obtain ⟨⟨flags, hflags⟩, impulse, pause, repeats⟩ := a
  obtain ⟨⟨flags', hflags'⟩, impulse', pause', repeats'⟩ := b
  simpa [Cmd12RelaySettings.fields] using h

namespace Cmd12SettingsRecord

variable {r r' : Cmd12SettingsRecord}

/-- The fields of a record whose texts are padded already. -/
def row (r : Cmd12SettingsRecord) : List (List UInt8) :=
  r.fields r.server1 r.server2 r.ntpServer r.operator r.countryCode r.simPhone r.ussd

theorem row_inj (h : r.row = r'.row) : r = r' := by
  obtain ⟨h, htail⟩ := List.append_inj' h rfl
  obtain ⟨h, hrelay₂⟩ := List.append_inj' h rfl
  obtain ⟨h, hrelay₁⟩ := List.append_inj' h rfl
  obtain ⟨hhead, hperipherals⟩ := List.append_inj h rfl
  have hrelay₁ := Cmd12RelaySettings.fields_inj hrelay₁
  have hrelay₂ := Cmd12RelaySettings.fields_inj hrelay₂
  have hperipherals := Subtype.ext (Cmd12Peripheral.fields_inj hperipherals)
  simp only [List.cons.injEq, and_true] at hhead htail
  obtain ⟨hpin, h₁, h₂, h₃, h₄, hnetwork, h₅, h₆, h₇, hhour, hb₀, hb₁, hb₂, hb₃, -, hwiegand⟩ :=
    hhead
  obtain ⟨hinput₁, hinput₂, hreserveA, hreserveB⟩ := htail
  have hpin := putUint32_toNat_inj hpin
  have hb₀ := boolToByte_inj hb₀
  have hb₁ := boolToByte_inj hb₁
  have hb₂ := boolToByte_inj hb₂
  have hb₃ := boolToByte_inj hb₃
  have hreserveA := Subtype.ext hreserveA
  have hreserveB := Subtype.ext hreserveB
  cases r
  cases r'
  simp_all

/-- The settings bytes of a built record are truth values. -/
theorem settings_le_one (h : r.build = .ok record) : ∀ i < 4, record.getD (166 + i) 0 ≤ 1 := by
  obtain ⟨-, s1, s2, ntp, op, cc, sim, ussd, -, hlen, hcut⟩ := build_inv h
  simp only [cmd12Lengths, fields, List.cons_append, List.nil_append, cut, Nat.reduceAdd,
    List.cons.injEq] at hcut
  obtain ⟨-, -, -, -, -, -, -, -, -, -, hb₀, hb₁, hb₂, hb₃, -⟩ := hcut
  have hbyte : ∀ off v, off < 608 → slice record off 1 = [boolToByte v] →
      record.getD off 0 ≤ 1 := by
    intro off v hoff hslice
    rw [List.singleton_inj.mp ((slice_one (by omega)).trans hslice)]
    exact boolToByte_le_one v
  intro i hi
  obtain rfl | rfl | rfl | rfl : i = 0 ∨ i = 1 ∨ i = 2 ∨ i = 3 := by omega
  · exact hbyte 166 _ (by decide) hb₀
  · exact hbyte 167 _ (by decide) hb₁
  · exact hbyte 168 _ (by decide) hb₂
  · exact hbyte 169 _ (by decide) hb₃

/-- What stands at the offsets is what was written. -/
theorem decode_build (h : r.build = .ok record) (hlen : record.length = cmd12RecordSize) :
    ∃ s1 s2 ntp op cc sim ussd,
      (fixedASCII r.server1 32 = .ok s1 ∧ fixedASCII r.server2 32 = .ok s2 ∧
        fixedASCII r.ntpServer 32 = .ok ntp ∧ fixedASCII r.operator 32 = .ok op ∧
        fixedASCII r.countryCode 8 = .ok cc ∧ fixedASCII r.simPhone 16 = .ok sim ∧
        fixedASCII r.ussd 8 = .ok ussd) ∧
      decode record hlen = { r with
        server1 := s1, server2 := s2, ntpServer := ntp, operator := op, countryCode := cc,
        simPhone := sim, ussd := ussd } := by
  obtain ⟨-, s1, s2, ntp, op, cc, sim, ussd, htexts, -, hcut⟩ := build_inv h
  refine ⟨s1, s2, ntp, op, cc, sim, ussd, htexts, row_inj ?_⟩
  exact (fields_decode hlen (settings_le_one h) (build_spec h).2.2).trans hcut

/-- The record without the zeros at the end of its texts. -/
def stripped (r : Cmd12SettingsRecord) : Cmd12SettingsRecord :=
  { r with
    server1 := stripZeros r.server1
    server2 := stripZeros r.server2
    ntpServer := stripZeros r.ntpServer
    operator := stripZeros r.operator
    countryCode := stripZeros r.countryCode
    simPhone := stripZeros r.simPhone
    ussd := stripZeros r.ussd }

theorem stripped_decode (h : r.build = .ok record) (hlen : record.length = cmd12RecordSize) :
    (decode record hlen).stripped = r.stripped := by
  obtain ⟨s1, s2, ntp, op, cc, sim, ussd, ⟨h₁, h₂, h₃, h₄, h₅, h₆, h₇⟩, hdecode⟩ :=
    decode_build h hlen
  simp only [hdecode, stripped, stripZeros_fixedASCII h₁, stripZeros_fixedASCII h₂,
    stripZeros_fixedASCII h₃, stripZeros_fixedASCII h₄, stripZeros_fixedASCII h₅,
    stripZeros_fixedASCII h₆, stripZeros_fixedASCII h₇]

/-- The validator accepts a built record. -/
theorem payload_of_build (h : r.build = .ok record) (timestamp : UInt32) :
    Cmd12SettingsPayload.build ⟨timestamp, r⟩ =
      .ok (putUint32 timestamp.toNat ++ [1] ++ record) := by
  obtain ⟨hrange, -⟩ := build_inv h
  have hlen : record.length = 608 := (build_spec h).1
  obtain ⟨_, _, _, _, _, _, _, -, hdecode⟩ := decode_build h hlen
  have hout := settings_layout timestamp hlen
  have hrecord : slice ([putUint32 timestamp.toNat, [1], record].flatten) 5 608 = record := by
    rw [← hlen]
    simp [slice, putUint32, putUint16]
  refine bind_eq_ok.mpr ⟨record, h, validated_eq_ok.mpr ⟨?_, by simpa using hout⟩⟩
  rw [hout]
  refine validateCmd12_eq_ok.mpr ?_
  rw [hrecord]
  have hnetwork : record.getD 132 0 = r.networkType := congrArg networkType hdecode
  have hhour : record.getD 165 0 = r.autoRebootHour := congrArg autoRebootHour hdecode
  have hflags₁ : ∀ i < 8, record.getD (191 + i) 0 = r.relay1.flags.1.getD i 0 := fun i hi =>
    (getD_slice hi).symm.trans (congrArg (fun d => d.relay1.flags.1.getD i 0) hdecode)
  have hflags₂ : ∀ i < 8, record.getD (202 + i) 0 = r.relay2.flags.1.getD i 0 := fun i hi =>
    (getD_slice hi).symm.trans (congrArg (fun d => d.relay2.flags.1.getD i 0) hdecode)
  refine ⟨by simp [hlen], rfl, ?_, ?_, settings_le_one h, fun i hi => ?_, fun i hi => ?_⟩
  · exact hnetwork ▸ hrange.network
  · exact hhour ▸ hrange.hour
  · exact hflags₁ i hi ▸ hrange.flags₁ i hi
  · exact hflags₂ i hi ▸ hrange.flags₂ i hi

/-- Nothing is lost in the settings record: its fields are found at their offsets, the bytes
between the settings and the Wiegand type are zero, the payload can be built, and other records
with the same bytes differ only in the zeros at the end of their texts. -/
theorem settings_lossless (h : r.build = .ok record) :
    ∃ hlen : record.length = cmd12RecordSize,
      (decode record hlen).stripped = r.stripped ∧ slice record 170 4 = [0, 0, 0, 0] ∧
        (∀ timestamp, Cmd12SettingsPayload.build ⟨timestamp, r⟩ =
          .ok (putUint32 timestamp.toNat ++ [1] ++ record)) ∧
        ∀ r' : Cmd12SettingsRecord, r'.build = .ok record → r'.stripped = r.stripped := by
  obtain ⟨hlen, -, hzero⟩ := build_spec h
  refine ⟨hlen, stripped_decode h hlen, hzero, payload_of_build h, fun r' h' => ?_⟩
  rw [← stripped_decode h' hlen, stripped_decode h hlen]

/-- A relay that is not used. -/
def idleRelay : Cmd12RelaySettings :=
  ⟨⟨List.replicate 8 0, List.length_replicate⟩, 0, 0, 0⟩

/-- A record with one server and nothing else. -/
def oneServer : Cmd12SettingsRecord where
  pinCode := 1234
  server1 := [0x61]
  server2 := []
  ntpServer := []
  operator := []
  networkType := 4
  countryCode := []
  simPhone := []
  ussd := []
  autoRebootHour := 23
  extendedDebug := false
  useVoLTE := true
  interface485Active := false
  ntpEnabled := true
  wiegandType := 0
  peripherals := ⟨List.replicate 8 ⟨0, 0⟩, List.length_replicate⟩
  relay1 := idleRelay
  relay2 := idleRelay
  input1Function := 0
  input2Function := 0
  reserveA := ⟨List.replicate 292 0, List.length_replicate⟩
  reserveB := ⟨List.replicate 101 0, List.length_replicate⟩

theorem oneServer_lossless :
    ∃ record, oneServer.build = .ok record ∧ ∃ hlen : record.length = cmd12RecordSize,
      (decode record hlen).stripped = oneServer.stripped := by
  have hbuild : ∃ record, oneServer.build = .ok record := ⟨_, rfl⟩
  obtain ⟨record, h⟩ := hbuild
  obtain ⟨hlen, hdecode, -⟩ := settings_lossless h
  exact ⟨record, h, hlen, hdecode⟩

end Cmd12SettingsRecord

end TcpAdapter.Protocol
